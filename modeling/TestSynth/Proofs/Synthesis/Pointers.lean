import Mathlib
import TestSynth.Plan.StandIn
import TestSynth.Proofs.Synthesis.Locals
import TestSynth.Proofs.Typing.Category
/-!
Parameters that refer to pointers. They are seen as pointers, but what is passed for them is made
from the bare type, which has no stars: a local is an object of the pointee, and a value that is
written in place is a null pointer only by being the zero of an integer.
-/
namespace TestSynth.Synthesis

open Text
open Typing (bareType classify valueCategory decayedCategory Category baseWords bareType_ofList)

/-- How a pointer is referred to: as one that may be changed, as a constant one, or as one that was
made for the call. -/
inductive PointerUse where
  | changed
  | constant
  | temporary
deriving DecidableEq, Repr

def PointerUse.chars : PointerUse → List Char
  | changed => ['&']
  | constant => " const&".toList
  | temporary => ['&', '&']

@[simp]
theorem PointerUse.chars_changed : PointerUse.changed.chars = ['&'] := rfl

@[simp]
theorem PointerUse.chars_constant : PointerUse.constant.chars = " const&".toList := by
  decide +kernel

@[simp]
theorem PointerUse.chars_temporary : PointerUse.temporary.chars = ['&', '&'] := rfl

/-- A reference to a pointer to what any text spells. -/
structure PointerReference where
  base : String
  stars : Nat
  use : PointerUse
  isPointer : 0 < stars

namespace PointerReference

/-- The text of the type. -/
def chars (t : PointerReference) : List Char :=
  t.base.toList ++ (List.replicate t.stars '*' ++ t.use.chars)

def text (t : PointerReference) : String := String.ofList t.chars

variable {t : PointerReference}

theorem mem_chars (t : PointerReference) : '*' ∈ t.chars ∧ '&' ∈ t.chars := by
  have huse : '&' ∈ t.use.chars := by cases t.use <;> simp
  have hstar : '*' ∈ List.replicate t.stars '*' := List.mem_replicate.2 ⟨t.isPointer.ne', rfl⟩
  exact ⟨List.mem_append_right _ (List.mem_append_left _ hstar),
    List.mem_append_right _ (List.mem_append_right _ huse)⟩

/-- Trimming leaves the last star and what stands behind it. -/
theorem trim_chars (t : PointerReference) :
    ∃ front, trim t.chars = front ++ '*' :: t.use.chars := by
  obtain ⟨n, hstars⟩ := Nat.exists_eq_succ_of_ne_zero t.isPointer.ne'
  have hchars : t.chars = (t.base.toList ++ List.replicate n '*') ++ '*' :: t.use.chars := by
    simp [chars, hstars, List.replicate_succ']
  have huse : trimEnd t.use.chars = t.use.chars :=
    trimEnd_eq_self (by cases t.use <;> simp [isBlank])
  exact ⟨_, by rw [hchars, trim_append_cons (by decide), huse]⟩

/-- Stars and references leave no trace in the bare type. -/
theorem bareType_text (t : PointerReference) : bareType t.text = bareType t.base := by
  have hstars : ∀ {b : List Char}, (∀ c ∈ b, Typing.isDeclarator c) →
      baseWords (t.base.toList ++ (List.replicate t.stars '*' ++ b)) = baseWords t.base.toList :=
    fun hb => Typing.baseWords_append_declarators <| List.forall_mem_append.2
      ⟨fun c hc => List.eq_of_mem_replicate hc ▸ rfl, hb⟩
  have hbase : baseWords t.chars = baseWords t.base.toList := by
    rw [chars]
    cases t.use with
    | changed | temporary => exact hstars (by simp [Typing.isDeclarator])
    | constant =>
      have hconst : PointerUse.constant.chars = " const".toList ++ ['&'] := by decide +kernel
      rw [hconst, ← List.append_assoc, ← List.append_assoc,
        Typing.baseWords_append_declarators (by simp [Typing.isDeclarator]),
        Typing.baseWords_append_const, Typing.baseWords_append_declarators
          fun c hc => List.eq_of_mem_replicate hc ▸ rfl]
  rw [text, bareType_ofList, hbase, ← bareType_ofList, String.ofList_toList]

/-- The type is told as a reference, and as one to a temporary only if it is written so. -/
theorem classify_text (t : PointerReference) : (classify t.text).isReference ∧
    (classify t.text = .rvalueReference ↔ t.use = .temporary) := by
  obtain ⟨front, htrim⟩ := t.trim_chars
  rw [← String.toList_ofList (l := t.chars), ← text] at htrim
  have hlvalue : ∀ {f c}, trim t.text.toList = f ++ [c, '&'] → c ≠ '&' →
      (classify t.text).isReference ∧ classify t.text ≠ .rvalueReference := fun heq hc => by
    rw [Typing.classify_lvalue heq hc]
    generalize "const".toList = w
    split <;> decide
  cases huse : t.use with
  | changed =>
    rw [huse] at htrim
    have htold := hlvalue htrim (by decide)
    exact ⟨htold.1, iff_of_false htold.2 (by decide)⟩
  | constant =>
    have hconst : '*' :: PointerUse.constant.chars = "* cons".toList ++ ['t', '&'] := by
      decide +kernel
    rw [huse, hconst, ← List.append_assoc] at htrim
    have htold := hlvalue htrim (by decide)
    exact ⟨htold.1, iff_of_false htold.2 (by decide)⟩
  | temporary =>
    rw [huse, PointerUse.chars_temporary] at htrim
    rw [Typing.classify_rvalue (f := front ++ ['*']) (by simpa using htrim)]
    decide

/-- The type is seen as a pointer. -/
theorem decayedCategory_text (t : PointerReference) : decayedCategory t.text = .pointer := by
  have hstar : '*' ∈ dropEndWhile (· == '&') (trim t.text.toList) := by
    rw [text, String.toList_ofList]
    exact Typing.mem_dropEndWhile (mem_trim_of_mem (by decide) t.mem_chars.1) (by decide)
  rw [Typing.decayedCategory_eq, if_pos t.classify_text.1, Typing.referent, if_pos hstar]

end PointerReference

section NullPointers
variable {base : String} {category : Category} {flavour : Flavour} {index : Nat}

/-- Whether an expression is written as a null pointer. -/
def isNullPointer (expression : String) : Bool := expression == "nullptr" || expression == "0"

theorem isNullPointer_append (s : String) {t : String} {c : Char}
    (hlast : t.toList.getLast? = some c) (hc : c ≠ 'r' ∧ c ≠ '0') : isNullPointer (s ++ t) = false := by
  have hends : (s ++ t).toList.getLast? = some c := by
    rw [String.toList_append, List.getLast?_append, hlast]
    rfl
  rw [isNullPointer, Bool.or_eq_false_iff, beq_eq_false_iff_ne, beq_eq_false_iff_ne]
  constructor
  · intro h
    rw [h] at hends
    exact hc.1 (by simpa using hends.symm)
  · intro h
    rw [h] at hends
    exact hc.2 (by simpa using hends.symm)

theorem valueCategory_ne_pointer (base : String) : valueCategory base ≠ .pointer := by
  rw [valueCategory]
  repeat' split
  all_goals decide

/-- Of the values that are written in place, only the zero of an integer is a null pointer. -/
theorem isNullPointer_valueExpression (h : category ≠ .pointer) :
    isNullPointer (valueExpression base category flavour index) ↔
      category = .integer ∧ flavour ≠ .boundary := by
  unfold valueExpression
  dsimp only
  cases category with
  | integer =>
    cases flavour with
    | boundary => simp [isNullPointer_append _ (t := "()") (c := ')') rfl (by decide)]
    | plain | edgeCase => simp [isNullPointer]
  | floating =>
    cases flavour with
    | boundary => dsimp only; split <;> split <;> simp [isNullPointer]
    | plain | edgeCase => dsimp only; split <;> simp [isNullPointer]
  | boolean => dsimp only; split <;> simp [isNullPointer]
  | text =>
    dsimp only
    unfold textLiteral
    split
    · simp [isNullPointer_append _ (t := quote) (c := '"') rfl (by decide)]
    · simp [isNullPointer, quote]
  | pointer => exact absurd rfl h
  | void | nonConstReference | constReference | rvalueReference | custom =>
    simp [isNullPointer_append _ (t := "()") (c := ')') rfl (by decide)]

theorem isNullPointer_zeroValue {declared : String} (h : (classify declared).isReference) :
    isNullPointer (StandIn.zeroValue declared) ↔
      classify declared ≠ .nonConstReference ∧ valueCategory (bareType declared) = .integer := by
  unfold StandIn.zeroValue
  dsimp only
  cases hkind : classify declared with
  | nonConstReference =>
    rw [isNullPointer_append _ (t := Artifact.rightBrace) (c := '}') rfl (by decide)]
    simp
  | constReference | rvalueReference =>
    cases valueCategory (bareType declared) with
    | integer | floating | boolean | text => simp [isNullPointer]
    | void | pointer | nonConstReference | constReference | rvalueReference | custom =>
      simp [isNullPointer_append _ (t := "()") (c := ')') rfl (by decide)]
  | void | pointer | integer | floating | boolean | text | custom =>
    rw [hkind] at h
    cases h

end NullPointers

section References
variable {names : StandInNames} {parameter : Parameter} {t : PointerReference}

theorem plainVariable_keeps (base name : String) (flavour : Flavour) (index : Nat)
    (isConst : Bool) :
    (plainVariable base name flavour index isConst).type =
      (if isConst then "const " else "") ++ base ∧
    (plainVariable base name flavour index isConst).name = name := by
  unfold plainVariable
  dsimp only
  split
  · exact ⟨rfl, rfl⟩
  · split <;> exact ⟨rfl, rfl⟩

/-- Without a stand-in, a reference that is no temporary takes a local of its bare type. -/
theorem contribution_lvalue (hkind : classify parameter.declaredType = .nonConstReference ∨
      classify parameter.declaredType = .constReference)
    (hnone : standInFor? names (bareType parameter.declaredType) = none) (flavour : Flavour)
    (index slot : Nat) :
    ∃ name isConst, contribution names parameter flavour index slot =
      ⟨some (plainVariable (bareType parameter.declaredType) name flavour index isConst).text,
        name, none⟩ := by
  unfold contribution
  simp only [classify_trimString, bareType_trimString, hnone]
  rcases hkind with hkind | hkind
  · exact ⟨"arg" ++ toString slot, false, by rw [hkind, text_plainVariable]; rfl⟩
  · exact ⟨"param" ++ toString slot, true, by rw [hkind, text_plainVariable]; rfl⟩

theorem contribution_rvalue (hkind : classify parameter.declaredType = .rvalueReference)
    (hnone : standInFor? names (bareType parameter.declaredType) = none) (flavour : Flavour)
    (index slot : Nat) :
    contribution names parameter flavour index slot =
      ⟨none, valueExpression (bareType parameter.declaredType)
        (valueCategory (bareType parameter.declaredType)) flavour index, none⟩ := by
  unfold contribution
  simp only [classify_trimString, bareType_trimString, hnone, hkind]
  rfl

/-- What is passed for a reference to a pointer is an object of the bare type, not a pointer: no
star is left in the type of a local, and of values in place only an integer's zero is null. -/
theorem contribution_pointerReference (parameter : Parameter)
    (htype : parameter.declaredType = t.text)
    (hnone : standInFor? names (bareType t.text) = none) (flavour : Flavour) (index slot : Nat) :
    decayedCategory t.text = .pointer ∧
    (t.use ≠ .temporary → ∃ v : Variable,
      (contribution names parameter flavour index slot).declaration = some v.text ∧
      (contribution names parameter flavour index slot).expression = v.name ∧
      (v.type = bareType t.base ∨ v.type = "const " ++ bareType t.base) ∧ '*' ∉ v.type.toList) ∧
    (t.use = .temporary →
      (contribution names parameter flavour index slot).declaration = none ∧
      (isNullPointer (contribution names parameter flavour index slot).expression ↔
        valueCategory (bareType t.base) = .integer ∧ flavour ≠ .boundary)) ∧
    (isNullPointer (StandIn.zeroValue t.text) ↔
      classify t.text ≠ .nonConstReference ∧ valueCategory (bareType t.base) = .integer) := by
  obtain ⟨hreference, htemporary⟩ := t.classify_text
  have hstar : '*' ∉ (bareType t.base).toList := Typing.not_mem_bareType t.base rfl
  have hzero := isNullPointer_zeroValue hreference
  rw [t.bareType_text] at hzero
  refine ⟨t.decayedCategory_text, fun huse => ?_, fun huse => ?_, hzero⟩
  · have hkind : classify t.text = .nonConstReference ∨ classify t.text = .constReference := by
      have hnot := mt htemporary.1 huse
      generalize classify t.text = category at hreference hnot
      cases category with
      | nonConstReference => exact .inl rfl
      | constReference => exact .inr rfl
      | rvalueReference => exact absurd rfl hnot
      | void | pointer | integer | floating | boolean | text | custom => cases hreference
    rw [← htype] at hnone hkind
    obtain ⟨name, isConst, heq⟩ := contribution_lvalue hkind hnone flavour index slot
    rw [htype, t.bareType_text] at heq
    obtain ⟨hlocal, hname⟩ := plainVariable_keeps (bareType t.base) name flavour index isConst
    rw [heq]
    refine ⟨_, rfl, hname.symm, ?_⟩
    rw [hlocal]
    cases isConst with
    | false => exact ⟨.inl (String.empty_append ..), by simpa using hstar⟩
    | true => exact ⟨.inr rfl, by simpa using hstar⟩
  · have hkind := htemporary.2 huse
    rw [← htype] at hnone hkind
    rw [contribution_rvalue hkind hnone, htype, t.bareType_text]
    dsimp only
    exact ⟨rfl, isNullPointer_valueExpression (valueCategory_ne_pointer _)⟩

/-- The zero of an integer passes for a null pointer. -/
theorem contribution_pointerReference_int :
    standInFor? .empty (bareType "int**&&") = none ∧
    isNullPointer (contribution .empty ⟨"int**&&", "p", false⟩ .edgeCase 0 0).expression := by
  have htext : "int**&&" = (PointerReference.mk "int" 2 .temporary (by decide)).text := by
    decide +kernel
  obtain ⟨-, -, hvalue, -⟩ := contribution_pointerReference
    (t := ⟨"int", 2, .temporary, by decide⟩) ⟨"int**&&", "p", false⟩ htext (standInFor?_empty _)
    .edgeCase 0 0
  exact ⟨standInFor?_empty _, (hvalue rfl).2.2 ⟨by decide +kernel, by decide⟩⟩

/-- An object of the pointee is passed for a reference to a pointer. -/
theorem contribution_passes_pointee :
    decayedCategory "Node*&&" = .pointer ∧ decayedCategory "Node*&" = .pointer ∧
    contribution .empty ⟨"Node*&&", "p", false⟩ .plain 0 0 = ⟨none, "Node()", none⟩ ∧
    contribution .empty ⟨"Node*&", "p", false⟩ .plain 0 0 = ⟨some "Node arg0;", "arg0", none⟩ := by
  decide +kernel

end References

end TestSynth.Synthesis
