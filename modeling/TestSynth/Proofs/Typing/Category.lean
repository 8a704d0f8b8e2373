import Mathlib
import TestSynth.Proofs.Text.Nesting
import TestSynth.Proofs.Text.Squeezing
import TestSynth.Typing.Category
/-!
How a type is told by its text, arguments of templates included: a star among them makes the type a
pointer, the word `const` among them makes a reference constant, and a bare type keeps of them what
is neither a declarator nor a qualifier.
-/
namespace TestSynth.Typing

open Text

section Ends
variable {a b cs pat : List Char} {p : Char → Bool} {c : Char}

theorem endsWith_append (h : pat.length = b.length) : endsWith pat (a ++ b) = (pat == b) := by
  rw [endsWith, Bool.eq_iff_iff, List.isSuffixOf_iff_suffix, beq_iff_eq]
  constructor
  · rintro ⟨front, hfront⟩
    exact (List.append_inj' hfront h).2
  · rintro rfl
    exact List.suffix_append _ _

theorem mem_dropEndWhile (h : c ∈ cs) (hc : p c = false) : c ∈ dropEndWhile p cs := by
  obtain ⟨tail, hcs, htail, -⟩ := dropEndWhile_split p cs
  rw [hcs, List.mem_append] at h
  exact h.resolve_right fun hmem => by simp [htail c hmem] at hc

end Ends

section Blanks
variable {cs : List Char} {ws : List (List Char)} {p : List Char → Bool} {c : Char}

/-- The text without its blanks. -/
def unspaced (cs : List Char) : List Char := cs.filter (!isBlank ·)

theorem flatten_words (cs : List Char) : (words cs).flatten = unspaced cs := by
  have hfields : (fields isBlank cs).flatten = unspaced cs := by
    induction cs with
    | nil => rfl
    | cons c cs ih =>
      cases hc : isBlank c with
      | true => simpa [fields_cons_of_pos hc, unspaced, hc] using ih
      | false =>
        obtain ⟨f, fs, hcut, hcons⟩ := fields_cons_of_neg cs hc
        rw [hcut] at ih
        simpa [hcons, unspaced, hc] using ih
  rw [words, List.flatten_filter_not_isEmpty, hfields]

theorem unspaced_joinWith (h : ∀ w ∈ ws, ∀ c ∈ w, isBlank c = false) :
    unspaced (joinWith [' '] ws) = ws.flatten := by
  have hself : ∀ w ∈ ws, unspaced w = w := fun w hw =>
    List.filter_eq_self.2 fun c hc => by simp [h w hw c hc]
  clear h
  induction ws with
  | nil => rfl
  | cons w ws ih =>
    rw [List.forall_mem_cons] at hself
    cases ws with
    | nil => simp [joinWith, hself.1]
    | cons v ws =>
      have hparts : ∀ a b : List Char, unspaced (a ++ [' '] ++ b) = unspaced a ++ unspaced b :=
        fun a b => by simp [unspaced, isBlank]
      rw [joinWith, hparts, hself.1, ih hself.2]
      · rfl
      · exact List.cons_ne_nil _ _

/-- Of words, only all of them make up the whole text. -/
theorem flatten_filter_eq_iff (h : ∀ w ∈ ws, w ≠ []) :
    (ws.filter p).flatten = ws.flatten ↔ ∀ w ∈ ws, p w := by
  constructor
  · intro heq
    induction ws with
    | nil => exact List.forall_mem_nil _
    | cons w ws ih =>
      rw [List.forall_mem_cons] at h ⊢
      cases hw : p w with
      | true =>
        rw [List.filter_cons_of_pos hw, List.flatten_cons, List.flatten_cons,
          List.append_cancel_left_eq] at heq
        exact ⟨rfl, ih h.2 heq⟩
      | false =>
        rw [List.filter_cons_of_neg (by simp [hw]), List.flatten_cons] at heq
        have hle := (List.filter_sublist (p := p) (l := ws)).flatten.length_le
        have hpos := List.length_pos_iff.2 h.1
        rw [heq, List.length_append] at hle
        omega
  · intro hall
    rw [List.filter_eq_self.2 hall]

/-- The last word of a text that does not end in a blank. -/
theorem words_concat (hc : isBlank c = false) (cs : List Char) :
    ∃ ws w, words (cs ++ [c]) = ws ++ [w ++ [c]] := by
  obtain ⟨tail, hsplit, htail, hlast⟩ := dropEndWhile_split (!isBlank ·) (cs ++ [c])
  have hsolid : ∀ d ∈ tail, isBlank d = false := fun d hd => by simpa using htail d hd
  obtain ⟨w, rfl⟩ : ∃ w, tail = w ++ [c] := by
    rcases List.eq_nil_or_concat' tail with rfl | ⟨w, d, rfl⟩
    · rw [List.append_nil] at hsplit
      rw [← hsplit] at hlast
      simpa [hc] using hlast c (List.getLast?_concat ..)
    · rw [← List.append_assoc] at hsplit
      obtain ⟨-, heq⟩ := List.append_inj' hsplit rfl
      exact ⟨w, by rw [List.singleton_inj.1 heq]⟩
  have hword : words (w ++ [c]) = [w ++ [c]] := words_eq_singleton (by simp) hsolid
  rcases List.eq_nil_or_concat' (dropEndWhile (!isBlank ·) (cs ++ [c])) with hnil | ⟨a, b, hb⟩
  · rw [hsplit, hnil]
    exact ⟨[], w, hword⟩
  · have hblank : isBlank b := by
      simpa using hlast b (by rw [hb]; exact List.getLast?_concat ..)
    rw [hsplit, hb, List.append_assoc, List.singleton_append, words_append_cons hblank, hword]
    exact ⟨words a, w, rfl⟩

theorem unspaced_trim (cs : List Char) : unspaced (trim cs) = unspaced cs := by
  obtain ⟨lead, tail, hcs, hlead, htail, -⟩ := trim_split cs
  have hnone : ∀ {bs : List Char}, (∀ c ∈ bs, isBlank c) → unspaced bs = [] := fun h =>
    List.filter_eq_nil_iff.2 fun c hc => by simp [h c hc]
  conv_rhs => rw [hcs]
  simp only [unspaced, List.filter_append] at hnone ⊢
  rw [hnone hlead, hnone htail, List.nil_append, List.append_nil]

end Blanks

section Bases
variable {cs : List Char} {base declared : String} {c : Char}

/-- The text with a space for every declarator. -/
def blanked (cs : List Char) : List Char := cs.map fun c => if isDeclarator c then ' ' else c

def isQualifier (w : List Char) : Bool := qualifiers.contains (String.ofList w)

/-- The words that a bare type is made of. -/
def baseWords (cs : List Char) : List (List Char) := (words (blanked cs)).filter (!isQualifier ·)

theorem bareType_ofList (cs : List Char) :
    bareType (String.ofList cs) = String.ofList (joinWith [' '] (baseWords cs)) := by
  rw [bareType, String.toList_ofList]
  rfl

theorem unspaced_bareType (cs : List Char) :
    unspaced (bareType (String.ofList cs)).toList = (baseWords cs).flatten := by
  rw [bareType_ofList, String.toList_ofList]
  exact unspaced_joinWith fun w hw => (solid_of_mem_words (List.mem_of_mem_filter hw)).2

theorem isWord_of_isQualifier {w : List Char} (h : isQualifier w) (hc : c ∈ w) : isWord c := by
  have hwords : qualifiers.all (·.toList.all isWord) := by decide +kernel
  have hmem := List.all_eq_true.1 hwords _ (List.contains_iff_mem.1 h)
  rw [String.toList_ofList] at hmem
  exact List.all_eq_true.1 hmem c hc

theorem isBlank_of_isDeclarator (h : isDeclarator c) : isBlank c = false := by
  rw [isDeclarator, Bool.or_eq_true, beq_iff_eq, beq_iff_eq] at h
  rcases h with rfl | rfl <;> decide

theorem unspaced_blanked (cs : List Char) :
    unspaced (blanked cs) = (unspaced cs).filter (!isDeclarator ·) := by
  induction cs with
  | nil => rfl
  | cons c cs ih =>
    rw [blanked, List.map_cons, ← blanked]
    cases hc : isDeclarator c with
    | true => simpa [unspaced, hc, isBlank_of_isDeclarator hc, isBlank] using ih
    | false => cases hblank : isBlank c <;> simpa [unspaced, hc, hblank] using ih

theorem blanked_eq_self (h : ∀ c ∈ cs, isDeclarator c = false) : blanked cs = cs :=
  (List.map_congr_left fun c hc => if_neg (by simp [h c hc])).trans (List.map_id _)

/-- Declarators behind a text add no word to the bare type. -/
theorem baseWords_append_declarators {b : List Char} (hb : ∀ c ∈ b, isDeclarator c) :
    baseWords (cs ++ b) = baseWords cs := by
  have hblanks : ∀ c ∈ blanked b, isBlank c := by
    simp only [blanked, List.forall_mem_map]
    exact fun c hc => by simp [hb c hc]
  rw [baseWords, blanked, List.map_append, ← blanked, ← blanked, words_append_blanks hblanks,
    baseWords]

theorem isQualifier_const : isQualifier "const".toList = true := by decide +kernel

theorem baseWords_append_const (cs : List Char) :
    baseWords (cs ++ " const".toList) = baseWords cs := by
  have hwords : words (blanked (cs ++ " const".toList)) =
      words (blanked cs) ++ ["const".toList] := by
    rw [blanked, List.map_append, ← blanked]
    exact words_append_cons rfl
  rw [baseWords, hwords, List.filter_append,
    List.filter_cons_of_neg (by rw [isQualifier_const]; decide), List.filter_nil, List.append_nil,
    baseWords]

theorem not_mem_bareType (declared : String) (h : isDeclarator c) :
    c ∉ (bareType declared).toList := by
  intro hmem
  have hsolid : c ∈ unspaced (bareType declared).toList :=
    List.mem_filter.2 ⟨hmem, by simp [isBlank_of_isDeclarator h]⟩
  rw [← String.ofList_toList (s := declared), unspaced_bareType] at hsolid
  have hkept := List.filter_sublist.flatten.mem hsolid
  rw [flatten_words, unspaced_blanked] at hkept
  simpa [h] using (List.mem_filter.1 hkept).2

/-- A bare type is the whole text up to blanks if nothing of the text is left out. -/
theorem flatten_baseWords_eq_iff (cs : List Char) : (baseWords cs).flatten = unspaced cs ↔
    (∀ c ∈ cs, isDeclarator c = false) ∧ ∀ w ∈ words cs, isQualifier w = false := by
  have hkept : (baseWords cs).flatten.Sublist (unspaced (blanked cs)) := by
    rw [← flatten_words]
    exact List.filter_sublist.flatten
  have hmasked : (unspaced (blanked cs)).Sublist (unspaced cs) := by
    rw [unspaced_blanked]
    exact List.filter_sublist
  have hwords : ∀ {p : List Char → Bool}, ((words cs).filter p).flatten = unspaced cs ↔
      ∀ w ∈ words cs, p w := fun {p} => by
    rw [← flatten_words]
    exact flatten_filter_eq_iff fun w hw => (solid_of_mem_words hw).1
  constructor
  · intro heq
    have hdeclarators : ∀ c ∈ cs, isDeclarator c = false := fun c hc => by
      have hall := hmasked.antisymm (heq ▸ hkept)
      rw [unspaced_blanked, List.filter_eq_self] at hall
      cases hdeclares : isDeclarator c with
      | false => rfl
      | true =>
        have := hall c (List.mem_filter.2 ⟨hc, by simp [isBlank_of_isDeclarator hdeclares]⟩)
        simp [hdeclares] at this
    rw [baseWords, blanked_eq_self hdeclarators, hwords] at heq
    exact ⟨hdeclarators, by simpa using heq⟩
  · rintro ⟨hdeclarators, hqualifiers⟩
    rw [baseWords, blanked_eq_self hdeclarators, hwords]
    simpa using hqualifiers

/-- A text with a character that no spelling of a character pointer has. -/
theorem isCharacterPointer_eq_false (hc : c ∈ declared.toList) (hsolid : isBlank c = false)
    (hnone : ∀ s ∈ characterPointers, c ∉ s.toList) : isCharacterPointer declared = false := by
  rw [isCharacterPointer, flatten_words, Bool.eq_false_iff]
  intro hmem
  have hnot := hnone _ (List.contains_iff_mem.1 hmem)
  rw [String.toList_ofList] at hnot
  exact hnot (List.mem_filter.2 ⟨hc, by simp [hsolid]⟩)

/-- The last character of a name belongs to its last part, blanks and colons apart. -/
theorem mem_unqualified (hsolid : (unspaced base.toList).getLast? = some c) (hc : c ≠ ':') :
    c ∈ (unqualified base).toList := by
  rw [unqualified]
  cases hcut : cutAtLast [':', ':'] base.toList with
  | none => exact (List.mem_filter.1 (List.mem_of_getLast? hsolid)).1
  | some cut =>
    rw [String.toList_ofList]
    rw [cutAtLast_eq_append hcut, unspaced, List.filter_append] at hsolid
    rcases List.eq_nil_or_concat' (unspaced cut.2) with hnil | ⟨a, d, hd⟩
    · rw [unspaced] at hnil
      rw [hnil, List.append_nil, List.filter_append] at hsolid
      have : ':' = c := by simpa [isBlank] using hsolid
      exact absurd this.symm hc
    · rw [unspaced] at hd
      rw [hd, ← List.append_assoc, List.getLast?_concat] at hsolid
      have hmem : d ∈ cut.2.filter (!isBlank ·) := hd ▸ List.mem_append_right _ List.mem_cons_self
      exact Option.some.inj hsolid ▸ (List.mem_filter.1 hmem).1

/-- A base that holds an opening angle and ends in a closing one is no type that is known. -/
theorem valueCategory_eq_custom (hopen : '<' ∈ base.toList)
    (hclose : (unspaced base.toList).getLast? = some '>') : valueCategory base = .custom := by
  have hopen' : '<' ∈ (trimString base).toList := by
    rw [trimString, String.toList_ofList]
    exact mem_trim_of_mem (by decide) hopen
  have hclose' : (unspaced (trimString base).toList).getLast? = some '>' := by
    rw [trimString, String.toList_ofList, unspaced_trim, hclose]
  rw [valueCategory]
  generalize trimString base = text at hopen' hclose'
  have hne : ∀ s : String, '<' ∉ s.toList → (text == s) = false := fun s hs =>
    beq_eq_false_iff_ne.2 fun heq => hs (heq ▸ hopen')
  have hempty : text.isEmpty = false := by
    rw [String.isEmpty_eq_false_iff]
    rintro rfl
    cases hopen'
  have htexts : text ∉ textTypes := fun hmem =>
    (by decide +kernel : ∀ s ∈ textTypes, '<' ∉ s.toList) text hmem hopen'
  have haliases : unqualified text ∉ integerAliases := fun hmem =>
    (by decide +kernel : ∀ s ∈ integerAliases, '>' ∉ s.toList) _ hmem
      (mem_unqualified hclose' (by decide))
  have hwords : ¬ ∀ w ∈ words text.toList, String.ofList w ∈ integerWords := fun hall => by
    have hmem : '<' ∈ (words text.toList).flatten := by
      rw [flatten_words]
      exact List.mem_filter.2 ⟨hopen', by decide⟩
    obtain ⟨w, hw, hmem⟩ := List.mem_flatten.1 hmem
    refine (by decide +kernel : ∀ s ∈ integerWords, '<' ∉ s.toList) _ (hall w hw) ?_
    rwa [String.toList_ofList]
  simp [hne, hempty, htexts, haliases, hwords]

/-- A text that ends in ampersands spells no character pointer. -/
theorem isCharacterPointer_reference {f : List Char}
    (htrim : trim declared.toList = f ++ ['&']) :
    isCharacterPointer (trimString declared) = false := by
  refine isCharacterPointer_eq_false (c := '&') ?_ (by decide) (by decide +kernel)
  rw [trimString, String.toList_ofList, htrim]
  exact List.mem_append_right _ List.mem_cons_self

theorem classify_rvalue {f : List Char} (htrim : trim declared.toList = f ++ ['&', '&']) :
    classify declared = .rvalueReference := by
  have hends : endsWith ['&', '&'] (trim declared.toList) = true := by
    rw [htrim, endsWith_append rfl]
    rfl
  rw [List.append_cons] at htrim
  rw [classify]
  simp only [isCharacterPointer_reference htrim]
  rw [trimString, String.toList_ofList, hends]
  rfl

theorem classify_lvalue {f : List Char} (htrim : trim declared.toList = f ++ [c, '&'])
    (hc : c ≠ '&') : classify declared =
      if "const".toList ∈ tokens (trim declared.toList) then .constReference
      else .nonConstReference := by
  have hends : endsWith ['&', '&'] (trim declared.toList) = false := by
    have hlast : (['&', '&'] == [c, '&']) = false := by simpa using hc.symm
    rw [htrim, ← hlast]
    exact endsWith_append rfl
  rw [List.append_cons] at htrim
  have hends' : endsWith ['&'] (trim declared.toList) = true := by
    rw [htrim, endsWith_append rfl]
    rfl
  rw [classify]
  simp only [isCharacterPointer_reference htrim]
  generalize "const".toList = w
  rw [trimString, String.toList_ofList, hends, hends']
  simp

def Category.isReference : Category → Bool
  | .constReference | .nonConstReference | .rvalueReference => true
  | _ => false

/-- The kind of what a type refers to. -/
def referent (cs : List Char) : Category :=
  if '*' ∈ cs then .pointer else valueCategory (bareType (String.ofList cs))

/-- Only a reference is seen through. -/
theorem decayedCategory_eq (declared : String) : decayedCategory declared =
    if (classify declared).isReference
    then referent (dropEndWhile (· == '&') (trim declared.toList)) else classify declared := by
  rw [decayedCategory, referent]
  cases classify declared <;> simp [Category.isReference]

end Bases

section TemplateArguments
variable {a b cs w : List Char}

/-- What follows an identifier adds none if it holds no character of one. -/
theorem mem_tokens_append (hb : ∀ c ∈ b, isWord c = false) (hw : w ≠ []) :
    w ∈ tokens (a ++ b) ↔ w ∈ tokens a := by
  induction b generalizing a with
  | nil => simp
  | cons c b ih =>
    rw [List.forall_mem_cons] at hb
    have hnone : w ∉ tokens b := by
      rw [← List.nil_append b, ih hb.2]
      simpa [tokens, fields] using hw
    rw [tokens, fields_append_cons (by simp [hb.1]), List.mem_append]
    exact or_iff_left hnone

/-- How a type refers to another. -/
inductive Reference where
  | none
  | lvalue
  | rvalue
deriving DecidableEq, Repr

def Reference.chars : Reference → List Char
  | none => []
  | lvalue => ['&']
  | rvalue => ['&', '&']

/-- A template applied to arguments of any text, constant or not, with stars behind it and at most
one reference. -/
structure Applied where
  isConst : Bool
  name : List Char
  arguments : List Char
  stars : Nat
  reference : Reference

namespace Applied

/-- The template with its arguments. -/
def core (t : Applied) : List Char := t.name ++ '<' :: (t.arguments ++ ['>'])

/-- The type that is referred to. -/
def front (t : Applied) : List Char :=
  (if t.isConst then "const ".toList else []) ++ (t.core ++ List.replicate t.stars '*')

def chars (t : Applied) : List Char := t.front ++ t.reference.chars

def text (t : Applied) : String := String.ofList t.chars

/-- What the declarators outside the arguments make of the type that is referred to. -/
def kind (t : Applied) : Category := if 0 < t.stars then .pointer else .custom

/-- What the declarators and the qualifier outside the arguments make of the type. -/
def category (t : Applied) : Category :=
  match t.reference with
  | .none => t.kind
  | .lvalue => if t.isConst then .constReference else .nonConstReference
  | .rvalue => .rvalueReference

variable {t : Applied}

theorem mem_core (t : Applied) : '<' ∈ t.core := by simp [core]

theorem front_lead (t : Applied) :
    ∃ lead, t.front = lead ++ (t.core ++ List.replicate t.stars '*') ∧ '*' ∉ lead :=
  ⟨_, rfl, by cases t.isConst <;> decide +kernel⟩

theorem mem_chars (t : Applied) : '<' ∈ t.chars := by
  obtain ⟨lead, hfront, -⟩ := t.front_lead
  simp [chars, hfront, t.mem_core]

theorem front_eq (t : Applied) : ∃ f c, t.front = f ++ [c] ∧ (c = '>' ∨ c = '*') := by
  obtain ⟨lead, hfront, -⟩ := t.front_lead
  cases hstars : t.stars with
  | zero =>
    exact ⟨lead ++ (t.name ++ '<' :: t.arguments), '>', by simp [hfront, core, hstars], .inl rfl⟩
  | succ n =>
    exact ⟨lead ++ (t.core ++ List.replicate n '*'), '*',
      by simp [hfront, hstars, List.replicate_succ'], .inr rfl⟩

theorem mem_front_iff (h : QualifiedName t.name) :
    '*' ∈ t.front ↔ 0 < t.stars ∨ '*' ∈ t.arguments := by
  obtain ⟨lead, hfront, hlead⟩ := t.front_lead
  have hname := h.not_mem (c := '*') (by decide) (by decide)
  simp [hfront, core, hlead, hname, Nat.pos_iff_ne_zero, or_comm]

theorem trim_chars (h : QualifiedName t.name) : trim t.chars = t.chars := by
  have hhead : ∀ c ∈ t.chars.head?, isBlank c = false := by
    obtain ⟨c, rest, hname, hc⟩ := h.starts
    have hsolid := isBlank_of_isWord (isWord_of_isWordStart hc)
    cases hconst : t.isConst with
    | true => simp [chars, front, hconst, isBlank]
    | false => simp [chars, front, core, hname, hconst, hsolid]
  have hlast : ∀ c ∈ t.chars.getLast?, isBlank c = false := by
    obtain ⟨f, c, hfront, hc⟩ := t.front_eq
    rw [chars, hfront]
    cases t.reference with
    | none => rcases hc with rfl | rfl <;> simp [Reference.chars, isBlank]
    | lvalue | rvalue => simp [Reference.chars, isBlank]
  rw [trim, trimStart_eq_self hhead, trimEnd_eq_self hlast]

theorem trimString_text (h : QualifiedName t.name) : trimString t.text = t.text := by
  rw [trimString, text, String.toList_ofList, trim_chars h]

/-- Declarators outside the arguments and the leading qualifier leave no word in the bare type. -/
theorem baseWords_eq (t : Applied) {b : List Char} (hb : ∀ c ∈ b, isDeclarator c) :
    baseWords (t.front ++ b) = baseWords t.core := by
  have hcore : baseWords (t.core ++ (List.replicate t.stars '*' ++ b)) = baseWords t.core :=
    baseWords_append_declarators <| List.forall_mem_append.2
      ⟨fun c hc => List.eq_of_mem_replicate hc ▸ rfl, hb⟩
  rw [front, List.append_assoc, List.append_assoc]
  cases t.isConst with
  | false => exact hcore
  | true =>
    have hwords :
        words (blanked ("const ".toList ++ (t.core ++ (List.replicate t.stars '*' ++ b)))) =
          "const".toList :: words (blanked (t.core ++ (List.replicate t.stars '*' ++ b))) :=
      words_word_append (w := "const".toList) (by simp) (by simp [isBlank]) rfl
    rw [if_pos rfl, baseWords, hwords, List.filter_cons_of_neg (by rw [isQualifier_const]; decide)]
    exact hcore

/-- A bare type keeps the angles of the template, as no qualifier has them in it. -/
theorem valueCategory_bareType (t : Applied) (h : baseWords cs = baseWords t.core) :
    valueCategory (bareType (String.ofList cs)) = .custom := by
  have hkept : ∀ {w c}, c ∈ w → isWord c = false → isQualifier w = false := fun hc hword =>
    Bool.eq_false_iff.2 fun hqualifier => by
      simpa [hword] using isWord_of_isQualifier hqualifier hc
  have hopen : '<' ∈ unspaced (bareType (String.ofList cs)).toList := by
    rw [unspaced_bareType, h]
    have hmem : '<' ∈ (words (blanked t.core)).flatten := by
      rw [flatten_words, unspaced_blanked]
      exact List.mem_filter.2 ⟨List.mem_filter.2 ⟨t.mem_core, by decide⟩, by decide⟩
    obtain ⟨w, hw, hmem⟩ := List.mem_flatten.1 hmem
    exact List.mem_flatten.2 ⟨w, List.mem_filter.2 ⟨hw, by simp [hkept hmem (by decide)]⟩, hmem⟩
  refine valueCategory_eq_custom (List.mem_filter.1 hopen).1 ?_
  have hcore : blanked t.core = blanked (t.name ++ '<' :: t.arguments) ++ ['>'] := by
    simp [blanked, core, isDeclarator]
  obtain ⟨ws, w, hwords⟩ := words_concat (c := '>') (by decide)
    (blanked (t.name ++ '<' :: t.arguments))
  have hlast : isQualifier (w ++ ['>']) = false :=
    hkept (List.mem_append_right _ List.mem_cons_self) (by decide)
  rw [unspaced_bareType, h, baseWords, hcore, hwords, List.filter_append]
  simp [hlast]

theorem const_mem_tokens (t : Applied) : "const".toList ∈ tokens (t.front ++ ['&']) ↔
    t.isConst ∨ "const".toList ∈ tokens t.core := by
  have hmarks : ∀ c ∈ List.replicate t.stars '*' ++ ['&'], isWord c = false :=
    List.forall_mem_append.2 ⟨fun c hc => List.eq_of_mem_replicate hc ▸ rfl, by simp [isWord]⟩
  rw [front, List.append_assoc, List.append_assoc]
  cases t.isConst with
  | false => simp [mem_tokens_append hmarks]
  | true =>
    have hlead := mem_tokens (a := []) (w := "const".toList)
      (b := ' ' :: (t.core ++ (List.replicate t.stars '*' ++ ['&']))) (by simp) (by simp [isWord])
      (by simp [isWord])
    simpa using hlead

theorem isDeclarator_reference (r : Reference) : ∀ c ∈ r.chars, isDeclarator c := by
  cases r <;> simp [Reference.chars, isDeclarator]

theorem isCharacterPointer_text (t : Applied) : isCharacterPointer t.text = false :=
  isCharacterPointer_eq_false (c := '<') (by rw [text, String.toList_ofList]; exact t.mem_chars)
    (by decide) (by decide +kernel)

/-- What a type is told as: what stands outside the arguments decides, but for a star or the word
`const` within them. -/
theorem classify_text (h : QualifiedName t.name) : classify t.text =
    if t.reference = .none ∧ '*' ∈ t.arguments then .pointer
    else if t.reference = .lvalue ∧ "const".toList ∈ tokens t.core then .constReference
    else t.category := by
  obtain ⟨f, c, hfront, hc⟩ := t.front_eq
  have hand : c ≠ '&' := by rcases hc with rfl | rfl <;> decide
  have htrim : trim t.text.toList = t.front ++ t.reference.chars := by
    rw [text, String.toList_ofList, trim_chars h, chars]
  rw [category, kind]
  cases hreference : t.reference with
  | none =>
    have hbase : valueCategory (bareType t.text) = .custom :=
      valueCategory_bareType t (baseWords_eq t (isDeclarator_reference _))
    have hends : ∀ pat, pat.getLast? = some '&' → endsWith pat t.front = false := fun pat hpat =>
      Bool.eq_false_iff.2 fun hends => by
        obtain ⟨p, hp⟩ := List.isSuffixOf_iff_suffix.1 hends
        have hlast := congrArg List.getLast? hp
        rw [hfront, List.getLast?_append, hpat, List.getLast?_concat] at hlast
        exact hand (Option.some.inj hlast).symm
    rw [hreference, Reference.chars, List.append_nil, text, String.toList_ofList,
      trim_chars h] at htrim
    rw [classify]
    simp only [trimString_text h, t.isCharacterPointer_text, hbase]
    generalize "const".toList = w
    rw [text, String.toList_ofList, htrim, hends ['&', '&'] rfl, hends ['&'] rfl]
    by_cases hstar : '*' ∈ t.arguments <;> simp [mem_front_iff h, hstar]
  | lvalue =>
    rw [hreference, Reference.chars] at htrim
    rw [classify_lvalue (f := f) (by simpa [hfront] using htrim) hand, htrim]
    have hconst := t.const_mem_tokens
    generalize "const".toList = w at hconst ⊢
    by_cases hcore : w ∈ tokens t.core <;> simp [hconst, hcore]
  | rvalue =>
    rw [hreference, Reference.chars] at htrim
    rw [classify_rvalue htrim]
    simp

theorem decayedCategory_text (h : QualifiedName t.name) :
    decayedCategory t.text = if '*' ∈ t.arguments then .pointer else t.kind := by
  have hfront : dropEndWhile (· == '&') t.chars = t.front := by
    obtain ⟨f, c, hfront, hc⟩ := t.front_eq
    refine dropEndWhile_append ?_ (by cases t.reference <;> simp [Reference.chars])
    rw [hfront]
    rcases hc with rfl | rfl <;> simp
  have hbase : valueCategory (bareType (String.ofList t.front)) = .custom :=
    valueCategory_bareType t (List.append_nil t.front ▸ baseWords_eq t (List.forall_mem_nil _))
  have hreferent : referent t.front = if '*' ∈ t.arguments then .pointer else t.kind := by
    rw [referent, hbase, kind]
    by_cases hstar : '*' ∈ t.arguments <;> simp [mem_front_iff h, hstar]
  rw [decayedCategory_eq, classify_text h]
  generalize "const".toList = w
  rw [text, String.toList_ofList, trim_chars h, hfront, hreferent, category, kind]
  cases t.reference with
  | none =>
    by_cases hstar : '*' ∈ t.arguments <;> by_cases hstars : 0 < t.stars <;>
      simp [hstar, hstars, Category.isReference]
  | lvalue =>
    by_cases hcore : w ∈ tokens t.core <;> cases t.isConst <;> simp [hcore, Category.isReference]
  | rvalue => simp [Category.isReference]

/-- What a type with template arguments is told as. Of its arguments, a star makes a pointer of what
is no reference, the word `const` makes a reference to a variable one to a constant, and either of
them or an ampersand is lost from the bare type. -/
theorem classify_applied (h : QualifiedName t.name) :
    (classify t.text =
      if t.reference = .none ∧ '*' ∈ t.arguments then .pointer
      else if t.reference = .lvalue ∧ "const".toList ∈ tokens t.core then .constReference
      else t.category) ∧
    decayedCategory t.text = (if '*' ∈ t.arguments then .pointer else t.kind) ∧
    (unspaced (bareType t.text).toList = unspaced t.core ↔
      '*' ∉ t.arguments ∧ '&' ∉ t.arguments ∧ ∀ w ∈ words t.core, isQualifier w = false) := by
  refine ⟨classify_text h, decayedCategory_text h, ?_⟩
  have hdeclarators : (∀ c ∈ t.core, isDeclarator c = false) ↔
      '*' ∉ t.arguments ∧ '&' ∉ t.arguments := by
    have hname : ∀ c ∈ t.name, isDeclarator c = false := fun c hc => by
      rcases h.isWord_or_colon c hc with hword | rfl
      · rw [isDeclarator, Bool.or_eq_false_iff, beq_eq_false_iff_ne, beq_eq_false_iff_ne]
        exact ⟨ne_of_holds hword (by decide), ne_of_holds hword (by decide)⟩
      · decide
    have hcore : t.core = t.name ++ ('<' :: t.arguments) ++ ['>'] := by simp [core]
    simp only [hcore, List.forall_mem_append, List.forall_mem_cons]
    constructor
    · rintro ⟨⟨-, -, harguments⟩, -⟩
      exact ⟨fun hstar => by simpa [isDeclarator] using harguments _ hstar,
        fun hmark => by simpa [isDeclarator] using harguments _ hmark⟩
    · rintro ⟨hstar, hmark⟩
      have harguments : ∀ c ∈ t.arguments, isDeclarator c = false := fun c hc => by
        rw [isDeclarator, Bool.or_eq_false_iff, beq_eq_false_iff_ne, beq_eq_false_iff_ne]
        exact ⟨fun heq => hstar (heq ▸ hc), fun heq => hmark (heq ▸ hc)⟩
      exact ⟨⟨hname, rfl, harguments⟩, rfl, List.forall_mem_nil _⟩
  rw [text, unspaced_bareType, chars, baseWords_eq t (isDeclarator_reference _),
    flatten_baseWords_eq_iff, hdeclarators, and_assoc]

theorem qualifiedName_vector : QualifiedName "std::vector".toList :=
  ⟨["std".toList, "vector".toList], by simp, by simp [isIdentifier, isWordStart, isWord],
    by simp [joinWith]⟩

theorem classify_applied_vector : QualifiedName "std::vector".toList ∧
    classify "const std::vector<int>&" = .constReference ∧
    decayedCategory "const std::vector<int>&" = .custom ∧
    unspaced (bareType "const std::vector<int>&").toList = "std::vector<int>".toList := by
  have htext : "const std::vector<int>&" =
      text ⟨true, "std::vector".toList, "int".toList, 0, .lvalue⟩ := by decide +kernel
  obtain ⟨htold, hseen, hbare⟩ := classify_applied
    (t := ⟨true, "std::vector".toList, "int".toList, 0, .lvalue⟩) qualifiedName_vector
  rw [htext, htold, hseen]
  exact ⟨qualifiedName_vector, by decide +kernel, by decide +kernel, hbare.2 (by decide +kernel)⟩

/-- A container of pointers is told as a pointer. -/
theorem classify_sees_argument : ∃ t : Applied,
    QualifiedName t.name ∧ t.text = "std::vector<int*>" ∧
    classify t.text ≠ t.category ∧ decayedCategory t.text ≠ t.kind ∧
    unspaced (bareType t.text).toList ≠ unspaced t.core :=
  ⟨⟨false, "std::vector".toList, "int*".toList, 0, .none⟩, qualifiedName_vector,
    by decide +kernel, by decide +kernel, by decide +kernel, by decide +kernel⟩

end Applied

end TemplateArguments

end TestSynth.Typing
