import Mathlib
import TestSynth.Declaration.Basic
import TestSynth.Proofs.Declaration.Spelling
import TestSynth.Proofs.Declaration.TypeSyntax
/-!
What printed parameters and variables are read as: they give back the types and names that they
were printed from.
-/
namespace TestSynth.Declaration

open Text

/-- A type and the name declared with it: a parameter, a variable or the head of a function. -/
structure Declared where
  type : TypeSyntax .whole
  name : Name

namespace Declared

def chars (d : Declared) : List Char := d.type.chars ++ ' ' :: d.name.text.toList

def parameter (d : Declared) : Parameter := ⟨d.type.text, d.name.text, false⟩

end Declared

section Cuts
variable {a cs : List Char}

theorem cutAtAssign_eq_none {depth : Nat} {previous : Option Char} (h : '=' ∉ cs) :
    cutAtAssign depth previous cs = none := by
  induction cs generalizing depth previous with
  | nil => rfl
  | cons c cs ih =>
    rw [List.mem_cons, not_or] at h
    simp [cutAtAssign, Ne.symm h.1, ih h.2]

theorem stripAttributes_go_eq {m n : Nat} (hm : cs.length ≤ m) (hn : cs.length ≤ n) :
    stripAttributes.go m cs = stripAttributes.go n cs := by
  induction m generalizing n cs with
  | zero =>
    rw [List.length_eq_zero_iff.1 (Nat.le_zero.1 hm)]
    cases n <;> rfl
  | succ m ih =>
    cases n with
    | zero =>
      rw [List.length_eq_zero_iff.1 (Nat.le_zero.1 hn)]
      rfl
    | succ n =>
      rw [stripAttributes.go, stripAttributes.go]
      cases hopen : cutAt ['[', '['] cs with
      | none => rfl
      | some cut =>
        obtain ⟨before, after⟩ := cut
        cases hclose : cutAt [']', ']'] after with
        | none => simp only [hclose]
        | some cut =>
          obtain ⟨inside, rest⟩ := cut
          have hshort := cutAt_length hopen
          have hshorter := cutAt_length hclose
          simp only [List.length_cons, List.length_nil] at hshort hshorter
          simp only [hclose]
          apply ih <;> (simp only [List.length_append, List.length_cons]; omega)

theorem stripAttributes_go_append (h : '[' ∉ a) (n : Nat) (cs : List Char) :
    stripAttributes.go n (a ++ cs) = a ++ stripAttributes.go n cs := by
  induction n generalizing cs with
  | zero => rfl
  | succ n ih =>
    rw [stripAttributes.go, stripAttributes.go, cutAt_append h]
    cases cutAt ['[', '['] cs with
    | none => rfl
    | some cut =>
      obtain ⟨before, after⟩ := cut
      simp only [Option.map_some]
      cases cutAt [']', ']'] after with
      | none => rfl
      | some cut => simp only [List.append_assoc, ih]

theorem stripAttributes_append (h : '[' ∉ a) (cs : List Char) :
    stripAttributes (a ++ cs) = a ++ stripAttributes cs := by
  rw [stripAttributes, stripAttributes_go_append h, stripAttributes,
    stripAttributes_go_eq (by simp) le_rfl]

theorem stripAttributes_eq_self (h : '[' ∉ cs) : stripAttributes cs = cs := by
  simpa [stripAttributes, stripAttributes.go] using stripAttributes_append h []

end Cuts

section Modifiers
variable {w cs : List Char}

theorem isWord_of_isUpper {c : Char} (h : c.isUpper) : isWord c := by
  simp [isWord, Char.isAlphanum, Char.isAlpha, h]

theorem isReserved_of_isModifier (h : isModifier w) : isReserved w ∧ ∀ c ∈ w, isWord c := by
  refine ⟨by simp [isReserved, h], ?_⟩
  simp only [isModifier, Bool.or_eq_true, List.contains_iff_mem] at h
  rcases h with h | h
  · have hall : ∀ s ∈ modifiers, ∀ c ∈ s.toList, isWord c := by
      simp [modifiers, isWord]
    simpa using hall _ h
  · simp only [isExportMacro, Bool.and_eq_true, List.all_eq_true, Bool.or_eq_true] at h
    intro c hc
    rcases h.1.2 c hc with (h | h) | h
    · exact isWord_of_isUpper h
    · simp [isWord, Char.isAlphanum, h]
    · simp [isWord, h]

theorem Unreserved.filter_modifiers (h : Unreserved cs) :
    (words cs).filter (!isModifier ·) = words cs :=
  h.filter_words fun _ => isReserved_of_isModifier

end Modifiers

namespace Declared

variable (d : Declared)

theorem isTypeChar_chars : ∀ c ∈ d.chars, isTypeChar c := by
  simp only [chars, List.forall_mem_append, List.forall_mem_cons]
  exact ⟨d.type.isTypeChar_chars, by decide,
    fun c hc => isTypeChar_of_isWord (d.name.isWord_chars c hc)⟩

theorem not_mem_chars {c : Char} (h : isTypeChar c = false) : c ∉ d.chars :=
  not_mem_of_holds d.isTypeChar_chars h

theorem starts : ∃ c rest, d.chars = c :: rest ∧ isWordStart c := by
  obtain ⟨c, rest, h, hc⟩ := d.type.starts
  exact ⟨c, _, by rw [chars, h, List.cons_append], hc⟩

theorem tidy : Tidy d.chars := by
  refine d.type.tidy.spaced d.name.tidy d.type.ne_nil d.name.ne_nil (fun c hc => ?_) ?_
  · exact ne_of_holds (d.type.ends c hc) (by decide)
  · exact (TypeSyntax.name d.name.toWord).starts_apart

theorem nested : Nested false d.chars :=
  d.type.nested.append (.plain (by simp [isPlain]) d.name.nested)

theorem unreserved : Unreserved d.chars :=
  d.type.unreserved.append_cons (by decide) d.name.unreserved

theorem paired : Paired d.chars := by
  have hspace : Paired [' '] := .of_not_mem (by decide)
  exact d.type.paired.append (hspace.append d.name.paired)

/-- The name is the word at the end, and the type is what stands before the space. -/
theorem splitTypeAndName_chars : splitTypeAndName d.chars = d.parameter := by
  have hclosed : isOpen d.type.chars = false := by
    apply isOpen_of_getLast?
    intro c hc hmark
    have hend := d.type.ends c hc
    revert hend
    revert hmark
    simp only [List.mem_cons, List.not_mem_nil, or_false]
    rintro (rfl | rfl | rfl) <;> decide
  have hplain : typeWords.contains (String.ofList d.name.text.toList) = false := by
    simpa using d.name.plain
  rw [chars, splitTypeAndName_named d.type.tidy d.type.ne_nil hclosed d.name.identifier hplain]
  simp [parameter, TypeSyntax.text]

theorem parse_entry_chars : parseEntry? d.chars = some d.parameter := by
  obtain ⟨c, rest, h, hc⟩ := d.starts
  have hassign : cutAtAssign 0 none d.chars = none :=
    cutAtAssign_eq_none (d.not_mem_chars (by decide))
  unfold parseEntry?
  simp only [hassign]
  rw [h]
  simp only [hc, Bool.true_or, if_true, ← h, splitTypeAndName_chars]
  rfl

end Declared

/-- A list of parameters as it is written. -/
def listChars (ps : List Declared) : List Char := joinWith [',', ' '] (ps.map Declared.chars)

section Lists
variable (ps : List Declared)

theorem isTypeChar_listChars : ∀ c ∈ listChars ps, isTypeChar c := by
  refine forall_mem_joinWith (by simp [isTypeChar]) ?_
  simp only [List.forall_mem_map]
  exact fun d _ => d.isTypeChar_chars

theorem not_mem_listChars {c : Char} (h : isTypeChar c = false) : c ∉ listChars ps :=
  not_mem_of_holds (isTypeChar_listChars ps) h

theorem listChars_cons (d e : Declared) :
    listChars (d :: e :: ps) = d.chars ++ [','] ++ ' ' :: listChars (e :: ps) := by
  simp [listChars, joinWith]

theorem listChars_starts (d : Declared) :
    ∃ c rest, listChars (d :: ps) = c :: rest ∧ isWordStart c := by
  obtain ⟨c, rest, h, hc⟩ := d.starts
  cases ps with
  | nil => exact ⟨c, rest, h, hc⟩
  | cons e ps => exact ⟨c, _, by rw [listChars_cons, h, List.cons_append, List.cons_append], hc⟩

theorem listChars_tidy : Tidy (listChars ps) := by
  refine tidy_joinWith ?_ ?_ <;> simp only [List.forall_mem_map]
  · exact fun d _ => d.tidy
  · exact fun d _ => d.starts

theorem unreserved_listChars : Unreserved (listChars ps) := by
  induction ps with
  | nil => exact unreserved_nil
  | cons d ps ih =>
    cases ps with
    | nil => exact d.unreserved
    | cons e ps =>
      rw [listChars_cons, List.append_assoc]
      exact d.unreserved.append_cons (by decide) (unreserved_nil.append_cons (by decide) ih)

/-- The entries of a printed list, without the spaces behind its commas. -/
theorem entries_listChars (d : Declared) :
    ((splitTopLevel ',' (listChars (d :: ps))).map normalizeSpaces).filter (!·.isEmpty) =
      (d :: ps).map Declared.chars := by
  have hcut : splitTopLevel ',' (listChars (d :: ps)) =
      d.chars :: (ps.map Declared.chars).map (' ' :: ·) := by
    refine splitTopLevel_joinWith d.nested ?_
    simp only [List.forall_mem_map]
    exact fun e _ => e.nested
  have hspaced : ∀ e : Declared, normalizeSpaces (' ' :: e.chars) = e.chars := fun e => by
    rw [normalizeSpaces_cons (by decide), e.tidy.normalizeSpaces_eq]
  have hmap : (splitTopLevel ',' (listChars (d :: ps))).map normalizeSpaces =
      (d :: ps).map Declared.chars := by
    simp [hcut, d.tidy.normalizeSpaces_eq, hspaced]
  rw [hmap, List.filter_eq_self]
  simp only [List.forall_mem_map]
  intro e _
  obtain ⟨c, rest, h, -⟩ := e.starts
  simp [h]

theorem mapM_parse_entry :
    (ps.map Declared.chars).mapM parseEntry? = some (ps.map Declared.parameter) := by
  induction ps with
  | nil => rfl
  | cons d ps ih => simp [d.parse_entry_chars, ih]

/-- A printed list is cut into its entries again. -/
theorem parseParameters?_listChars :
    parseParameters? (listChars ps) = some (ps.map Declared.parameter, false) := by
  cases ps with
  | nil => rfl
  | cons d ps =>
    obtain ⟨c, rest, h, -⟩ := listChars_starts ps d
    -- A type and a name have a space between them.
    have hvoid : listChars (d :: ps) ≠ "void".toList := fun hvoid => by
      have hspace : ' ' ∈ listChars (d :: ps) := by
        cases ps <;> simp [listChars, joinWith, Declared.chars]
      rw [hvoid] at hspace
      simp at hspace
    have hdots : ∀ e ∈ (d :: ps).map Declared.chars, containsText ['.', '.', '.'] e = false := by
      simp only [List.forall_mem_map]
      intro e _
      rw [containsText, cutAt_eq_none (e.not_mem_chars (by decide))]
      rfl
    have hfilter : ((d :: ps).map Declared.chars).filter (!containsText ['.', '.', '.'] ·) =
        (d :: ps).map Declared.chars :=
      List.filter_eq_self.2 fun e he => by simp [hdots e he]
    have hany : ((d :: ps).map Declared.chars).any (containsText ['.', '.', '.'] ·) = false :=
      List.any_eq_false.2 fun e he => by simp [hdots e he]
    rw [parseParameters?, (listChars_tidy (d :: ps)).trim_eq]
    simp only [entries_listChars, hfilter, hany, mapM_parse_entry]
    rw [h] at hvoid
    simpa [h] using hvoid

end Lists

section Statements
variable {owner : Option String} {access : Access} {cs lead : List Char}

/-- A text that reading a declaration takes as it stands. -/
structure Legible (cs : List Char) : Prop where
  tidy : Tidy cs
  bracketless : '[' ∉ cs
  starts : ∃ c rest, cs = c :: rest ∧ c ≠ ',' ∧ c ≠ ':'
  firstWord : skippedWords.contains (String.ofList (cs.takeWhile isWord)) = false

theorem Unreserved.firstWord (h : Unreserved cs) :
    skippedWords.contains (String.ofList (cs.takeWhile isWord)) = false := by
  obtain ⟨fs, hfs⟩ := fields_head (!isWord ·) cs
  simp only [Bool.not_not] at hfs
  have hfree := h (cs.takeWhile isWord) (by rw [tokens, hfs]; exact List.mem_cons_self)
  simp only [isReserved, Bool.or_eq_false_iff] at hfree
  exact hfree.1.1

/-- Blanks in front are dropped, and nothing else. -/
theorem Legible.trim_eq (h : Legible cs) (hlead : ∀ c ∈ lead, isBlank c) :
    trim (stripAttributes (normalizeSpaces (lead ++ cs))) = cs := by
  rw [normalizeSpaces, words_blanks_append hlead, h.tidy.joinWith_words,
    stripAttributes_eq_self h.bracketless, h.tidy.trim_eq]

theorem Legible.dropWhile_eq (h : Legible cs) :
    trim (cs.dropWhile fun c => c == ',' || c == ':') = cs := by
  obtain ⟨c, rest, rfl, hcomma, hcolon⟩ := h.starts
  rw [List.dropWhile_cons_of_neg (by simp [hcomma, hcolon]), h.tidy.trim_eq]

theorem Legible.not_skipped (h : Legible cs) :
    (cs.isEmpty || skippedWords.contains (String.ofList (cs.takeWhile isWord))) = false := by
  obtain ⟨c, rest, rfl, -⟩ := h.starts
  rw [h.firstWord]
  rfl

theorem Declared.legible (d : Declared) : Legible d.chars where
  tidy := d.tidy
  bracketless := d.not_mem_chars (by decide)
  starts := by
    obtain ⟨c, rest, h, hc⟩ := d.starts
    exact ⟨c, rest, h, ne_of_holds hc (by decide), ne_of_holds hc (by decide)⟩
  firstWord := d.unreserved.firstWord

theorem parseVariable_chars (d : Declared) :
    parseVariable d.chars = .variable d.type.text d.name.text := by
  have hassign : cutAtAssign 0 none d.chars = none :=
    cutAtAssign_eq_none (d.not_mem_chars (by decide))
  have hcut : splitTopLevel ',' (joinWith [',', ' '] [d.chars]) = [d.chars] :=
    splitTopLevel_joinWith d.nested (by simp)
  rw [joinWith] at hcut
  have htwo : 2 ≤ (words d.chars).length := by
    have htype : words d.type.chars ≠ [] := fun h => by
      have := d.type.tidy.joinWith_words
      rw [h] at this
      exact d.type.ne_nil this.symm
    have hname : words d.name.text.toList = [d.name.text.toList] :=
      words_eq_singleton d.name.ne_nil d.name.solid
    rw [Declared.chars, words_append_cons (by decide), hname, List.length_append]
    have := List.length_pos_iff.2 htype
    simp only [List.length_singleton]
    omega
  have hfew : ¬(words d.chars).length < 2 := by omega
  have htype : d.type.text ≠ "" := by simp [TypeSyntax.text, d.type.ne_nil]
  have hname : d.name.text ≠ "" := by
    rw [ne_eq, ← String.toList_eq_nil_iff]
    exact d.name.ne_nil
  simp [parseVariable, hassign, d.paired.beforeColon_eq, hcut, d.unreserved.filter_modifiers, hfew,
    d.tidy.joinWith_words, d.splitTypeAndName_chars, Declared.parameter, htype, hname]

/-- A printed variable is read back. -/
theorem parse_variable (d : Declared) (lead : List Char) (hlead : ∀ c ∈ lead, isBlank c) :
    parse owner access (lead ++ d.chars) = .variable d.type.text d.name.text := by
  have hparen : cutAtParen 0 none d.chars = none := by
    simpa [cutAtParen] using d.nested.cutAtParen []
  rw [parse]
  simp only [d.legible.trim_eq hlead, d.legible.dropWhile_eq, d.legible.not_skipped, hparen,
    parseVariable_chars, Bool.false_eq_true, if_false]

end Statements

end TestSynth.Declaration
