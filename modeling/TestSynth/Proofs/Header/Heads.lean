import Mathlib
import TestSynth.Proofs.Header.Body
/-!
What the head of a printed class is read as: it gives back the name and the bases.
-/
namespace TestSynth.Header

open Text Declaration

section Heads
variable {cs w : List Char}

theorem length_le_byteLength (cs : List Char) : cs.length ≤ byteLength cs := by
  have key : ∀ (cs : List Char) (n : Nat),
      n + cs.length ≤ cs.foldl (fun n c => n + c.utf8Size) n := by
    intro cs
    induction cs with
    | nil => simp
    | cons c cs ih =>
      intro n
      have h := ih (n + c.utf8Size)
      have hpos := c.utf8Size_pos
      rw [List.foldl_cons, List.length_cons]
      omega
  simpa [byteLength] using key cs 0

/-- A word that marks an exported class marks exported symbols. -/
theorem isExportMacro_of_isExportWord (h : isExportWord w) : isExportMacro w := by
  simp only [isExportWord, Bool.and_eq_true, List.any_cons, List.any_nil, Bool.or_false,
    Bool.or_eq_true, decide_eq_true_eq] at h
  have hlength := length_le_byteLength w
  have hfour : "_API".length = 4 ∧ "EXPORT".length = 6 ∧ "_DLL".length = 4 := by decide
  simp only [isExportMacro, Bool.and_eq_true, Bool.or_eq_true, decide_eq_true_eq]
  refine ⟨⟨?_, h.1.2⟩, ?_⟩
  · omega
  · tauto

theorem not_isExportWord (w : Word) : isExportWord w.text.toList = false := by
  rw [Bool.eq_false_iff]
  intro h
  have hmacro := isExportMacro_of_isExportWord h
  have := w.free
  simp [isReserved, isModifier, hmacro] at this

theorem isReserved_of_isInheritanceWord (h : isInheritanceWord w) :
    isReserved w ∧ ∀ c ∈ w, isWord c := by
  simp only [isInheritanceWord, List.contains_iff_mem] at h
  have hall : ∀ s ∈ ["public", "protected", "private", "virtual"],
      isReserved s.toList ∧ ∀ c ∈ s.toList, isWord c := by
    simp only [List.forall_mem_cons]
    refine ⟨⟨by decide, ?_⟩, ⟨by decide, ?_⟩, ⟨by decide, ?_⟩, ⟨by decide, ?_⟩,
      List.forall_mem_nil _⟩ <;>
      simp [isWord]
  simpa using hall _ h

theorem nested_baseChars (b : TypeSyntax .qualified) : Nested false (baseChars b) := by
  have hpublic : Nested false "public ".toList := .of_plain (by simp [isPlain])
  exact hpublic.append b.nested

/-- The words of inheritance are left out, and the base stays. -/
theorem tidyType_base (b : TypeSyntax .qualified) :
    tidyType (joinWith [' '] ((words (baseChars b)).filter (!isInheritanceWord ·))) = b.chars := by
  have hwords : words (baseChars b) = "public".toList :: words b.chars := by
    have h : words ("public".toList ++ ' ' :: b.chars) = "public".toList :: words b.chars :=
      words_word_append (by simp) (by simp [isBlank]) (by decide)
    exact h
  have hkept : (words b.chars).filter (!isInheritanceWord ·) = words b.chars :=
    b.unreserved.filter_words fun _ => isReserved_of_isInheritanceWord
  have hpublic : isInheritanceWord "public".toList = true := by decide
  rw [hwords, List.filter_cons_of_neg (by rw [hpublic]; decide), hkept, b.tidy.joinWith_words,
    b.tidy.tidyType_eq]

/-- The list of bases is read back. -/
theorem baseNames_bases (bs : List (TypeSyntax .qualified)) :
    baseNames (joinWith [',', ' '] (bs.map baseChars)) = .ofList (bs.map TypeSyntax.text) := by
  cases bs with
  | nil => rfl
  | cons b bs =>
    have hcut : splitTopLevel ',' (joinWith [',', ' '] ((b :: bs).map baseChars)) =
        baseChars b :: (bs.map baseChars).map (' ' :: ·) := by
      refine splitTopLevel_joinWith (nested_baseChars b) ?_
      simp only [List.forall_mem_map]
      exact fun b _ => nested_baseChars b
    have hspaced : ∀ b, words (' ' :: baseChars b) = words (baseChars b) := fun b =>
      words_cons (by decide)
    have hnames : (splitTopLevel ',' (joinWith [',', ' '] ((b :: bs).map baseChars))).map
        (fun base => tidyType (joinWith [' '] ((words base).filter (!isInheritanceWord ·)))) =
        (b :: bs).map TypeSyntax.chars := by
      rw [hcut, List.map_cons, List.map_map, List.map_map, List.map_cons, tidyType_base]
      simp [Function.comp_def, hspaced, tidyType_base]
    have hkept : ((b :: bs).map TypeSyntax.chars).filter (!·.isEmpty) =
        (b :: bs).map TypeSyntax.chars := by
      rw [List.filter_eq_self]
      simp only [List.forall_mem_map]
      intro b _
      simp [b.ne_nil]
    rw [baseNames]
    simp only [hnames, hkept, List.map_map]
    rfl

theorem isTypeChar_baseChars (b : TypeSyntax .qualified) : ∀ c ∈ baseChars b, isTypeChar c := by
  have hpublic : ∀ c ∈ "public ".toList, isTypeChar c := by simp [isTypeChar, isWord]
  exact List.forall_mem_append.2 ⟨hpublic, b.isTypeChar_chars⟩

theorem isTypeChar_baseListChars (bs : List (TypeSyntax .qualified)) :
    ∀ c ∈ baseListChars bs, isTypeChar c := by
  cases bs with
  | nil => simp [baseListChars]
  | cons b bs =>
    rw [baseListChars, List.forall_mem_append]
    refine ⟨by simp [isTypeChar], forall_mem_joinWith (by simp [isTypeChar]) ?_⟩
    simp only [List.forall_mem_map]
    exact fun b _ => isTypeChar_baseChars b

theorem tidy_baseChars (b : TypeSyntax .qualified) : Tidy (baseChars b) := by
  have hpublic : Tidy "public".toList := .of_solid (by simp [isBlank])
  exact hpublic.spaced b.tidy (by simp) b.ne_nil (by simp) b.starts_apart

/-- The head of a class is tidy, also behind a base list. -/
theorem tidy_headChars (c : ClassSyntax) : Tidy c.headChars := by
  have hclass : Tidy "class".toList := .of_solid (by simp [isBlank])
  have hname : Tidy ("class".toList ++ ' ' :: c.name.text.toList) :=
    hclass.spaced c.name.tidy (by simp) c.name.ne_nil (by simp)
      (TypeSyntax.name c.name.toWord).starts_apart
  unfold ClassSyntax.headChars
  cases hbases : c.bases with
  | nil => simpa [baseListChars] using hname
  | cons b bs =>
    have hcolon : Tidy [':'] := .of_solid (by simp [isBlank])
    have hlist : Tidy (joinWith [',', ' '] ((b :: bs).map baseChars)) := by
      refine tidy_joinWith ?_ ?_ <;> simp only [List.forall_mem_map]
      · exact fun b _ => tidy_baseChars b
      · exact fun b _ => ⟨'p', _, rfl, by decide⟩
    obtain ⟨rest, hrest⟩ : ∃ rest, joinWith [',', ' '] ((b :: bs).map baseChars) = 'p' :: rest := by
      cases bs <;> exact ⟨_, rfl⟩
    have htail : Tidy ([':'] ++ ' ' :: joinWith [',', ' '] ((b :: bs).map baseChars)) :=
      hcolon.spaced hlist (by simp) (by rw [hrest]; simp) (by simp) (by rw [hrest]; simp)
    have hlast : ∀ x ∈ ("class".toList ++ ' ' :: c.name.text.toList).getLast?, x ≠ '<' := by
      intro x hx
      rw [List.getLast?_append_of_ne_nil _ (by simp),
        List.getLast?_cons_of_ne_nil c.name.ne_nil] at hx
      exact ne_of_holds (c.name.isWord_chars x (List.mem_of_getLast? hx)) (by decide)
    simpa [baseListChars] using hname.spaced htail (by simp) (by simp) hlast (by simp)

theorem afterName?_baseListChars (bs : List (TypeSyntax .qualified)) :
    afterName? (baseListChars bs) = some (.ofList (bs.map TypeSyntax.text)) := by
  cases bs with
  | nil => rfl
  | cons b bs =>
    obtain ⟨rest, hrest⟩ : ∃ rest, joinWith [',', ' '] ((b :: bs).map baseChars) = 'p' :: rest := by
      cases bs <;> exact ⟨_, rfl⟩
    have hlist : trimStart (' ' :: 'p' :: rest) = 'p' :: rest := rfl
    have hchars : baseListChars (b :: bs) = ' ' :: ':' :: ' ' :: 'p' :: rest := by
      rw [baseListChars, hrest]
      rfl
    have hstart : trimStart (' ' :: ':' :: ' ' :: 'p' :: rest) = ':' :: ' ' :: 'p' :: rest := rfl
    have hfinal : after? "final" (':' :: ' ' :: 'p' :: rest) = none := rfl
    rw [← baseNames_bases, hrest, hchars, afterName?, hstart]
    simp only [hfinal, hlist]

/-- No word character continues the name of a class. -/
theorem baseListChars_starts (bs : List (TypeSyntax .qualified)) :
    ∀ c ∈ (baseListChars bs).head?, c = ' ' := by
  cases bs with
  | nil => simp [baseListChars]
  | cons b bs =>
    intro c hc
    have hc : some ' ' = some c := hc
    exact (Option.some.inj hc).symm

/-- No marker stands in front of the name of a printed class. -/
theorem afterMarker?_name (w : Word) (bs : List (TypeSyntax .qualified)) :
    afterMarker? (w.text.toList ++ baseListChars bs) = none := by
  have hsolid : ∀ c ∈ w.text.toList, (!isBlank c) = true := fun c hc => by
    simp [w.solid c hc]
  have hname : (w.text.toList ++ baseListChars bs).takeWhile (!isBlank ·) = w.text.toList := by
    rw [takeWhile_append_of_head, List.takeWhile_eq_self_iff.2 hsolid]
    rintro c hc
    rw [baseListChars_starts bs c hc]
    decide
  have hparen : '(' ∉ w.text.toList ++ baseListChars bs := by
    rw [List.mem_append, not_or]
    refine ⟨w.not_mem (by decide), fun hmem => ?_⟩
    cases isTypeChar_baseListChars bs _ hmem
  rw [afterMarker?]
  simp only [hname, not_isExportWord, Bool.false_eq_true, if_false]
  rw [Option.bind_eq_none_iff]
  intro rest hrest
  rw [after?_eq_some_iff] at hrest
  split
  · next inside heq =>
    have hmem : '(' ∈ trimStart rest := by
      rw [heq]
      exact List.mem_cons_self
    refine absurd ?_ hparen
    rw [hrest]
    exact List.mem_append_right _ ((List.dropWhile_suffix isBlank).subset hmem)
  · rfl

theorem named?_name (w : Word) (bs : List (TypeSyntax .qualified)) :
    named? false (w.text.toList ++ baseListChars bs) =
      some ⟨false, w.text, .ofList (bs.map TypeSyntax.text)⟩ := by
  obtain ⟨c, rest, hcons, hc⟩ := w.starts
  have hname : (w.text.toList ++ baseListChars bs).takeWhile isWordAnywhere = w.text.toList := by
    rw [takeWhile_append_of_head, List.takeWhile_eq_self_iff.2]
    · exact fun c hc => isWordAnywhere_of_isWord (w.isWord_chars c hc)
    · rintro c hc
      rw [baseListChars_starts bs c hc]
      decide
  have hhead : (w.text.toList ++ baseListChars bs).head?.any isWordStart = true := by
    simp [hcons, hc]
  rw [named?, if_pos hhead, hname]
  simp only [List.drop_left, afterName?_baseListChars, Option.map_some, String.ofList_toList]

/-- The head of a printed class gives back its name and its bases. -/
theorem classHead?_headChars (c : ClassSyntax) :
    classHead? c.headChars = some c.head := by
  have hchars : c.headChars =
      "class".toList ++ ' ' :: (c.name.text.toList ++ baseListChars c.bases) := by
    unfold ClassSyntax.headChars
    simp
  have hafter : after? "class" c.headChars =
      some (' ' :: (c.name.text.toList ++ baseListChars c.bases)) :=
    after?_eq_some_iff.2 hchars
  obtain ⟨d, rest, hcons, hd⟩ := c.name.starts
  have hblanks : afterBlanks? (' ' :: (c.name.text.toList ++ baseListChars c.bases)) =
      some (c.name.text.toList ++ baseListChars c.bases) := by
    have hstart : isBlank d = false := isBlank_of_isWord (isWord_of_isWordStart hd)
    have htrim : trimStart ([' '] ++ (c.name.text.toList ++ baseListChars c.bases)) =
        c.name.text.toList ++ baseListChars c.bases :=
      trimStart_append (by simp [isBlank]) (by simp [hcons, hstart])
    exact congrArg some htrim
  have hmarkers : ∀ count,
      afterMarkers? false count (c.name.text.toList ++ baseListChars c.bases) = some c.head := by
    intro count
    cases count with
    | zero => exact named?_name c.name.toWord c.bases
    | succ count =>
      rw [afterMarkers?, afterMarker?_name c.name.toWord]
      exact named?_name c.name.toWord c.bases
  rw [classHead?]
  simp only [hafter, Option.bind_some, hblanks, hmarkers, Option.orElse_some]

end Heads

end TestSynth.Header
