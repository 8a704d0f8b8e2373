import Mathlib
import TestSynth.Header.Scan
import TestSynth.Proofs.Text.Words
/-!
How the items of a text follow from its first mark: a semicolon ends a statement, an opening brace
starts a block, and a closing one that was never opened ends a statement that is no item.
-/
namespace TestSynth.Header

open Text

theorem isMark_eq_false_iff {c : Char} : isMark c = false ↔ c ≠ ';' ∧ c ≠ '{' ∧ c ≠ '}' := by
  simp [isMark, and_assoc]

theorem isMark_of_isBlank {c : Char} (h : isBlank c) : isMark c = false :=
  isMark_eq_false_iff.2 ⟨ne_of_holds h (by decide), ne_of_holds h (by decide),
    ne_of_holds h (by decide)⟩

/-- No mark stands in the text. -/
def Unmarked (cs : List Char) : Prop := ∀ c ∈ cs, isMark c = false

instance (cs : List Char) : Decidable (Unmarked cs) :=
  decidable_of_iff (cs.all (!isMark ·)) (by simp [Unmarked])

theorem Unmarked.not_mem {cs : List Char} (h : Unmarked cs) {c : Char} (hc : isMark c) : c ∉ cs :=
  fun hmem => by cases (h c hmem).symm.trans hc

theorem unmarked_of_blanks {cs : List Char} (h : ∀ c ∈ cs, isBlank c) : Unmarked cs :=
  fun c hc => isMark_of_isBlank (h c hc)

section FirstMark
variable {scope : String} {cs inside after rest : List Char} {mark : Char}

theorem dropWhile_append_mark (rest : List Char) (h : Unmarked cs) (hmark : isMark mark) :
    (cs ++ mark :: rest).dropWhile (!isMark ·) = mark :: rest := by
  rw [List.dropWhile_append_of_pos (by simpa [Unmarked] using h)]
  simp [hmark]

theorem takeWhile_append_mark (rest : List Char) (h : Unmarked cs) (hmark : isMark mark) :
    (cs ++ mark :: rest).takeWhile (!isMark ·) = cs := by
  rw [List.takeWhile_append_of_pos (by simpa [Unmarked] using h)]
  simp [hmark]

theorem items_eq_nil (h : Unmarked cs) : items scope cs = [] := by
  have hdrop : cs.dropWhile (!isMark ·) = [] := by simpa [Unmarked] using h
  rw [items]
  split
  · rfl
  · next heq =>
    rw [hdrop] at heq
    cases heq

/-- The items of a text by what its first mark is. -/
theorem items_mark (h : Unmarked cs) (hmark : isMark mark) (after : List Char) :
    items scope (cs ++ mark :: after) =
      if mark == ';' then .statement scope cs :: items scope after
      else if mark == '{' then
        match splitGroup '{' '}' 0 after with
        | none => []
        | some (inside, rest) =>
          (match blockKind (trim cs) with
            | .scope name => items (joinScopes scope name) inside
            | .linkage => items scope inside
            | .definition head =>
              if (trim inside).isEmpty then [] else [.classBody scope head inside]
            | .function => [.statement scope (trim cs)]
            | .other => []) ++ items scope rest
      else items scope after := by
  have hdrop := dropWhile_append_mark after h hmark
  have htake := takeWhile_append_mark after h hmark
  rw [items]
  split
  · next heq =>
    rw [hdrop] at heq
    cases heq
  · next heq =>
    rw [hdrop] at heq
    cases heq
    simp only [htake]
    split
    · rfl
    · split
      · split
        · next hnone => exact hnone ▸ rfl
        · next hsome => exact hsome ▸ rfl
      · rfl

theorem items_statement (h : Unmarked cs) (rest : List Char) :
    items scope (cs ++ ';' :: rest) = .statement scope cs :: items scope rest := by
  rw [items_mark h rfl]
  rfl

theorem items_stray (h : Unmarked cs) (rest : List Char) :
    items scope (cs ++ '}' :: rest) = items scope rest := by
  rw [items_mark h rfl]
  rfl

theorem items_unclosed (h : Unmarked cs) (hgroup : splitGroup '{' '}' 0 after = none) :
    items scope (cs ++ '{' :: after) = [] := by
  rw [items_mark h rfl, hgroup]
  rfl

theorem items_block (h : Unmarked cs)
    (hgroup : splitGroup '{' '}' 0 after = some (inside, rest)) :
    items scope (cs ++ '{' :: after) =
      (match blockKind (trim cs) with
        | .scope name => items (joinScopes scope name) inside
        | .linkage => items scope inside
        | .definition head => if (trim inside).isEmpty then [] else [.classBody scope head inside]
        | .function => [.statement scope (trim cs)]
        | .other => []) ++ items scope rest := by
  rw [items_mark h rfl, hgroup]
  rfl

end FirstMark

section Induction
variable {motive : List Char → Prop}

theorem mark_eq {mark : Char} (h : isMark mark) : mark = ';' ∨ mark = '{' ∨ mark = '}' := by
  simpa [isMark, or_assoc] using h

/-- A text has no mark, or it is cut at its first one. -/
theorem unmarked_or_mark (cs : List Char) :
    Unmarked cs ∨ ∃ s mark after, cs = s ++ mark :: after ∧ Unmarked s ∧ isMark mark := by
  have hfront : Unmarked (cs.takeWhile (!isMark ·)) := fun c hc => by
    simpa using List.mem_takeWhile_imp hc
  cases hdrop : cs.dropWhile (!isMark ·) with
  | nil =>
    rw [List.dropWhile_eq_nil_iff] at hdrop
    exact .inl (by simpa [Unmarked] using hdrop)
  | cons mark after =>
    have hcs := (List.takeWhile_append_dropWhile (p := (!isMark ·)) (l := cs)).symm
    have hmark := List.head?_dropWhile_not (!isMark ·) cs
    rw [hdrop] at hcs hmark
    exact .inr ⟨_, mark, after, hcs, hfront, by simpa using hmark⟩

/-- Induction along the marks of a text, and into the blocks that they close. -/
theorem text_induction (unmarked : ∀ cs, Unmarked cs → motive cs)
    (statement : ∀ s after, Unmarked s → motive after → motive (s ++ ';' :: after))
    (stray : ∀ s after, Unmarked s → motive after → motive (s ++ '}' :: after))
    (unclosed : ∀ s after, Unmarked s → splitGroup '{' '}' 0 after = none →
      motive (s ++ '{' :: after))
    (block : ∀ s after inside rest, Unmarked s →
      splitGroup '{' '}' 0 after = some (inside, rest) → motive inside → motive rest →
      motive (s ++ '{' :: after))
    (cs : List Char) : motive cs := by
  induction hn : cs.length using Nat.strong_induction_on generalizing cs with
  | _ n ih =>
    subst hn
    rcases unmarked_or_mark cs with h | ⟨s, mark, after, rfl, hs, hmark⟩
    · exact unmarked cs h
    · have hlength : after.length < (s ++ mark :: after).length := by
        rw [List.length_append, List.length_cons]
        omega
      rcases mark_eq hmark with rfl | rfl | rfl
      · exact statement s after hs (ih _ hlength after rfl)
      · cases hgroup : splitGroup '{' '}' 0 after with
        | none => exact unclosed s after hs hgroup
        | some cut =>
          have hcut := splitGroup_length hgroup
          exact block s after cut.1 cut.2 hs hgroup (ih _ (by omega) cut.1 rfl)
            (ih _ (by omega) cut.2 rfl)
      · exact stray s after hs (ih _ hlength after rfl)

end Induction

section Heads
variable {cs : List Char} {isStruct : Bool} {n : Nat} {head : ClassHead} {scope scope' : String}
  {body : List Char}

theorem named?_of_afterMarkers? (h : afterMarkers? isStruct n cs = some head) :
    ∃ rest, named? isStruct rest = some head := by
  induction n generalizing cs with
  | zero => exact ⟨cs, h⟩
  | succ n ih =>
    rw [afterMarkers?] at h
    cases hmarker : (afterMarker? cs).bind (afterMarkers? isStruct n) with
    | none =>
      rw [hmarker] at h
      exact ⟨cs, h⟩
    | some found =>
      rw [hmarker] at h
      cases h
      obtain ⟨rest, -, hrest⟩ := Option.bind_eq_some_iff.1 hmarker
      exact ih hrest

/-- Whatever keyword and markers stand in front, a class head names a class in the end. -/
theorem named?_of_classHead? (h : classHead? cs = some head) :
    ∃ isStruct rest, named? isStruct rest = some head := by
  have hkeyword : ∀ {keyword isStruct},
      ((after? keyword cs).bind afterBlanks?).bind (afterMarkers? isStruct cs.length) =
        some head → ∃ isStruct rest, named? isStruct rest = some head := fun h => by
    obtain ⟨rest, -, hrest⟩ := Option.bind_eq_some_iff.1 h
    exact ⟨_, named?_of_afterMarkers? hrest⟩
  rw [classHead?] at h
  cases hclass : ((after? "class" cs).bind afterBlanks?).bind
      (afterMarkers? false cs.length) with
  | none =>
    simp only [hclass] at h
    exact hkeyword h
  | some found =>
    simp only [hclass] at h
    cases h
    exact hkeyword hclass

/-- What the head of a block says where it is read as a kind. -/
inductive ReadsAs (cs : List Char) : BlockKind → Prop
  | scope {name : String} (named : namespaceName? cs = some name) : ReadsAs cs (.scope name)
  | linkage (linked : isLinkage cs) : ReadsAs cs .linkage
  | definition {head : ClassHead} (headed : classHead? cs = some head) :
      ReadsAs cs (.definition head)
  | function (listed : endsWith [')'] cs || containsText [')', ' '] cs) : ReadsAs cs .function
  | other (unlisted : (endsWith [')'] cs || containsText [')', ' '] cs) = false) :
      ReadsAs cs .other

theorem readsAs_blockKind (cs : List Char) : ReadsAs cs (blockKind cs) := by
  unfold blockKind
  split
  · next named => exact .scope named
  · split
    · next linked => exact .linkage linked
    · split
      · next headed => exact .definition headed
      · split
        · next listed => exact .function listed
        · next unlisted => exact .other (Bool.eq_false_iff.2 unlisted)

theorem classHead?_of_blockKind (h : blockKind cs = .definition head) :
    classHead? cs = some head := by
  have hread := readsAs_blockKind cs
  rw [h] at hread
  cases hread with
  | definition headed => exact headed

/-- Every class body of a text stands behind a class head. -/
theorem classHead?_of_classBody (h : .classBody scope' head body ∈ items scope cs) :
    ∃ text, classHead? text = some head := by
  induction cs using text_induction generalizing scope with
  | unmarked s hs =>
    rw [items_eq_nil hs] at h
    cases h
  | statement s after hs ih =>
    rw [items_statement hs] at h
    exact ih ((List.mem_cons.1 h).resolve_left (by simp))
  | stray s after hs ih =>
    rw [items_stray hs] at h
    exact ih h
  | unclosed s after hs hgroup =>
    rw [items_unclosed hs hgroup] at h
    cases h
  | block s after inside rest hs hgroup ihinside ihrest =>
    rw [items_block hs hgroup] at h
    rcases List.mem_append.1 h with h | h
    · cases hkind : blockKind (trim s) with
      | scope name =>
        rw [hkind] at h
        exact ihinside h
      | linkage =>
        rw [hkind] at h
        exact ihinside h
      | definition found =>
        simp only [hkind] at h
        split at h
        · cases h
        · cases List.mem_singleton.1 h
          exact ⟨_, classHead?_of_blockKind hkind⟩
      | function =>
        rw [hkind] at h
        cases List.mem_singleton.1 h
      | other =>
        rw [hkind] at h
        cases h
    · exact ihrest h

end Heads

/-- A header adds no more functions than it may. -/
theorem length_functions_extract (limits : Limits) (header : SourceUnit) (text : String) :
    (extract limits header text).functions.length ≤ limits.functionsPerHeader := by
  simp only [extract, ofItems]
  split
  · exact List.length_take_le _ _
  · exact Nat.zero_le _

end TestSynth.Header
