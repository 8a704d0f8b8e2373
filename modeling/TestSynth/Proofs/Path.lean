import TestSynth.Path
import TestSynth.Proofs.Text.Words
/-!
Places below a directory. A name that is joined to a path leads one component further.
-/
namespace TestSynth.Path

open Text (fields_append_cons fields_eq_singleton fields_ne_nil)

variable {p : Path} {cs w : List Char}

/-- The components that the pieces of a text stand for. -/
def places (cs : List Char) : List Component := (pieces cs).filterMap component?

@[simp] theorem places_nil : places [] = [] := rfl

theorem pieces_ne_nil : pieces cs ≠ [] := fields_ne_nil

theorem pieces_append (cs rest : List Char) :
    pieces (cs ++ '/' :: rest) = pieces cs ++ pieces rest := fields_append_cons rfl

theorem places_append (cs rest : List Char) :
    places (cs ++ '/' :: rest) = places cs ++ places rest := by
  rw [places, pieces_append, List.filterMap_append]
  rfl

theorem components_root (h : p.text.toList = '/' :: cs) : p.components = .root :: places cs := by
  unfold components
  rw [h]
  rfl

theorem components_relative (hne : p.text.toList ≠ []) (h : p.text.toList.head? ≠ some '/') :
    p.components = (if (pieces p.text.toList).head? = some ['.'] then [.here] else []) ++
      places p.text.toList := by
  unfold components
  split
  · next hnil => exact absurd hnil hne
  · next rest hroot => exact absurd (by rw [hroot]; rfl) h
  · dsimp only
    split
    · next hpoint => rw [if_pos (eq_of_beq hpoint)]; rfl
    · next hpoint => rw [if_neg fun heq => hpoint (beq_iff_eq.2 heq)]; rfl

/-- What follows a path after a slash adds its own components. -/
theorem components_append {q : Path} (hne : p.text.toList ≠ [])
    (h : q.text.toList = p.text.toList ++ '/' :: cs) : q.components = p.components ++ places cs := by
  by_cases hroot : p.text.toList.head? = some '/'
  · obtain ⟨rest, hrest⟩ := List.head?_eq_some_iff.1 hroot
    rw [hrest, List.cons_append] at h
    rw [components_root hrest, components_root h, places_append, List.cons_append]
  · have hhead : q.text.toList.head? = p.text.toList.head? := by
      rw [h, List.head?_append_of_ne_nil _ hne]
    have hpiece : (pieces q.text.toList).head? = (pieces p.text.toList).head? := by
      rw [h, pieces_append, List.head?_append_of_ne_nil _ pieces_ne_nil]
    rw [components_relative hne hroot, components_relative (by simp [h]) (hhead ▸ hroot), hpiece,
      h, places_append, List.append_assoc]

section Names
variable {name : String} (h : Text.isIdentifier name.toList)
include h

theorem slash_not_mem : '/' ∉ name.toList :=
  Text.not_mem_of_holds (Text.isWord_of_mem_isIdentifier h) rfl

theorem point_not_mem : '.' ∉ name.toList :=
  Text.not_mem_of_holds (Text.isWord_of_mem_isIdentifier h) rfl

theorem isAbsolute_identifier : isAbsolute ⟨name⟩ = false :=
  beq_eq_false_iff_ne.2 fun hhead => slash_not_mem h (List.mem_of_mem_head? hhead)

theorem pieces_identifier : pieces name.toList = [name.toList] := by
  refine fields_eq_singleton fun c hc => beq_eq_false_iff_ne.2 ?_
  rintro rfl
  exact slash_not_mem h hc

theorem places_identifier : places name.toList = [.name name] := by
  have hcomponent : component? name.toList = some (.name name) := by
    obtain ⟨c, rest, hname, _⟩ := Text.isIdentifier_cons h
    have hpoint : c ≠ '.' := by
      rintro rfl
      exact point_not_mem h (hname ▸ List.mem_cons_self)
    simp [component?, hname, hpoint, ← String.toList_inj]
  rw [places, pieces_identifier h, List.filterMap_cons_some hcomponent, List.filterMap_nil]

theorem components_identifier : components ⟨name⟩ = [.name name] := by
  obtain ⟨c, rest, hname, _⟩ := Text.isIdentifier_cons h
  have hroot : name.toList.head? ≠ some '/' := beq_eq_false_iff_ne.1 (isAbsolute_identifier h)
  have hpiece : (pieces name.toList).head? ≠ some ['.'] := by
    rw [pieces_identifier h]
    intro hhead
    have hpoint := point_not_mem h
    rw [Option.some.inj hhead] at hpoint
    exact hpoint List.mem_cons_self
  rw [components_relative (by simp [hname]) hroot, if_neg hpiece, List.nil_append,
    places_identifier h]

/-- An identifier below a path is a place directly below it. -/
theorem components_join (p : Path) : (p.join ⟨name⟩).components = p.components ++ [.name name] := by
  unfold join
  rw [isAbsolute_identifier h, if_neg Bool.false_ne_true]
  by_cases hempty : p.text = ""
  · obtain rfl : p = ⟨""⟩ := congrArg Path.mk hempty
    exact components_identifier h
  have hne : p.text.toList ≠ [] := fun hnil => hempty (String.toList_eq_nil_iff.1 hnil)
  split
  · next hend =>
    have hslash : p.text.toList.getLast? = some '/' := by simpa [hempty] using hend
    obtain ⟨cs, hcs⟩ := List.getLast?_eq_some_iff.1 hslash
    have htext : (p.text ++ name).toList = cs ++ '/' :: name.toList := by
      rw [String.toList_append, hcs, List.append_assoc, List.singleton_append]
    by_cases hcut : cs = []
    · rw [hcut] at hcs htext
      rw [components_root htext, components_root hcs, places_identifier h]
      rfl
    · -- The path with its slash at the end is the path without it.
      obtain ⟨front, rfl⟩ : ∃ front : Path, front.text.toList = cs := ⟨⟨String.ofList cs⟩, by simp⟩
      have hp := components_append hcut hcs
      rw [components_append hcut htext, hp, places_nil, List.append_nil, places_identifier h]
  · next hend =>
    have htext : (p.text ++ "/" ++ name).toList = p.text.toList ++ '/' :: name.toList := by
      simp [String.toList_append]
    rw [components_append hne htext, places_identifier h]

end Names

end TestSynth.Path
