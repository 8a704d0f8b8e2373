import TestSynth.Completion.Target
import TestSynth.Proofs.Artifact.Naming
import TestSynth.Scenario.Refinement
import TestSynth.Scenario.Regeneration
/-!
What the names of tests tell. The first test of a line is marked by its kind or by the round that it
is made for, a replacement by the attempt that it replaces.
-/
namespace TestSynth

open Artifact (stamp lastPart EndsIn safeName safeIdentifier)
open Text (isWord)

theorem toList_toString (n : Nat) : (toString n).toList = Nat.toDigits 10 n := Nat.toList_repr

theorem toDigits_inj {m n : Nat} (h : Nat.toDigits 10 m = Nat.toDigits 10 n) : m = n := by
  rw [← Nat.ofDigitChars_ten_toDigits (n := m), h, Nat.ofDigitChars_ten_toDigits]

/-- What a name was made for. -/
inductive Mark where
  | kind (k : ScenarioKind)
  | round (iteration : Nat)
  | repair (attempt : Nat)

namespace Mark

/-- The mark as it stands in a name. -/
def text : Mark → List Char
  | .kind k => k.name.toList
  | .round iteration => 'i' :: Nat.toDigits 10 iteration
  | .repair attempt => 'g' :: Nat.toDigits 10 attempt

theorem isAlphanum_of_mem_toDigits {n : Nat} {c : Char} (h : c ∈ Nat.toDigits 10 n) :
    c.isAlphanum := by
  simp [Char.isAlphanum, Nat.isDigit_of_mem_toDigits (by omega) (by omega) h]

theorem isAlphanum_text (m : Mark) : ∀ c ∈ m.text, c.isAlphanum := by
  cases m with
  | kind k =>
    have hall : k.name.toList.all Char.isAlphanum := by cases k <;> decide
    exact List.all_eq_true.1 hall
  | round n | repair n =>
    intro c hc
    rcases List.mem_cons.1 hc with rfl | hc
    · decide
    · exact isAlphanum_of_mem_toDigits hc

theorem text_ne_nil (m : Mark) : m.text ≠ [] := by
  cases m with
  | kind k => cases k <;> decide
  | round | repair => simp [text]

theorem not_all_isDigit_text (m : Mark) : ¬ m.text.all Char.isDigit := by
  cases m with
  | kind k => cases k <;> decide
  | round | repair => simp [text]

theorem underscore_not_mem_text (m : Mark) : '_' ∉ m.text :=
  Artifact.underscore_not_mem m.isAlphanum_text

/-- Kinds start with another letter than the other marks. -/
theorem kind_ne (k : ScenarioKind) (cs : List Char) :
    k.name.toList ≠ 'i' :: cs ∧ k.name.toList ≠ 'g' :: cs := by
  cases k <;> simp [ScenarioKind.name]

theorem text_injective {m n : Mark} (h : m.text = n.text) : m = n := by
  cases m with
  | kind j =>
    cases n with
    | kind k => cases j <;> cases k <;> first | rfl | exact absurd h (by decide)
    | round => exact absurd h (kind_ne j _).1
    | repair => exact absurd h (kind_ne j _).2
  | round i =>
    cases n with
    | kind k => exact absurd h.symm (kind_ne k _).1
    | round j => exact congrArg round (toDigits_inj (List.cons.inj h).2)
    | repair => simp [text] at h
  | repair i =>
    cases n with
    | kind k => exact absurd h.symm (kind_ne k _).2
    | round => simp [text] at h
    | repair j => exact congrArg repair (toDigits_inj (List.cons.inj h).2)

end Mark

/-- A name was made for that. -/
def MarkedFor (id : String) (m : Mark) : Prop := stamp id.toList = m.text

theorem MarkedFor.unique {id : String} {m n : Mark} (hm : MarkedFor id m) (hn : MarkedFor id n) :
    m = n :=
  Mark.text_injective (hm.symm.trans hn)

/-- Names that end in a mark. -/
def EndsInMark (id : String) (m : Mark) : Prop := EndsIn m.text id.toList

theorem EndsInMark.markedFor {id : String} {m : Mark} (h : EndsInMark id m) : MarkedFor id m :=
  h.stamp m.underscore_not_mem_text m.not_all_isDigit_text

theorem toList_append_text (id : String) (m : Mark) :
    (id ++ "_" ++ String.ofList m.text).toList = id.toList ++ '_' :: m.text := by
  simp [String.toList_append]

theorem EndsInMark.append (id : String) (m : Mark) :
    EndsInMark (id ++ "_" ++ String.ofList m.text) m :=
  .inr ⟨id.toList, toList_append_text id m⟩

theorem EndsInMark.safeName (label : String) (m : Mark) :
    EndsInMark (safeName (label ++ "_" ++ String.ofList m.text)) m := by
  have h := Artifact.safeIdentifier_endsIn m.text_ne_nil m.isAlphanum_text label.toList
  simpa [EndsInMark, Artifact.safeName, String.toList_append] using h

/-- A number at the end leaves the mark. -/
theorem EndsInMark.numbered {id : String} {m : Mark} (h : EndsInMark id m) (n : Nat) :
    MarkedFor (id ++ "_" ++ toString n) m := by
  have hstamp := Artifact.stamp_numbered id.toList n
  rw [h.lastPart m.underscore_not_mem_text] at hstamp
  simpa [MarkedFor, String.toList_append, toList_toString] using hstamp

/-- A name of letters, digits and underscores. -/
def PlainName (id : String) : Prop := ∀ c ∈ id.toList, isWord c

namespace PlainName

theorem safeName (label : String) : PlainName (safeName label) := by
  simpa [PlainName, Artifact.safeName] using Artifact.isWord_safeIdentifier label.toList

theorem append {s t : String} (hs : PlainName s) (ht : PlainName t) : PlainName (s ++ t) := by
  intro c hc
  rw [String.toList_append, List.mem_append] at hc
  exact hc.elim (hs c) (ht c)

theorem underscore : PlainName "_" := by
  intro c hc
  rw [List.mem_singleton.1 hc]
  decide

theorem number (n : Nat) : PlainName (toString n) := by
  intro c hc
  rw [toList_toString] at hc
  simp [isWord, Mark.isAlphanum_of_mem_toDigits hc]

theorem mark (m : Mark) : PlainName (String.ofList m.text) := by
  intro c hc
  rw [String.toList_ofList] at hc
  simp [isWord, m.isAlphanum_text c hc]

end PlainName

end TestSynth
