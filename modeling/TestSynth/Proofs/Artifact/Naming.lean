import Mathlib
import TestSynth.Artifact.Basic
import TestSynth.Proofs.Text.Words
import TestSynth.Proofs.Path
/-!
The parts of names between underscores. The last part that is not a mere number tells what a name
was made for; making a label safe keeps it. Safe names are those that this leaves as they are.
-/
namespace TestSynth.Artifact

open Text

variable {w x cs : List Char} {c : Char}

/-- What stands after the last underscore. -/
def lastPart (cs : List Char) : List Char := takeEndWhile (· != '_') cs

/-- What stands before the last underscore. -/
def beforeLast (cs : List Char) : List Char := cs.take (cs.length - (lastPart cs).length - 1)

/-- The last part that is not a mere number, or the part before that. -/
def stamp (cs : List Char) : List Char :=
  if (lastPart cs).all Char.isDigit then lastPart (beforeLast cs) else lastPart cs

theorem ne_underscore (hw : '_' ∉ w) (hc : c ∈ w) : (c != '_') = true := by
  simp only [bne_iff_ne, ne_eq]
  rintro rfl
  exact hw hc

theorem lastPart_self (hw : '_' ∉ w) : lastPart w = w := by
  have hall : ∀ c ∈ w.reverse, (c != '_') = true := fun c hc =>
    ne_underscore hw (List.mem_reverse.1 hc)
  rw [lastPart, takeEndWhile, List.takeWhile_eq_self_iff.2 hall, List.reverse_reverse]

theorem lastPart_append (x : List Char) (hw : '_' ∉ w) : lastPart (x ++ '_' :: w) = w := by
  have hall : ∀ c ∈ w.reverse, (c != '_') = true := fun c hc =>
    ne_underscore hw (List.mem_reverse.1 hc)
  rw [lastPart, takeEndWhile, List.reverse_append, List.reverse_cons, List.append_assoc,
    List.takeWhile_append_of_pos hall]
  simp

theorem beforeLast_append (x : List Char) (hw : '_' ∉ w) : beforeLast (x ++ '_' :: w) = x := by
  have hlength : (x ++ '_' :: w).length - w.length - 1 = x.length := by
    rw [List.length_append, List.length_cons]
    omega
  rw [beforeLast, lastPart_append x hw, hlength, List.take_left]

/-- A text ends in a part. -/
def EndsIn (w cs : List Char) : Prop := cs = w ∨ ∃ x, cs = x ++ '_' :: w

namespace EndsIn

theorem lastPart (h : EndsIn w cs) (hw : '_' ∉ w) : lastPart cs = w := by
  rcases h with rfl | ⟨x, rfl⟩
  · exact lastPart_self hw
  · exact lastPart_append x hw

theorem stamp (h : EndsIn w cs) (hw : '_' ∉ w) (hd : ¬ w.all Char.isDigit) : stamp cs = w := by
  rw [Artifact.stamp, h.lastPart hw, if_neg hd]

theorem ne_nil (h : EndsIn w cs) (hne : w ≠ []) : cs ≠ [] := by
  rcases h with rfl | ⟨x, rfl⟩
  · exact hne
  · simp

theorem getLast?_eq (h : EndsIn w cs) (hne : w ≠ []) : cs.getLast? = w.getLast? := by
  rcases h with rfl | ⟨x, rfl⟩
  · rfl
  · rw [List.append_cons, List.getLast?_append_of_ne_nil _ hne]

end EndsIn

theorem all_isDigit_toDigits (n : Nat) : (Nat.toDigits 10 n).all Char.isDigit := by
  rw [List.all_eq_true]
  exact fun c hc => Nat.isDigit_of_mem_toDigits (by omega) (by omega) hc

/-- A number at the end is not what the name was made for. -/
theorem stamp_numbered (x : List Char) (n : Nat) :
    stamp (x ++ '_' :: Nat.toDigits 10 n) = lastPart x := by
  rw [stamp, lastPart_append x Nat.underscore_not_in_toDigits,
    beforeLast_append x Nat.underscore_not_in_toDigits, if_pos (all_isDigit_toDigits n)]

/-- The part before the one that tells what a name was made for. -/
def beforeStamp (cs : List Char) : List Char :=
  if (lastPart cs).all Char.isDigit then lastPart (beforeLast (beforeLast cs))
  else lastPart (beforeLast cs)

theorem beforeStamp_append (x : List Char) (hw : '_' ∉ w) (hd : ¬ w.all Char.isDigit) :
    beforeStamp (x ++ '_' :: w) = lastPart x := by
  rw [beforeStamp, lastPart_append x hw, if_neg hd, beforeLast_append x hw]

theorem beforeStamp_numbered (x : List Char) (hw : '_' ∉ w) (n : Nat) :
    beforeStamp (x ++ '_' :: w ++ '_' :: Nat.toDigits 10 n) = lastPart x := by
  rw [beforeStamp, lastPart_append _ Nat.underscore_not_in_toDigits,
    if_pos (all_isDigit_toDigits n), beforeLast_append _ Nat.underscore_not_in_toDigits,
    beforeLast_append x hw]

/-- A label with its underscores collapsed and none at its ends. -/
def trimmed (label : List Char) : List Char :=
  dropEndWhile (· == '_') ((collapse false label).dropWhile (· == '_'))

/-- A name from what is left of a label: a letter goes before a digit, and nothing is anonymous. -/
def lettered : List Char → List Char
  | [] => "anon".toList
  | c :: cs => if c.isDigit then 't' :: '_' :: c :: cs else c :: cs

theorem safeIdentifier_eq (label : List Char) :
    safeIdentifier label = lettered (trimmed label) := by
  rw [safeIdentifier, trimmed]
  cases dropEndWhile (· == '_') ((collapse false label).dropWhile (· == '_')) <;> rfl

/-- What goes before a name does not depend on what follows it. -/
theorem lettered_append (h : cs ≠ []) (y : List Char) : lettered (cs ++ y) = lettered cs ++ y := by
  cases cs with
  | nil => exact absurd rfl h
  | cons c cs =>
    simp only [List.cons_append, lettered]
    split <;> rfl

theorem EndsIn.lettered (h : EndsIn w cs) (hne : cs ≠ []) : EndsIn w (lettered cs) := by
  cases cs with
  | nil => exact absurd rfl hne
  | cons c cs =>
    rw [Artifact.lettered]
    split
    · rcases h with rfl | ⟨x, h⟩
      · exact .inr ⟨['t'], rfl⟩
      · exact .inr ⟨'t' :: '_' :: x, by rw [h]; rfl⟩
    · exact h

section
variable (hne : w ≠ []) (hw : ∀ c ∈ w, c.isAlphanum)
include hw

theorem underscore_not_mem : '_' ∉ w := fun h => absurd (hw '_' h) (by decide)

theorem collapse_alphanum_append (pending : Bool) (y : List Char) :
    collapse pending (w ++ y) = w ++ collapse (pending && w.isEmpty) y := by
  induction w generalizing pending with
  | nil => simp
  | cons c cs ih =>
    have hc := hw c List.mem_cons_self
    rw [List.cons_append, collapse, if_pos hc, ih fun d hd => hw d (List.mem_cons_of_mem c hd)]
    simp

theorem collapse_alphanum (pending : Bool) : collapse pending w = w := by
  have h := collapse_alphanum_append hw pending []
  simpa [collapse] using h

theorem collapse_endsIn (pending : Bool) (x : List Char) :
    EndsIn w (collapse pending (x ++ '_' :: w)) := by
  -- Without anything pending, an underscore is left before the part.
  have hmark : (∃ y, collapse pending (x ++ '_' :: w) = y ++ '_' :: w) ∨
      (pending = true ∧ collapse pending (x ++ '_' :: w) = w) := by
    induction x generalizing pending with
    | nil =>
      rw [List.nil_append, collapse, if_neg (by decide)]
      cases pending with
      | false => exact .inl ⟨[], by simp [collapse_alphanum hw]⟩
      | true => exact .inr ⟨rfl, by simp [collapse_alphanum hw]⟩
    | cons c x ih =>
      rw [List.cons_append, collapse]
      split
      · obtain ⟨y, hy⟩ | ⟨hf, _⟩ := ih false
        · exact .inl ⟨c :: y, by rw [hy, List.cons_append]⟩
        · cases hf
      · cases pending with
        | true => exact ih true
        | false =>
          obtain ⟨y, hy⟩ | ⟨_, hy⟩ := ih true
          · exact .inl ⟨'_' :: y, by simp [hy]⟩
          · exact .inl ⟨[], by simp [hy]⟩
  obtain ⟨y, hy⟩ | ⟨_, hy⟩ := hmark
  · exact .inr ⟨y, hy⟩
  · exact .inl hy

include hne

theorem dropWhile_underscore : w.dropWhile (· == '_') = w := by
  cases w with
  | nil => exact absurd rfl hne
  | cons c cs =>
    have hc : c ≠ '_' := fun h => underscore_not_mem hw (h ▸ List.mem_cons_self)
    simp [hc]

theorem EndsIn.dropWhile (h : EndsIn w cs) : EndsIn w (cs.dropWhile (· == '_')) := by
  rcases h with rfl | ⟨x, rfl⟩
  · exact .inl (dropWhile_underscore hne hw)
  · induction x with
    | nil => exact .inl (by simp [dropWhile_underscore hne hw])
    | cons c x ih =>
      by_cases hc : c = '_'
      · simpa [hc] using ih
      · exact .inr ⟨c :: x, by simp [hc]⟩

theorem EndsIn.dropEndWhile (h : EndsIn w cs) : dropEndWhile (· == '_') cs = cs := by
  apply dropEndWhile_eq_self
  intro c hc
  rw [h.getLast?_eq hne] at hc
  apply beq_eq_false_iff_ne.2
  rintro rfl
  exact underscore_not_mem hw (List.mem_of_getLast? hc)

/-- After letters and digits nothing is pending. -/
theorem collapse_append (pending : Bool) (x y : List Char) :
    collapse pending (x ++ w ++ y) = collapse pending (x ++ w) ++ collapse false y := by
  have hsome : w.isEmpty = false := List.isEmpty_eq_false_iff.2 hne
  induction x generalizing pending with
  | nil =>
    rw [List.nil_append, collapse_alphanum_append hw, collapse_alphanum hw, hsome, Bool.and_false]
  | cons c x ih =>
    simp only [List.cons_append, collapse]
    split
    · rw [ih, List.cons_append]
    · split
      · exact ih true
      · rw [ih, List.cons_append]

theorem trimmed_endsIn (x : List Char) : EndsIn w (trimmed (x ++ '_' :: w)) := by
  have hends := (collapse_endsIn hw false x).dropWhile hne hw
  rw [trimmed, hends.dropEndWhile hne hw]
  exact hends

/-- Making a label safe keeps what it ends in. -/
theorem safeIdentifier_endsIn (x : List Char) : EndsIn w (safeIdentifier (x ++ '_' :: w)) := by
  have hends := trimmed_endsIn hne hw x
  rw [safeIdentifier_eq]
  exact hends.lettered (hends.ne_nil hne)

theorem trimmed_append {v : List Char} (x : List Char) (hv : v ≠ []) (hv' : ∀ c ∈ v, c.isAlphanum) :
    trimmed (x ++ '_' :: w ++ '_' :: v) = trimmed (x ++ '_' :: w) ++ '_' :: v := by
  have hcollapse : collapse false (x ++ '_' :: w ++ '_' :: v) =
      collapse false (x ++ '_' :: w) ++ '_' :: v := by
    rw [List.append_cons x, collapse_append hne hw, collapse, if_neg (by decide),
      collapse_alphanum hv']
    rfl
  have hends := (collapse_endsIn hw false x).dropWhile hne hw
  have hsome := List.isEmpty_eq_false_iff.2 (hends.ne_nil hne)
  have hlonger : EndsIn v ((collapse false (x ++ '_' :: w)).dropWhile (· == '_') ++ '_' :: v) :=
    .inr ⟨_, rfl⟩
  rw [trimmed, trimmed, hends.dropEndWhile hne hw, hcollapse, List.dropWhile_append, hsome,
    if_neg Bool.false_ne_true, hlonger.dropEndWhile hv hv']

/-- Making a label safe keeps its last part apart from what stands before it. -/
theorem safeIdentifier_append {v : List Char} (x : List Char) (hv : v ≠ [])
    (hv' : ∀ c ∈ v, c.isAlphanum) : safeIdentifier (x ++ '_' :: w ++ '_' :: v) =
      safeIdentifier (x ++ '_' :: w) ++ '_' :: v := by
  have hends := trimmed_endsIn hne hw x
  rw [safeIdentifier_eq, safeIdentifier_eq, trimmed_append hne hw x hv hv',
    lettered_append (hends.ne_nil hne)]

end

theorem isWord_collapse (pending : Bool) (cs : List Char) : ∀ c ∈ collapse pending cs, isWord c := by
  induction cs generalizing pending with
  | nil => simp [collapse]
  | cons c cs ih =>
    rw [collapse]
    split
    · next hc =>
      intro d hd
      rcases List.mem_cons.1 hd with rfl | hd
      · simp [isWord, hc]
      · exact ih false d hd
    · split
      · exact ih true
      · intro d hd
        rcases List.mem_cons.1 hd with rfl | hd
        · decide
        · exact ih true d hd

theorem isWord_trimmed (label : List Char) : ∀ c ∈ trimmed label, isWord c := by
  intro c hc
  have hmem := (List.dropWhile_sublist _).subset ((prefix_dropEndWhile _ _).subset hc)
  exact isWord_collapse false label c hmem

theorem isIdentifier_cons_of_not_isDigit (hc : isWord c) (hd : ¬ c.isDigit)
    (hcs : ∀ d ∈ cs, isWord d) : isIdentifier (c :: cs) := by
  have hstart : isWordStart c := by simpa [isWord, isWordStart, Char.isAlphanum, hd] using hc
  rw [isIdentifier, hstart, List.all_eq_true.2 hcs]
  rfl

theorem isIdentifier_lettered (hword : ∀ c ∈ cs, isWord c) : isIdentifier (lettered cs) := by
  cases cs with
  | nil => decide
  | cons c cs =>
    rw [lettered]
    split
    · have hmark : ∀ d ∈ '_' :: c :: cs, isWord d := List.forall_mem_cons.2 ⟨rfl, hword⟩
      exact isIdentifier_cons_of_not_isDigit rfl (by decide) hmark
    · next hdigit =>
      rw [List.forall_mem_cons] at hword
      exact isIdentifier_cons_of_not_isDigit hword.1 hdigit hword.2

/-- Safe names are identifiers. -/
theorem isIdentifier_safeIdentifier (label : List Char) : isIdentifier (safeIdentifier label) := by
  rw [safeIdentifier_eq]
  exact isIdentifier_lettered (isWord_trimmed label)

/-- Safe names have nothing but letters, digits and underscores. -/
theorem isWord_safeIdentifier (label : List Char) : ∀ c ∈ safeIdentifier label, isWord c :=
  isWord_of_mem_isIdentifier (isIdentifier_safeIdentifier label)

theorem isIdentifier_append (h : isIdentifier cs) (hw : ∀ c ∈ w, isWord c) :
    isIdentifier (cs ++ w) := by
  cases cs with
  | nil => cases h
  | cons c cs =>
    rw [isIdentifier, Bool.and_eq_true] at h
    rw [List.cons_append, isIdentifier, List.all_append, h.1, h.2, List.all_eq_true.2 hw]
    rfl

section Safety

/-- Whether two characters may stand side by side in a safe name. -/
def apart (c d : Char) : Bool := !(c == '_' && d == '_')

/-- An identifier with a letter or a digit on both sides of each underscore. -/
structure Safe (cs : List Char) : Prop where
  identifier : isIdentifier cs
  single : cs.IsChain fun c d => apart c d
  starts : cs.head? ≠ some '_'
  ends : cs.getLast? ≠ some '_'

/-- No underscore is left behind another, or behind one that is pending. -/
theorem isChain_collapse (pending : Bool) (cs : List Char) :
    ((collapse pending cs).IsChain fun c d => apart c d) ∧
      (pending → (collapse pending cs).head? ≠ some '_') := by
  induction cs generalizing pending with
  | nil => exact ⟨.nil, by simp [collapse]⟩
  | cons c cs ih =>
    rw [collapse]
    by_cases hc : c.isAlphanum
    · have hne : c ≠ '_' := by
        rintro rfl
        cases hc
      rw [if_pos hc]
      refine ⟨List.isChain_cons.2 ⟨?_, (ih false).1⟩, by simp [hne]⟩
      intro d _
      simp [apart, hne]
    · obtain ⟨hchain, hhead⟩ := ih true
      rw [if_neg hc]
      cases pending with
      | true => exact ⟨hchain, hhead⟩
      | false =>
        refine ⟨List.isChain_cons.2 ⟨?_, hchain⟩, by simp⟩
        intro d hd
        have hne : d ≠ '_' := by
          rintro rfl
          exact hhead rfl hd
        simp [apart, hne]

/-- A text without anything to collapse stays as it is. -/
theorem collapse_eq_self (pending : Bool) (hword : ∀ c ∈ cs, isWord c)
    (hchain : cs.IsChain fun c d => apart c d) (hhead : pending → cs.head? ≠ some '_') :
    collapse pending cs = cs := by
  induction cs generalizing pending with
  | nil => rfl
  | cons c cs ih =>
    rw [List.forall_mem_cons] at hword
    rw [List.isChain_cons] at hchain
    rw [collapse]
    by_cases hc : c.isAlphanum
    · rw [if_pos hc, ih false hword.2 hchain.2 (by simp)]
    · have hunderscore : c = '_' := by simpa [isWord, hc] using hword.1
      subst hunderscore
      have hnext : cs.head? ≠ some '_' := by
        intro h
        cases hchain.1 '_' h
      have hpending : pending = false := by simpa using hhead
      rw [if_neg hc, hpending, if_neg Bool.false_ne_true, ih true hword.2 hchain.2 fun _ => hnext]

/-- What is left of a label has no underscore at its ends and none behind another. -/
theorem trimmed_spec (label : List Char) : ((trimmed label).IsChain fun c d => apart c d) ∧
    (trimmed label).head? ≠ some '_' ∧ (trimmed label).getLast? ≠ some '_' := by
  obtain ⟨-, -, -, hlast⟩ :=
    dropEndWhile_split (· == '_') ((collapse false label).dropWhile (· == '_'))
  obtain ⟨rest, hrest⟩ :=
    prefix_dropEndWhile (· == '_') ((collapse false label).dropWhile (· == '_'))
  have hchain := (isChain_collapse false label).1.suffix (List.dropWhile_suffix (· == '_'))
  have hhead := List.head?_dropWhile_not (· == '_') (collapse false label)
  rw [← hrest] at hchain hhead
  refine ⟨(List.isChain_append.1 hchain).1, ?_, ?_⟩
  · intro hstart
    rw [trimmed] at hstart
    rw [List.head?_append, hstart] at hhead
    simp at hhead
  · intro hend
    simpa using hlast '_' hend

/-- Every label becomes a safe name. -/
theorem safe_safeIdentifier (label : List Char) : Safe (safeIdentifier label) := by
  have hidentifier := isIdentifier_safeIdentifier label
  obtain ⟨hchain, hstart, hend⟩ := trimmed_spec label
  rw [safeIdentifier_eq] at hidentifier ⊢
  generalize trimmed label = rest at hidentifier hchain hstart hend
  cases rest with
  | nil => exact ⟨hidentifier, by decide, by decide, by decide⟩
  | cons c cs =>
    rw [lettered] at hidentifier ⊢
    split
    · next hdigit =>
      rw [if_pos hdigit] at hidentifier
      have hne : c ≠ '_' := by
        rintro rfl
        cases hdigit
      refine ⟨hidentifier, ?_, by simp, by simpa using hend⟩
      simpa [apart, hne] using hchain
    · next hdigit =>
      rw [if_neg hdigit] at hidentifier
      exact ⟨hidentifier, hchain, hstart, hend⟩

/-- A safe name stays as it is. -/
theorem Safe.safeIdentifier_eq_self (h : Safe cs) : safeIdentifier cs = cs := by
  obtain ⟨c, rest, rfl, hc⟩ := isIdentifier_cons h.identifier
  have hword := isWord_of_mem_isIdentifier h.identifier
  have hcollapse : collapse false (c :: rest) = c :: rest :=
    collapse_eq_self false hword h.single (by simp)
  have hne : c ≠ '_' := by
    rintro rfl
    exact h.starts rfl
  have hdrop : (c :: rest).dropWhile (· == '_') = c :: rest := by simp [hne]
  have htrim : dropEndWhile (· == '_') (c :: rest) = c :: rest := by
    apply dropEndWhile_eq_self
    intro d hd
    apply beq_eq_false_iff_ne.2
    rintro rfl
    exact h.ends hd
  have hdigit : c.isDigit = false := isDigit_of_isWordStart hc
  rw [safeIdentifier_eq, trimmed, hcollapse, hdrop, htrim, lettered, hdigit,
    if_neg Bool.false_ne_true]

/-- Every label becomes a name that is an identifier, has a letter or a digit on both sides of each
underscore and is a single component of a path. The safe names are those that stay as they are. -/
theorem safeName_safe :
    (∀ label, safeName label ≠ "" ∧ Safe (safeName label).toList ∧
      safeName (safeName label) = safeName label ∧
      Path.components ⟨safeName label⟩ = [.name (safeName label)]) ∧
    ∀ name, safeName name = name ↔ Safe name.toList := by
  have hsafe : ∀ label, Safe (safeName label).toList := by
    intro label
    simpa [safeName] using safe_safeIdentifier label.toList
  have hself : ∀ name : String, Safe name.toList → safeName name = name := by
    intro name h
    rw [safeName, h.safeIdentifier_eq_self, String.ofList_toList]
  refine ⟨fun label => ⟨?_, hsafe label, hself _ (hsafe label), ?_⟩, fun name => ⟨?_, hself name⟩⟩
  · intro hempty
    have hidentifier := (hsafe label).identifier
    rw [hempty] at hidentifier
    cases hidentifier
  · exact Path.components_identifier (hsafe label).identifier
  · intro h
    rw [← h]
    exact hsafe name

end Safety

end TestSynth.Artifact
