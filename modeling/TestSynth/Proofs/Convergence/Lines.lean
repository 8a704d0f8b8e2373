import TestSynth.Proofs.Convergence.Attempts
/-!
Lines of tests: a test, its replacement, the replacement of that and so on. Compiling with repair
ends each line that it is given exactly once, and counts the replacements that it makes.
-/
namespace TestSynth

namespace Generator

/-- A test of one attempt gives way to replacement after replacement, until one of a later attempt
is the last. -/
inductive Line (g : Generator) : Nat → TestArtifact → Nat → TestArtifact → Prop where
  | last (attempt : Nat) (a : TestArtifact) : Line g attempt a attempt a
  | replaced {attempt final : Nat} {a b z : TestArtifact} {diagnostics : String}
      (made : g.regenerate? a diagnostics attempt = some b)
      (rest : Line g (attempt + 1) b final z) : Line g attempt a final z

/-- The line of a test ends under that name, after that many attempts. -/
def EndsAs (g : Generator) (attempt : Nat) (a : TestArtifact) (ending : String × Nat) : Prop :=
  ∃ z, g.Line attempt a ending.2 z ∧ z.id = ending.1

theorem EndsAs.here {g : Generator} {attempt attempts : Nat} {a : TestArtifact} {id : String}
    (hid : id = a.id) (hn : attempts = attempt) : g.EndsAs attempt a (id, attempts) := by
  subst hn
  exact ⟨a, .last attempts a, hid.symm⟩

end Generator

/-- How the line of a test ended, if it did: its last name and the attempts up to there. -/
def Verdict.ending? : Verdict → Option (String × Nat)
  | .compiled t => some (t.artifact.id, t.attempts)
  | .abandoned t => some (t.lastId, t.attempts)
  | .replaced _ => none

namespace BuildRound

/-- The ends of all lines of a round. -/
def endings (r : BuildRound) : List (String × Nat) :=
  r.compiled.map (fun t => (t.artifact.id, t.attempts)) ++
    r.abandoned.map fun t => (t.lastId, t.attempts)

theorem length_endings (r : BuildRound) :
    r.endings.length = r.compiled.length + r.abandoned.length := by
  simp [endings]

theorem sorted_endings_perm (r : BuildRound) : r.sorted.endings.Perm r.endings :=
  ((List.mergeSort_perm _ _).map _).append ((List.mergeSort_perm _ _).map _)

theorem ofVerdicts_endings_perm (vs : List Verdict) :
    (ofVerdicts vs).endings.Perm (vs.filterMap Verdict.ending?) := by
  induction vs with
  | nil => exact .nil
  | cons v vs ih =>
    cases v with
    | compiled t => exact ih.cons _
    | abandoned t => exact List.perm_middle.trans (ih.cons _)
    | replaced b => exact ih

end BuildRound

variable {g : Generator} {context : BuildContext} {maxAttempts attempt : Nat}
  {tests : List TestArtifact} {batches : List Batch} {b : Batch} {e : String × Nat}

namespace Batch

/-- What is still pending after a batch ends later; all else has ended in it. -/
theorem ends (g : Generator) (deliveries : List Delivery) {later : Multiset (String × Nat)}
    (h : Multiset.Rel (g.EndsAs (attempt + 1))
      ((((deliveries.map (g.judge maxAttempts attempt)).filterMap
        Verdict.replacement?).map (·.artifact) : List TestArtifact) : Multiset TestArtifact)
      later) :
    Multiset.Rel (g.EndsAs attempt) (deliveries.map (·.1.artifact) : List TestArtifact)
      ((deliveries.map (g.judge maxAttempts attempt)).filterMap Verdict.ending? + later) := by
  induction deliveries generalizing later with
  | nil =>
    have hnone : later = 0 := Multiset.rel_zero_left.mp h
    rw [hnone]
    exact .zero
  | cons d ds ih =>
    simp only [List.map_cons, List.filterMap_cons] at h ih ⊢
    rcases g.judge_cases maxAttempts attempt d with
      ⟨t, hv, ha, hn⟩ | ⟨t, hv, ha, hn⟩ | ⟨b, diagnostics, hv, _, hb⟩
    all_goals
      simp only [hv, Verdict.replacement?, Verdict.ending?, List.map_cons, ← Multiset.cons_coe,
        Multiset.cons_add] at h ⊢
    · have hend : g.EndsAs attempt d.1.artifact (t.artifact.id, t.attempts) :=
        .here (by rw [ha]) hn
      exact .cons hend (ih h)
    · have hend : g.EndsAs attempt d.1.artifact (t.lastId, t.attempts) := .here ha hn
      exact .cons hend (ih h)
    · obtain ⟨e, rest, ⟨z, hline, hz⟩, hrest, rfl⟩ := Multiset.rel_cons_left.mp h
      have hend : g.EndsAs attempt d.1.artifact e := ⟨z, .replaced hb hline, hz⟩
      rw [Multiset.add_cons]
      exact .cons hend (ih hrest)

/-- Whatever ends in a batch ends with the attempt of the batch. -/
theorem Compiles.ending_attempt (h : b.Compiles context maxAttempts attempt tests)
    (he : e ∈ (b.verdicts g).filterMap Verdict.ending?) : e.2 = attempt := by
  obtain ⟨v, hv, he⟩ := List.mem_filterMap.mp he
  rw [h.verdicts_eq g] at hv
  obtain ⟨d, _, rfl⟩ := List.mem_map.mp hv
  rcases g.judge_cases maxAttempts attempt d with
    ⟨t, ht, _, hn⟩ | ⟨t, ht, _, hn⟩ | ⟨a, diagnostics, ht, _⟩
  · rw [ht] at he
    cases he
    exact hn
  · rw [ht] at he
    cases he
    exact hn
  · rw [ht] at he
    cases he

end Batch

namespace Attempts

/-- The ends of the lines that were pending. -/
theorem ends (h : Attempts g context maxAttempts attempt tests batches) :
    Multiset.Rel (g.EndsAs attempt) tests
      ((batches.flatMap (·.verdicts g)).filterMap Verdict.ending?) := by
  induction h with
  | done attempt => exact .zero
  | batch _ now _ ih =>
    rw [← Multiset.coe_eq_coe.mpr now.artifacts_perm]
    simp only [Batch.replaced, Batch.replacements, now.verdicts_eq g] at ih
    simp only [List.flatMap_cons, List.filterMap_append, ← Multiset.coe_add, now.verdicts_eq g]
    exact Batch.ends g _ ih

/-- Nothing comes of nothing. -/
theorem eq_nil (h : Attempts g context maxAttempts attempt [] batches) : batches = [] := by
  cases h with
  | done => rfl
  | batch some_left => exact absurd rfl some_left

theorem ending_bounds (h : Attempts g context maxAttempts attempt tests batches)
    {e : String × Nat} (he : e ∈ (batches.flatMap (·.verdicts g)).filterMap Verdict.ending?) :
    attempt ≤ e.2 ∧ e.2 ≤ max attempt maxAttempts := by
  induction h with
  | done attempt => simp at he
  | @batch attempt tests b later _ now rest ih =>
    simp only [List.flatMap_cons, List.filterMap_append, List.mem_append] at he
    rcases he with he | he
    · have : e.2 = attempt := now.ending_attempt he
      omega
    · by_cases hmore : attempt < maxAttempts
      · have := ih he
        omega
      · rw [now.replaced_eq_nil (Nat.le_of_not_lt hmore)] at rest
        rw [rest.eq_nil] at he
        simp at he

/-- The lines that end later have one replacement more behind them than a later start counts. -/
theorem regenerated_eq (h : Attempts g context maxAttempts attempt tests batches) :
    ((batches.flatMap (·.verdicts g)).filterMap Verdict.replacement?).length =
      (((batches.flatMap (·.verdicts g)).filterMap Verdict.ending?).map (·.2 - attempt)).sum := by
  induction h with
  | done attempt => rfl
  | @batch attempt tests b later _ now rest ih =>
    let ends := (later.flatMap (·.verdicts g)).filterMap Verdict.ending?
    have hnow : (((b.verdicts g).filterMap Verdict.ending?).map (·.2 - attempt)).sum = 0 := by
      apply List.sum_eq_zero
      intro n hn
      obtain ⟨e, he, rfl⟩ := List.mem_map.mp hn
      have : e.2 = attempt := now.ending_attempt he
      omega
    have hlater : (ends.map (·.2 - attempt)).sum =
        (ends.map (·.2 - (attempt + 1))).sum + ends.length := by
      have hone : ends.map (·.2 - attempt) = ends.map (fun e => e.2 - (attempt + 1) + 1) := by
        apply List.map_congr_left
        intro e he
        have := (rest.ending_bounds he).1
        omega
      rw [hone, List.sum_map_add]
      simp
    have hcount : (b.replacements g).length = ends.length := by
      rw [← List.length_map fun p : PendingTest => p.artifact]
      exact Multiset.card_eq_card_of_rel rest.ends
    have hrest : ((later.flatMap (·.verdicts g)).filterMap Verdict.replacement?).length =
        (ends.map (·.2 - (attempt + 1))).sum := ih
    simp only [List.flatMap_cons, List.filterMap_append, List.map_append, List.sum_append,
      List.length_append]
    change (b.replacements g).length + _ =
      (((b.verdicts g).filterMap Verdict.ending?).map (·.2 - attempt)).sum +
        (ends.map (·.2 - attempt)).sum
    rw [hnow, hlater, hrest, hcount]
    omega

end Attempts

/-- Whatever the collaborators answer, in whatever order and with however many workers, compiling
with repair ends, and the round it gives ends the line of every test exactly once: it lists as many
tests as there were, takes from one to `maxAttempts` attempts for each (one, when none is allowed),
and counts as replacements just the attempts after the first. -/
theorem compileWithRepair_conserves {σ : Type} (c : Collaborators σ) (g : Generator)
    (context : BuildContext) (maxAttempts : Nat) (artifacts : List TestArtifact) (w : World σ) :
    let round := ((compileWithRepair c g context maxAttempts artifacts).run w).1
    Multiset.Rel (g.EndsAs 1) artifacts round.endings ∧
      round.compiled.length + round.abandoned.length = artifacts.length ∧
      (∀ e ∈ round.endings, 1 ≤ e.2 ∧ e.2 ≤ max 1 maxAttempts) ∧
      round.regenerated = (round.endings.map (·.2 - 1)).sum := by
  intro round
  let batches :=
    ((compileBatches c g context maxAttempts (artifacts.map (⟨·, 1⟩))).run w).1
  have h : Attempts g context maxAttempts 1 artifacts batches :=
    compileBatches_attempts c g context maxAttempts 1 artifacts w
  have hends : round.endings.Perm
      ((batches.flatMap (·.verdicts g)).filterMap Verdict.ending?) :=
    (BuildRound.sorted_endings_perm _).trans (BuildRound.ofVerdicts_endings_perm _)
  have hrel : Multiset.Rel (g.EndsAs 1) artifacts round.endings := by
    rw [Multiset.coe_eq_coe.mpr hends]
    exact h.ends
  refine ⟨hrel, ?_, ?_, ?_⟩
  · rw [← BuildRound.length_endings]
    exact (Multiset.card_eq_card_of_rel hrel).symm
  · intro e he
    exact h.ending_bounds (hends.mem_iff.mp he)
  · rw [(hends.map _).sum_eq]
    exact h.regenerated_eq

end TestSynth
