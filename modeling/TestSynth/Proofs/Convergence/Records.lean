import TestSynth.Proofs.Convergence.Rounds
/-!
What the records of a run say. Every round but the last compiled something and was not decided; the
last one decides the outcome.
-/
namespace TestSynth

namespace StopPolicy

/-- The last percentage reaches the target. -/
def Reached (p : StopPolicy) (percentages : List Number.Binary64) : Prop :=
  ∃ latest ∈ percentages.getLast?, p.target.le latest

/-- The last percentages hardly differ. -/
def Flat (p : StopPolicy) (percentages : List Number.Binary64) : Prop :=
  ∃ window ∈ p.lastWindow? percentages, (populationVariance window).lt p.variance

variable {p : StopPolicy} {percentages : List Number.Binary64} {iteration : Nat}
  {outcome : Outcome}

/-- The target comes first, then a plateau, then the budget. -/
theorem evaluate_eq_some_iff (hp : percentages ≠ []) :
    p.evaluate percentages iteration = some outcome ↔
      (outcome = .satisfied ∧ p.Reached percentages) ∨
      (outcome = .plateaued ∧ ¬ p.Reached percentages ∧ p.Flat percentages) ∨
      (outcome = .exhausted ∧ ¬ p.Reached percentages ∧ ¬ p.Flat percentages ∧
        p.maxIterations ≤ iteration) := by
  have hreached : p.Reached percentages ↔ p.target.le (percentages.getLast hp) = true := by
    simp [Reached, List.getLast?_eq_some_getLast hp]
  have hflat : p.Flat percentages ↔ ((p.lastWindow? percentages).any fun w =>
      (populationVariance w).lt p.variance) = true := by
    simp [Flat, Option.any_eq_true]
  rw [hreached, hflat]
  simp only [evaluate, List.getLast?_eq_some_getLast hp, Option.bind_some]
  split
  · next h =>
    simp only [h, Option.some.injEq, not_true_eq_false, false_and, and_false, or_false, and_true]
    exact eq_comm
  · next h =>
    split
    · next hw =>
      simp only [h, hw, Option.some.injEq, Bool.false_eq_true, not_true_eq_false,
        not_false_eq_true, false_and, and_false, or_false, false_or, and_true]
      exact eq_comm
    · next hw =>
      split
      · next hb =>
        simp only [h, hw, hb, Option.some.injEq, Bool.false_eq_true, not_false_eq_true,
          and_false, false_or, and_true]
        exact eq_comm
      · next hb => simp [h, hw, hb]

theorem isFatal_of_evaluate_eq_some (hp : percentages ≠ [])
    (h : p.evaluate percentages iteration = some outcome) : outcome.isFatal = false := by
  rcases (evaluate_eq_some_iff hp).1 h with ⟨rfl, _⟩ | ⟨rfl, _⟩ | ⟨rfl, _⟩ <;> rfl

end StopPolicy

namespace Run

variable {σ : Type} {r : Run σ} {initial : List TestArtifact} {w w₁ w₂ : World σ}
  {iteration : Nat} {round : Round} {earlier records : List IterationRecord}
  {m : Measurement} {record : IterationRecord} {outcome : Outcome}

theorem decision_eq_none_iff : r.decision iteration m records = none ↔
    0 < m.compiled ∧ r.policy.evaluate (percentages records) iteration = none := by
  unfold decision
  split
  · next h => simp [h]
  · next h => simp [Nat.pos_of_ne_zero h]

theorem decision_eq_some (hd : r.decision iteration m records = some outcome) :
    (m.compiled = 0 ∧ outcome.isFatal) ∨
    (0 < m.compiled ∧ r.policy.evaluate (percentages records) iteration = some outcome) := by
  unfold decision at hd
  split at hd
  · next h =>
    cases hd
    exact .inl ⟨h, rfl⟩
  · next h => exact .inr ⟨Nat.pos_of_ne_zero h, hd⟩

/-- Something compiled in the last of the records, and the policy goes on after them. -/
def GoesOn (r : Run σ) (records : List IterationRecord) : Prop :=
  (∃ last ∈ records.getLast?, 0 < last.compiled) ∧
    r.policy.evaluate (percentages records) records.length = none

/-- The directory cannot be prepared, or there is no test. -/
def CannotStart (r : Run σ) (initial : List TestArtifact) (w : World σ) : Prop :=
  (∃ e, (r.prepare.run w).1 = .error e) ∨ initial = []

theorem CannotStart.prepare (h : r.CannotStart initial w) :
    (∃ e w₁, r.prepare.run w = (.error e, w₁)) ∨
      ∃ w₁, r.prepare.run w = (.ok (), w₁) ∧ initial = [] := by
  cases hp : r.prepare.run w with
  | mk prepared w₁ =>
    cases prepared with
    | error e => exact .inl ⟨e, w₁, rfl⟩
    | ok =>
      rcases h with ⟨e, he⟩ | hnil
      · rw [hp] at he
        cases he
      · exact .inr ⟨w₁, rfl, hnil⟩

/-- What the records before a round have in common. -/
structure Underway (r : Run σ) (iteration : Nat) (earlier : List IterationRecord) : Prop where
  counted : earlier.length + 1 = iteration
  numbered : earlier.map (·.iteration) = List.range' 1 earlier.length
  going_on : ∀ p, p <+: earlier → p ≠ [] → r.GoesOn p

theorem Underway.numbered_next (h : r.Underway iteration earlier)
    (hr : record.iteration = iteration) :
    (earlier ++ [record]).map (·.iteration) = List.range' 1 (earlier ++ [record]).length := by
  rw [List.map_append, h.numbered, List.length_append, ← List.range'_append_1]
  simp [hr, ← h.counted, Nat.add_comm]

/-- A round that goes on keeps what the records have in common. -/
theorem Underway.next (h : r.Underway iteration earlier)
    (observed : (r.observe iteration round).run.run w = (some (m, record), w₁))
    (undecided : r.decision iteration m (earlier ++ [record]) = none) :
    r.Underway (iteration + 1) (earlier ++ [record]) := by
  obtain ⟨_, hnumber, hcompiled, _⟩ := observe_eq_some observed
  obtain ⟨hpos, hpolicy⟩ := decision_eq_none_iff.1 undecided
  have hlength : (earlier ++ [record]).length = iteration := by simp [h.counted]
  refine ⟨by rw [hlength], h.numbered_next hnumber, ?_⟩
  intro p hp hne
  rcases List.prefix_concat_iff.1 hp with rfl | hp
  · refine ⟨⟨record, by simp, hcompiled ▸ hpos⟩, ?_⟩
    rw [hlength]
    exact hpolicy
  · exact h.going_on p hp hne

namespace Reaches

theorem started (h : r.Reaches initial w iteration round earlier w₁) :
    ¬ r.CannotStart initial w := by
  induction h with
  | first prepared some_test =>
    rintro (⟨e, he⟩ | h)
    · simp [prepared] at he
    · exact some_test h
  | next _ _ _ _ ih => exact ih

theorem underway (h : r.Reaches initial w iteration round earlier w₁) :
    r.Underway iteration earlier := by
  induction h with
  | first => exact ⟨rfl, rfl, fun p hp hne => absurd (List.prefix_nil.1 hp) hne⟩
  | next _ observed undecided _ ih => exact ih.next observed undecided

/-- The number of a round that a run gets to is never beyond the budget. -/
theorem within_budget (hb : 1 ≤ r.settings.convergence.maxIterations)
    (h : r.Reaches initial w iteration round earlier w₁) :
    iteration ≤ r.settings.convergence.maxIterations := by
  cases h with
  | first => exact hb
  | next _ _ undecided _ => exact lt_of_decision_none undecided

end Reaches

/-- What a run that is decided ends with: a round that it gets to, the record of it and the
outcome that it decides. -/
structure Decided (r : Run σ) (initial : List TestArtifact) (w : World σ) (outcome : Outcome)
    (records : List IterationRecord) (m : Measurement) (record : IterationRecord) (round : Round)
    (earlier : List IterationRecord) (w₁ w₂ : World σ) : Prop where
  reached : r.Reaches initial w records.length round earlier w₁
  observed : (r.observe records.length round).run.run w₁ = (some (m, record), w₂)
  recorded : records = earlier ++ [record]
  decided : r.decision records.length m records = some outcome

/-- From every round that a run gets to, the run gets to one that breaks off or decides. -/
theorem Reaches.ends {iteration : Nat} {round : Round} {earlier : List IterationRecord}
    {w₁ : World σ} (h : r.Reaches initial w iteration round earlier w₁) :
    (∃ iteration round earlier w₁, r.Reaches initial w iteration round earlier w₁ ∧
      r.Overflows iteration round w₁) ∨
    ∃ outcome records m record round earlier w₁ w₂,
      r.Decided initial w outcome records m record round earlier w₁ w₂ := by
  cases ho : (r.observe iteration round).run.run w₁ with
  | mk observed w₂ =>
    cases observed with
    | none => exact .inl ⟨_, _, _, _, h, observe_eq_none_iff.1 (by rw [ho])⟩
    | some observed =>
      cases hd : r.decision iteration observed.1 (earlier ++ [observed.2]) with
      | none =>
        have := lt_of_decision_none hd
        cases hn : (r.nextRound (iteration + 1) observed.1).run w₂ with
        | mk next w₃ => exact Reaches.ends (.next h ho hd hn)
      | some outcome =>
        have hlength : (earlier ++ [observed.2]).length = iteration := by
          simp [h.underway.counted]
        refine .inr ⟨outcome, earlier ++ [observed.2], observed.1, observed.2, round, earlier, w₁,
          w₂, ?_, ?_, rfl, ?_⟩ <;> rw [hlength]
        · exact h
        · exact ho
        · exact hd
termination_by r.settings.convergence.maxIterations - iteration

theorem Decided.run_drive
    (h : r.Decided initial w outcome records m record round earlier w₁ w₂) :
    (r.drive initial).run.run w = (some (outcome, records), w₂) := by
  have hd := h.decided
  rw [h.reached.run_drive]
  rw [h.recorded] at hd ⊢
  exact run_iterate_end (h.recorded ▸ h.observed) hd

/-- Where a run breaks off: at the start of a round that it gets to. -/
theorem run_drive_of_overflows (h : r.Reaches initial w iteration round earlier w₁)
    (ho : r.Overflows iteration round w₁) : ((r.drive initial).run.run w).1 = none := by
  obtain ⟨w₂, hobserved⟩ := ho.observe
  rw [h.run_drive, run_iterate_none hobserved]

theorem run_drive_of_cannotStart (h : r.CannotStart initial w) :
    ∃ outcome, ((r.drive initial).run.run w).1 = some (outcome, []) ∧ outcome.isFatal := by
  rcases h.prepare with ⟨e, w₁, hp⟩ | ⟨w₁, hp, rfl⟩
  · exact ⟨_, by rw [run_drive_error hp], rfl⟩
  · exact ⟨_, by rw [run_drive_nil hp], rfl⟩

/-- A run that can start gets to its first round. -/
theorem exists_reaches_first (h : ¬ r.CannotStart initial w) :
    ∃ w₁, r.Reaches initial w 1 (.initial initial) [] w₁ := by
  cases hp : r.prepare.run w with
  | mk prepared w₁ =>
    cases prepared with
    | error e => exact absurd (.inl ⟨e, by rw [hp]⟩) h
    | ok => exact ⟨w₁, .first hp fun hnil => h (.inr hnil)⟩

/-- What the records and the outcome of a run that ends have to do with each other. -/
structure History (r : Run σ) (initial : List TestArtifact) (w : World σ) (outcome : Outcome)
    (records : List IterationRecord) : Prop where
  numbered : records.map (·.iteration) = List.range' 1 records.length
  within_budget : records.length ≤ r.settings.convergence.maxIterations
  going_on : ∀ p, p <+: records → p ≠ [] → p ≠ records → r.GoesOn p
  empty_iff : records = [] ↔ r.CannotStart initial w
  fatal_iff : outcome.isFatal ↔
    r.CannotStart initial w ∨ ∃ last ∈ records.getLast?, last.compiled = 0
  decided : outcome.isFatal = false →
    r.policy.evaluate (percentages records) records.length = some outcome
  satisfied_iff : outcome.isFatal = false →
    (outcome = .satisfied ↔ r.policy.Reached (percentages records))
  plateaued_iff : outcome.isFatal = false → (outcome = .plateaued ↔
    ¬ r.policy.Reached (percentages records) ∧ r.policy.Flat (percentages records))
  exhausted_iff : outcome.isFatal = false → (outcome = .exhausted ↔
    ¬ r.policy.Reached (percentages records) ∧ ¬ r.policy.Flat (percentages records) ∧
      records.length = r.settings.convergence.maxIterations)

theorem History.of_cannotStart (h : r.CannotStart initial w) (hf : outcome.isFatal) :
    r.History initial w outcome [] where
  numbered := rfl
  within_budget := Nat.zero_le _
  going_on p hp hne := absurd (List.prefix_nil.1 hp) hne
  empty_iff := by simp [h]
  fatal_iff := by simp [h, hf]
  decided hn := by simp [hf] at hn
  satisfied_iff hn := by simp [hf] at hn
  plateaued_iff hn := by simp [hf] at hn
  exhausted_iff hn := by simp [hf] at hn

namespace Decided

variable (h : r.Decided initial w outcome records m record round earlier w₁ w₂)
include h

theorem underway : r.Underway records.length earlier := h.reached.underway

theorem records_ne_nil : records ≠ [] := by simp [h.recorded]

theorem numbered : records.map (·.iteration) = List.range' 1 records.length := by
  have hnumber := (observe_eq_some h.observed).2.1
  have hnext := h.underway.numbered_next hnumber
  rwa [← h.recorded] at hnext

theorem going_on {p : List IterationRecord} (hp : p <+: records) (hne : p ≠ [])
    (hproper : p ≠ records) : r.GoesOn p := by
  rw [h.recorded] at hp hproper
  rcases List.prefix_concat_iff.1 hp with rfl | hp
  · exact absurd rfl hproper
  · exact h.underway.going_on p hp hne

/-- The last record tells how much compiled in the last round. -/
theorem last_compiled : (∃ last ∈ records.getLast?, last.compiled = 0) ↔ m.compiled = 0 := by
  have hcompiled := (observe_eq_some h.observed).2.2.1
  simp [h.recorded, hcompiled]

theorem isFatal_iff : outcome.isFatal ↔ m.compiled = 0 := by
  rcases decision_eq_some h.decided with ⟨hc, hf⟩ | ⟨hc, he⟩
  · simp [hc, hf]
  · have hp : percentages records ≠ [] := by simp [percentages, h.records_ne_nil]
    have hf := StopPolicy.isFatal_of_evaluate_eq_some hp he
    simp [hf, Nat.ne_of_gt hc]

theorem evaluated (hf : outcome.isFatal = false) :
    r.policy.evaluate (percentages records) records.length = some outcome := by
  rcases decision_eq_some h.decided with ⟨_, hf'⟩ | ⟨_, he⟩
  · simp [hf] at hf'
  · exact he

/-- Which of the outcomes it is that the whole of the records decides. -/
theorem outcome_cases (hb : 1 ≤ r.settings.convergence.maxIterations)
    (hf : outcome.isFatal = false) :
    (outcome = .satisfied ∧ r.policy.Reached (percentages records)) ∨
    (outcome = .plateaued ∧ ¬ r.policy.Reached (percentages records) ∧
      r.policy.Flat (percentages records)) ∨
    (outcome = .exhausted ∧ ¬ r.policy.Reached (percentages records) ∧
      ¬ r.policy.Flat (percentages records) ∧
      records.length = r.settings.convergence.maxIterations) := by
  have hp : percentages records ≠ [] := by simp [percentages, h.records_ne_nil]
  rcases (StopPolicy.evaluate_eq_some_iff hp).1 (h.evaluated hf) with hs | hs | ⟨ho, hr, hw, hm⟩
  · exact .inl hs
  · exact .inr (.inl hs)
  · exact .inr (.inr ⟨ho, hr, hw, Nat.le_antisymm (h.reached.within_budget hb) hm⟩)

/-- The records of a run that is decided, and its outcome. -/
theorem history (hb : 1 ≤ r.settings.convergence.maxIterations) :
    r.History initial w outcome records where
  numbered := h.numbered
  within_budget := h.reached.within_budget hb
  going_on _ hp hne hproper := h.going_on hp hne hproper
  empty_iff := by simp [h.records_ne_nil, h.reached.started]
  fatal_iff := by rw [h.isFatal_iff, h.last_compiled, or_iff_right h.reached.started]
  decided := h.evaluated
  satisfied_iff hf := by
    rcases h.outcome_cases hb hf with ⟨rfl, hr⟩ | ⟨rfl, hr, _⟩ | ⟨rfl, hr, _⟩ <;> simp [hr]
  plateaued_iff hf := by
    rcases h.outcome_cases hb hf with ⟨rfl, hr⟩ | ⟨rfl, hr, hw⟩ | ⟨rfl, hr, hw, _⟩ <;>
      simp [*]
  exhausted_iff hf := by
    rcases h.outcome_cases hb hf with ⟨rfl, hr⟩ | ⟨rfl, hr, hw⟩ | ⟨rfl, hr, hw, hl⟩ <;>
      simp [*]

end Decided

/-- A counter does not fit into a word in a round that the run gets to. -/
def BreaksOff (r : Run σ) (initial : List TestArtifact) (w : World σ) : Prop :=
  ∃ iteration round earlier w₁, r.Reaches initial w iteration round earlier w₁ ∧
    r.Overflows iteration round w₁

/-- How a run ends: it breaks off, or it has a history. -/
theorem run_drive_cases (initial : List TestArtifact) (w : World σ)
    (hb : 1 ≤ r.settings.convergence.maxIterations) :
    (r.BreaksOff initial w ∧ ((r.drive initial).run.run w).1 = none) ∨
    ∃ outcome records, ((r.drive initial).run.run w).1 = some (outcome, records) ∧
      r.History initial w outcome records := by
  by_cases hstart : r.CannotStart initial w
  · obtain ⟨outcome, hd, hf⟩ := run_drive_of_cannotStart hstart
    exact .inr ⟨outcome, [], hd, .of_cannotStart hstart hf⟩
  · obtain ⟨w₁, hfirst⟩ := exists_reaches_first hstart
    rcases hfirst.ends with
      ⟨iteration, round, earlier, w₂, hr, ho⟩ | ⟨outcome, records, _, _, _, _, _, _, hd⟩
    · exact .inl ⟨⟨iteration, round, earlier, w₂, hr, ho⟩, run_drive_of_overflows hr ho⟩
    · exact .inr ⟨outcome, records, by rw [hd.run_drive], hd.history hb⟩

/-- A run ends with a history exactly when it does not break off, and never goes beyond its
budget. -/
theorem drive_ends_unless_breaksOff (r : Run σ) (initial : List TestArtifact) (w : World σ)
    (hb : 1 ≤ r.settings.convergence.maxIterations) :
    (∀ iteration round earlier w₁, r.Reaches initial w iteration round earlier w₁ →
      iteration ≤ r.settings.convergence.maxIterations) ∧
    (((r.drive initial).run.run w).1 = none ↔ r.BreaksOff initial w) ∧
    ∀ outcome records, ((r.drive initial).run.run w).1 = some (outcome, records) →
      r.History initial w outcome records := by
  refine ⟨fun _ _ _ _ h => h.within_budget hb, ⟨?_, ?_⟩, ?_⟩
  · intro hnone
    rcases run_drive_cases initial w hb with ⟨h, _⟩ | ⟨_, _, hsome, _⟩
    · exact h
    · simp [hnone] at hsome
  · rintro ⟨_, _, _, _, hr, ho⟩
    exact run_drive_of_overflows hr ho
  · intro outcome records hsome
    rcases run_drive_cases initial w hb with ⟨_, hnone⟩ | ⟨o, rs, h, hh⟩
    · simp [hnone] at hsome
    · cases h.symm.trans hsome
      exact hh

/-- A run whose tests all compile and have the same trace. -/
def reporting (trace : String) : Run Unit where
  collaborators :=
    { compile := fun q => pure (.ok (.compiled q.buildDir))
      run := fun _ => pure (.ok { exitCode := some 0 })
      collect := fun _ => pure (.ok { trace := some trace }) }
  settings := {}
  generator := ⟨{}, {}, .ofSettings {} {}, ⟨"."⟩⟩
  context := {}
  runId := "run"

def loneTest : TestArtifact :=
  { id := "twice_NoThrow", className := "", methodName := "twice", kind := .noThrow
    sourceText := "", filePath := sourceFile "twice_NoThrow" }

theorem drive_ends_unless_breaksOff_reporting :
    1 ≤ (reporting "").settings.convergence.maxIterations ∧
      ((((reporting "").drive [loneTest]).run.run ⟨{}, ()⟩).1 = none ↔
        (reporting "").BreaksOff [loneTest] ⟨{}, ()⟩) :=
  ⟨by decide, (drive_ends_unless_breaksOff (reporting "") [loneTest] ⟨{}, ()⟩ (by decide)).2.1⟩

/-- Totals of two files that fit into words, and their sum does not. -/
def largeTotals : String :=
  "SF:box.cpp\nLH:0\nLF:18446744073709551615\nend_of_record\n" ++
    "SF:ring.cpp\nLH:0\nLF:1\nend_of_record\n"

theorem drive_breaksOff_on_largeTotals :
    1 ≤ (reporting largeTotals).settings.convergence.maxIterations ∧
      (((reporting largeTotals).drive [loneTest]).run.run ⟨{}, ()⟩).1 = none := by
  have hfirst : (reporting largeTotals).Reaches [loneTest] ⟨{}, ()⟩ 1 (.initial [loneTest]) []
      ((reporting largeTotals).prepare.run ⟨{}, ()⟩).2 := .first rfl (List.cons_ne_nil _ _)
  refine ⟨by decide, run_drive_of_overflows hfirst (observe_eq_none_iff.1 ?_)⟩
  decide +kernel

end Run

end TestSynth
