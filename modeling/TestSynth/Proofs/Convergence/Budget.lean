import TestSynth.Proofs.Convergence.Attempts
import TestSynth.Proofs.Convergence.Records
/-!
Runs that differ in their budgets of iterations. Nothing but the decision to stop looks at the
budget, and nothing but the times in the records looks at the clock, so that a run with more budget
does the same and then goes on.
-/
namespace TestSynth

variable {σ α β : Type}

namespace Collaborators

/-- The same collaborators with another clock. -/
def withClock (c : Collaborators σ) (now : StateM (World σ) Timestamp) : Collaborators σ :=
  { c with now }

section Clock
variable (c : Collaborators σ) (now : StateM (World σ) Timestamp)

/-- Which job is ready next does not depend on the clock. -/
theorem inParallel_withClock (workers : Nat) (job : α → StateM (World σ) β) (items : List α) :
    (c.withClock now).inParallel workers job items = c.inParallel workers job items := by
  induction items using inParallel.induct c workers with
  | case1 => rw [inParallel, inParallel]
  | case2 first others ih =>
    rw [inParallel, inParallel]
    refine bind_congr fun w => bind_congr fun result => ?_
    exact congrArg (· >>= fun later => pure (_ :: later)) (ih w)

theorem compileBatch_withClock (workers : Nat) (requests : List CompileRequest) :
    (c.withClock now).compileBatch workers requests = c.compileBatch workers requests :=
  c.inParallel_withClock now workers _ _

end Clock

end Collaborators

section Clock
variable (c : Collaborators σ) (now : StateM (World σ) Timestamp) (g : Generator)
  (context : BuildContext) (maxAttempts : Nat)

theorem compileBatches_withClock (pending : List PendingTest) :
    compileBatches (c.withClock now) g context maxAttempts pending =
      compileBatches c g context maxAttempts pending := by
  induction pending using compileBatches.induct g context maxAttempts with
  | case1 => rw [compileBatches, compileBatches]
  | case2 first others ih =>
    rw [compileBatches, compileBatches, c.compileBatch_withClock now]
    refine bind_congr fun answers => ?_
    exact congrArg (· >>= fun later => pure (_ :: later)) (ih answers)

theorem compileWithRepair_withClock (tests : List TestArtifact) :
    compileWithRepair (c.withClock now) g context maxAttempts tests =
      compileWithRepair c g context maxAttempts tests := by
  rw [compileWithRepair, compileWithRepair, compileBatches_withClock]

end Clock

namespace StopPolicy

/-- The same policy with another budget. -/
def withBudget (p : StopPolicy) (m : Nat) : StopPolicy := { p with maxIterations := m }

variable {p : StopPolicy} {percentages : List Number.Binary64} {iteration m : Nat}
  {outcome : Outcome}

/-- A decision that is not about the budget is the same with another one. -/
theorem evaluate_withBudget_of_ne (h : p.evaluate percentages iteration = some outcome)
    (hne : outcome ≠ .exhausted) :
    (p.withBudget m).evaluate percentages iteration = some outcome := by
  have hp : percentages ≠ [] := by
    rintro rfl
    cases h
  rcases (evaluate_eq_some_iff hp).1 h with ⟨rfl, hr⟩ | ⟨rfl, hr, hw⟩ | ⟨rfl, _⟩
  · exact (evaluate_eq_some_iff hp).2 (.inl ⟨rfl, hr⟩)
  · exact (evaluate_eq_some_iff hp).2 (.inr (.inl ⟨rfl, hr, hw⟩))
  · exact absurd rfl hne

/-- With budget left a policy goes on, unless it stops for another reason than the budget. -/
theorem evaluate_withBudget_eq_none (hm : iteration < m)
    (h : ∀ outcome, p.evaluate percentages iteration = some outcome → outcome = .exhausted) :
    (p.withBudget m).evaluate percentages iteration = none := by
  cases hq : (p.withBudget m).evaluate percentages iteration with
  | none => rfl
  | some outcome =>
    have hne : outcome ≠ .exhausted := by
      rintro rfl
      have hp : percentages ≠ [] := by
        rintro rfl
        cases hq
      rcases (evaluate_eq_some_iff hp).1 hq with ⟨ho, _⟩ | ⟨ho, _⟩ | ⟨_, _, _, hle⟩
      · cases ho
      · cases ho
      · exact absurd hm (Nat.not_lt_of_le hle)
    have hshort : ((p.withBudget m).withBudget p.maxIterations).evaluate percentages iteration =
        some outcome := evaluate_withBudget_of_ne hq hne
    exact absurd (h outcome hshort) hne

end StopPolicy

/-- A record but for the time. -/
def IterationRecord.untimed (r : IterationRecord) : IterationRecord :=
  { r with recordedAt := default }

/-- Records but for their times. -/
def untimed (records : List IterationRecord) : List IterationRecord :=
  records.map IterationRecord.untimed

theorem percentages_of_untimed {records records' : List IterationRecord}
    (h : untimed records = untimed records') : percentages records = percentages records' := by
  have hmap := congrArg (List.map (·.snapshot.percentage)) h
  rw [untimed, untimed, List.map_map, List.map_map] at hmap
  exact hmap

namespace Run

/-- The same run with another budget of iterations and another clock. -/
def withBudget (r : Run σ) (n : Nat) (now : StateM (World σ) Timestamp) : Run σ :=
  { r with
    collaborators := r.collaborators.withClock now
    settings := { r.settings with
      convergence := { r.settings.convergence with maxIterations := n } } }

variable {r : Run σ} {now now' : StateM (World σ) Timestamp} {n m iteration : Nat}
  {round : Round} {tests initial : List TestArtifact} {w w₁ w₂ : World σ}
  {earlier earlier' records : List IterationRecord} {outcome : Outcome}
  {measured : Measurement} {record record' : IterationRecord}

theorem measure_withBudget (r : Run σ) (n : Nat) (now : StateM (World σ) Timestamp)
    (iteration : Nat) (tests : List TestArtifact) :
    (r.withBudget n now).measure iteration tests = r.measure iteration tests := by
  have hgather : (r.withBudget n now).gather iteration tests = r.gather iteration tests := by
    rw [gather, gather]
    refine Eq.trans (congrArg (· >>= _) (compileWithRepair_withClock ..)) ?_
    refine bind_congr fun built => ?_
    exact congrArg (· >>= fun collected => pure (built, collected.filterMap (·.2)))
      (Collaborators.inParallel_withClock ..)
  rw [measure, measure, hgather]
  rfl

theorem run_observe_withBudget (n : Nat) (now : StateM (World σ) Timestamp)
    (h : (r.measure iteration round.tests).run.run w = (some measured, w₁)) :
    ((r.withBudget n now).observe iteration round).run.run w =
      (some (measured, (((r.withBudget n now).record iteration round measured).run w₁).1),
        (now.run w₁).2) := by
  rw [← r.measure_withBudget n now] at h
  exact (RunM.run_bind_some h).trans (RunM.run_bind_liftM _ _ _)

theorem run_observe_withBudget_none (n : Nat) (now : StateM (World σ) Timestamp)
    (h : (r.measure iteration round.tests).run.run w = (none, w₁)) :
    ((r.withBudget n now).observe iteration round).run.run w = (none, w₁) := by
  rw [← r.measure_withBudget n now] at h
  exact RunM.run_bind_none h

/-- What is measured, and the record but for the time, do not depend on budget and clock. -/
theorem observe_withBudget (hclock : ∀ w, (now.run w).2 = (now'.run w).2)
    (h : ((r.withBudget n now).observe iteration round).run.run w =
      (some (measured, record), w₁)) :
    ∃ record', ((r.withBudget m now').observe iteration round).run.run w =
      (some (measured, record'), w₁) ∧ record'.untimed = record.untimed := by
  cases hm : (r.measure iteration round.tests).run.run w with
  | mk result w₂ =>
    cases result with
    | none => cases h.symm.trans (run_observe_withBudget_none n now hm)
    | some measured' =>
      cases h.symm.trans (run_observe_withBudget n now hm)
      have hother := run_observe_withBudget m now' hm
      rw [← hclock] at hother
      exact ⟨_, hother, rfl⟩

theorem observe_withBudget_none (m : Nat) (now' : StateM (World σ) Timestamp)
    (h : ((r.withBudget n now).observe iteration round).run.run w = (none, w₁)) :
    ((r.withBudget m now').observe iteration round).run.run w = (none, w₁) := by
  cases hm : (r.measure iteration round.tests).run.run w with
  | mk result w₂ =>
    cases result with
    | none =>
      cases h.symm.trans (run_observe_withBudget_none n now hm)
      exact run_observe_withBudget_none m now' hm
    | some measured => cases h.symm.trans (run_observe_withBudget n now hm)

section Decision
variable (hrecords : untimed earlier' = untimed earlier)
  (hrecord : record'.untimed = record.untimed)
include hrecords hrecord

theorem untimed_append : untimed (earlier' ++ [record']) = untimed (earlier ++ [record]) := by
  rw [untimed, untimed, List.map_append, List.map_append, List.map_singleton, List.map_singleton,
    hrecord]
  exact congrArg (· ++ [record.untimed]) hrecords

/-- A decision that is not about the budget is the same with another one. -/
theorem decision_withBudget_of_ne (hne : outcome ≠ .exhausted)
    (h : (r.withBudget n now).decision iteration measured (earlier ++ [record]) = some outcome) :
    (r.withBudget m now').decision iteration measured (earlier' ++ [record']) = some outcome := by
  have hp := percentages_of_untimed (untimed_append hrecords hrecord)
  unfold decision at h ⊢
  rw [hp]
  split at h
  · next hc => rw [if_pos hc, h]
  · next hc =>
    rw [if_neg hc]
    exact StopPolicy.evaluate_withBudget_of_ne (p := (r.withBudget n now).policy) h hne

/-- With budget left a run goes on, unless something other than the budget stops it. -/
theorem decision_withBudget_eq_none (now' : StateM (World σ) Timestamp) (hm : iteration < m)
    (h : ∀ outcome, (r.withBudget n now).decision iteration measured (earlier ++ [record]) =
      some outcome → outcome = .exhausted) :
    (r.withBudget m now').decision iteration measured (earlier' ++ [record']) = none := by
  have hp := percentages_of_untimed (untimed_append hrecords hrecord)
  unfold decision at h ⊢
  rw [hp]
  split at h
  · next hc => cases h _ rfl
  · next hc =>
    rw [if_neg hc]
    exact StopPolicy.evaluate_withBudget_eq_none (p := (r.withBudget n now).policy) hm h

end Decision

/-- Whatever round a run gets to, the run with more budget gets to it as well, with the same
records but for their times. -/
theorem Reaches.withBudget (hclock : ∀ w, (now.run w).2 = (now'.run w).2) (hnm : n ≤ m)
    (h : (r.withBudget n now).Reaches initial w iteration round earlier w₁) :
    ∃ earlier', (r.withBudget m now').Reaches initial w iteration round earlier' w₁ ∧
      untimed earlier' = untimed earlier := by
  induction h with
  | first prepared some_test => exact ⟨[], .first prepared some_test, rfl⟩
  | next _ observed undecided made ih =>
    obtain ⟨earlier', hreached, hrecords⟩ := ih
    obtain ⟨record', hobserved, hrecord⟩ := observe_withBudget (m := m) hclock observed
    have hleft := Nat.lt_of_lt_of_le (lt_of_decision_none undecided) hnm
    have hundecided := decision_withBudget_eq_none hrecords hrecord now' hleft fun outcome ho => by
      rw [undecided] at ho
      cases ho
    exact ⟨_, .next hreached hobserved hundecided made, untimed_append hrecords hrecord⟩

/-- The records before a round stay the first ones of the run. -/
theorem prefix_of_iterate {iteration : Nat} {round : Round} {earlier : List IterationRecord}
    {w : World σ}
    (h : (r.iterate iteration round earlier).run.run w = (some (outcome, records), w₁)) :
    earlier <+: records := by
  cases ho : (r.observe iteration round).run.run w with
  | mk observed w₂ =>
    cases observed with
    | none => cases h.symm.trans (run_iterate_none ho)
    | some observed =>
      cases hd : r.decision iteration observed.1 (earlier ++ [observed.2]) with
      | some decided =>
        cases h.symm.trans (run_iterate_end ho hd)
        exact List.prefix_append _ _
      | none =>
        have := lt_of_decision_none hd
        cases hn : (r.nextRound (iteration + 1) observed.1).run w₂ with
        | mk next w₃ =>
          rw [run_iterate_next ho hd hn] at h
          exact (List.prefix_append _ _).trans (prefix_of_iterate h)
termination_by r.settings.convergence.maxIterations - iteration

theorem Reaches.records_prefix (h : r.Reaches initial w iteration round earlier w₁)
    (hends : ((r.drive initial).run.run w).1 = some (outcome, records)) : earlier <+: records := by
  rw [h.run_drive] at hends
  cases hi : (r.iterate iteration round earlier).run.run w₁ with
  | mk result w₂ =>
    rw [hi] at hends
    cases hends
    exact prefix_of_iterate hi

/-- The run with less budget ended for another reason than that, and the one with more ends in the
same way. -/
def EndsAlike (short long : Option (Outcome × List IterationRecord)) : Prop :=
  (short = none ∧ long = none) ∨ ∃ outcome records records', outcome ≠ .exhausted ∧
    short = some (outcome, records) ∧ long = some (outcome, records') ∧
      untimed records' = untimed records

/-- The run with less budget ended for the budget, and the one with more goes on. -/
def GoesOnFrom (r : Run σ) (initial : List TestArtifact) (w : World σ) (iteration : Nat)
    (short : Option (Outcome × List IterationRecord)) : Prop :=
  ∃ records next earlier w₁, short = some (.exhausted, records) ∧
    r.Reaches initial w iteration next earlier w₁ ∧ untimed earlier = untimed records

theorem endsAlike_of_cannotStart (h : (r.withBudget n now).CannotStart initial w) :
    EndsAlike (((r.withBudget n now).drive initial).run.run w).1
      (((r.withBudget m now').drive initial).run.run w).1 := by
  -- The budget has no part in the preparation.
  have hsame : (r.withBudget m now').prepare = (r.withBudget n now).prepare := rfl
  rcases h.prepare with ⟨e, w₁, hshort⟩ | ⟨w₁, hshort, rfl⟩
  · have hlong : (r.withBudget m now').prepare.run w = (.error e, w₁) := hsame ▸ hshort
    exact .inr ⟨_, [], [], Outcome.noConfusion, by rw [run_drive_error hshort],
      by rw [run_drive_error hlong], rfl⟩
  · have hlong : (r.withBudget m now').prepare.run w = (.ok (), w₁) := hsame ▸ hshort
    exact .inr ⟨_, [], [], Outcome.noConfusion, by rw [run_drive_nil hshort],
      by rw [run_drive_nil hlong], rfl⟩

theorem endsAlike_of_overflows (hclock : ∀ w, (now.run w).2 = (now'.run w).2) (hnm : n ≤ m)
    (h : (r.withBudget n now).Reaches initial w iteration round earlier w₁)
    (ho : (r.withBudget n now).Overflows iteration round w₁) :
    EndsAlike (((r.withBudget n now).drive initial).run.run w).1
      (((r.withBudget m now').drive initial).run.run w).1 := by
  obtain ⟨earlier', hreached, _⟩ := h.withBudget hclock hnm
  obtain ⟨w₂, hobserved⟩ := ho.observe
  have hlong := observe_withBudget_none m now' hobserved
  refine .inl ⟨run_drive_of_overflows h ho, ?_⟩
  rw [hreached.run_drive, run_iterate_none hlong]

/-- With more budget a run ends alike, or goes on where the budget had run out. -/
theorem run_drive_withBudget_cases (hclock : ∀ w, (now.run w).2 = (now'.run w).2) (hn : 1 ≤ n)
    (hnm : n < m) :
    EndsAlike (((r.withBudget n now).drive initial).run.run w).1
      (((r.withBudget m now').drive initial).run.run w).1 ∨
    (r.withBudget m now').GoesOnFrom initial w (n + 1)
      (((r.withBudget n now).drive initial).run.run w).1 := by
  by_cases hstart : (r.withBudget n now).CannotStart initial w
  · exact .inl (endsAlike_of_cannotStart hstart)
  obtain ⟨w₁, hfirst⟩ := exists_reaches_first hstart
  rcases hfirst.ends with
    ⟨_, _, _, _, hr, ho⟩ | ⟨outcome, records, measured, record, round, earlier, w₂, w₃, hd⟩
  · exact .inl (endsAlike_of_overflows hclock (Nat.le_of_lt hnm) hr ho)
  obtain ⟨earlier', hreached, hrecords⟩ := hd.reached.withBudget (m := m) hclock (Nat.le_of_lt hnm)
  obtain ⟨record', hobserved, hrecord⟩ := observe_withBudget (m := m) hclock hd.observed
  have hdecided := hd.decided
  have hall := untimed_append hrecords hrecord
  rw [← hd.recorded] at hall
  by_cases hbudget : outcome = .exhausted
  · subst hbudget
    -- The budget has run out in the last round that it allows.
    have hlast : records.length = n := by
      rcases hd.outcome_cases hn rfl with ⟨ho, _⟩ | ⟨ho, _⟩ | ⟨_, _, _, hlength⟩
      · cases ho
      · cases ho
      · exact hlength
    have hundecided : (r.withBudget m now').decision records.length measured
        (earlier' ++ [record']) = none := by
      have hleft : records.length < m := hlast ▸ hnm
      have honly : ∀ outcome, (r.withBudget n now).decision records.length measured
          (earlier ++ [record]) = some outcome → outcome = .exhausted := by
        intro outcome ho
        rw [← hd.recorded, hdecided] at ho
        exact (Option.some.inj ho).symm
      exact decision_withBudget_eq_none hrecords hrecord now' hleft honly
    cases hnext : ((r.withBudget m now').nextRound (records.length + 1) measured).run w₃ with
    | mk next w₄ =>
      refine .inr ⟨records, next, earlier' ++ [record'], w₄, by rw [hd.run_drive], ?_, hall⟩
      rw [← hlast]
      exact .next hreached hobserved hundecided hnext
  · have hshort : (r.withBudget n now).decision records.length measured (earlier ++ [record]) =
        some outcome := hd.recorded ▸ hdecided
    have hother : (r.withBudget m now').decision records.length measured (earlier' ++ [record']) =
        some outcome := decision_withBudget_of_ne hrecords hrecord hbudget hshort
    refine .inl (.inr ⟨outcome, records, earlier' ++ [record'], hbudget, by rw [hd.run_drive], ?_,
      hall⟩)
    rw [hreached.run_drive, run_iterate_end hobserved hother]

/-- A run with more budget does what one with less does. It breaks off where that breaks off, ends
as that ends unless for the budget, and otherwise goes on from the round after; so it has all its
records, but for the times. Collaborators may do as they like with the worlds, the clocks too, as
long as both do the same. -/
theorem drive_withBudget (r : Run σ) (initial : List TestArtifact) (w : World σ)
    (now now' : StateM (World σ) Timestamp) (hclock : ∀ w, (now.run w).2 = (now'.run w).2)
    {n m : Nat} (hn : 1 ≤ n) (hnm : n < m) :
    let short := (((r.withBudget n now).drive initial).run.run w).1
    let long := (((r.withBudget m now').drive initial).run.run w).1
    (short = none → long = none) ∧
      (∀ outcome records, short = some (outcome, records) → outcome ≠ .exhausted →
        ∃ records', long = some (outcome, records') ∧ untimed records' = untimed records) ∧
      (∀ records, short = some (.exhausted, records) → ∃ next earlier w₁,
        (r.withBudget m now').Reaches initial w (n + 1) next earlier w₁ ∧
          untimed earlier = untimed records) ∧
      ∀ outcome records outcome' records', short = some (outcome, records) →
        long = some (outcome', records') → untimed records <+: untimed records' := by
  intro short long
  have hends : EndsAlike short long ∨ (r.withBudget m now').GoesOnFrom initial w (n + 1) short :=
    run_drive_withBudget_cases hclock hn hnm
  rcases hends with (⟨hs, hl⟩ | ⟨outcome, records, records', hne, hs, hl, hall⟩) |
    ⟨records, next, earlier, w₁, hs, hreached, hall⟩
  · refine ⟨fun _ => hl, ?_, ?_, ?_⟩
    · intro outcome records h
      cases hs.symm.trans h
    · intro records h
      cases hs.symm.trans h
    · intro outcome records outcome' records' h
      cases hs.symm.trans h
  · refine ⟨?_, ?_, ?_, ?_⟩
    · intro h
      cases hs.symm.trans h
    · intro outcome records h _
      cases hs.symm.trans h
      exact ⟨records', hl, hall⟩
    · intro records h
      cases hs.symm.trans h
      exact absurd rfl hne
    · intro outcome records outcome' records' h h'
      cases hs.symm.trans h
      cases hl.symm.trans h'
      rw [hall]
  · refine ⟨?_, ?_, ?_, ?_⟩
    · intro h
      cases hs.symm.trans h
    · intro outcome records h hne
      cases hs.symm.trans h
      exact absurd rfl hne
    · intro records h
      cases hs.symm.trans h
      exact ⟨next, earlier, w₁, hreached, hall⟩
    · intro outcome records outcome' records' h h'
      cases hs.symm.trans h
      rw [← hall]
      exact (hreached.records_prefix h').map _

/-- A clock that always shows that many seconds. -/
def stoppedAt (seconds : Nat) : StateM (World Unit) Timestamp := pure ⟨seconds, 0⟩

theorem drive_withBudget_reporting :
    let r := reporting "SF:box.cpp\nLH:1\nLF:2\nend_of_record\n"
    let short := (((r.withBudget 1 (stoppedAt 1)).drive [loneTest]).run.run ⟨{}, ()⟩).1
    (∀ w, ((stoppedAt 1).run w).2 = ((stoppedAt 2).run w).2) ∧ 1 ≤ 1 ∧ 1 < 2 ∧
      short.map (·.1) = some .exhausted ∧
      ∀ records, short = some (.exhausted, records) → ∃ next earlier w₁,
        (r.withBudget 2 (stoppedAt 2)).Reaches [loneTest] ⟨{}, ()⟩ 2 next earlier w₁ ∧
          untimed earlier = untimed records := by
  intro r short
  have h := drive_withBudget r [loneTest] ⟨{}, ()⟩ (stoppedAt 1) (stoppedAt 2) (fun _ => rfl)
    (n := 1) (m := 2) (by decide) (by decide)
  exact ⟨fun _ => rfl, by decide, by decide, by decide +kernel, h.2.2.1⟩

end Run

end TestSynth
