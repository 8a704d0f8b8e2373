import TestSynth.Convergence.Loop
import TestSynth.Proofs.Coverage.Merging
/-!
The rounds that a run gets to. A run goes on from each of them, and either ends in the last one or
breaks off there.
-/
namespace TestSynth

open Coverage (RawReport countersOf merge?_eq_none_iff)

namespace RunM

variable {σ α β : Type} {f : α → RunM σ β} {a : α} {w w₁ : World σ}

theorem run_bind_some {x : RunM σ α} (h : x.run.run w = (some a, w₁)) :
    (x >>= f).run.run w = (f a).run.run w₁ := by
  have hx : x w = (some a, w₁) := h
  simp only [bind, OptionT.bind, OptionT.mk, OptionT.run, StateT.bind, StateT.run, hx]

theorem run_bind_none {x : RunM σ α} (h : x.run.run w = (none, w₁)) :
    (x >>= f).run.run w = (none, w₁) := by
  have hx : x w = (none, w₁) := h
  simp only [bind, OptionT.bind, OptionT.mk, OptionT.run, StateT.bind, StateT.run, hx]
  rfl

theorem run_liftM (x : StateM (World σ) α) (w : World σ) :
    (liftM x : RunM σ α).run.run w = (some (x.run w).1, (x.run w).2) := by
  simp only [liftM, monadLift, MonadLift.monadLift, OptionT.lift, OptionT.mk, OptionT.run, bind,
    StateT.bind, StateT.run]
  rfl

theorem run_bind_liftM (x : StateM (World σ) α) (f : α → RunM σ β) (w : World σ) :
    ((liftM x : RunM σ α) >>= f).run.run w = (f (x.run w).1).run.run (x.run w).2 :=
  run_bind_some (run_liftM x w)

theorem run_bind_lift {x : StateM (World σ) α} (h : x.run w = (a, w₁)) :
    ((liftM x : RunM σ α) >>= f).run.run w = (f a).run.run w₁ := by
  rw [run_bind_liftM, h]

theorem run_bind_eq_some {x : RunM σ α} {b : β} (h : (x >>= f).run.run w = (some b, w₁)) :
    ∃ a w₂, x.run.run w = (some a, w₂) ∧ (f a).run.run w₂ = (some b, w₁) := by
  cases hx : x.run.run w with
  | mk result w₂ =>
    cases result with
    | none =>
      rw [run_bind_none hx] at h
      cases h
    | some a => exact ⟨a, w₂, rfl, (run_bind_some hx).symm.trans h⟩

end RunM

namespace Run

variable {σ : Type} {r : Run σ} {initial : List TestArtifact} {w w₁ w₂ : World σ}
  {iteration : Nat} {round next : Round} {earlier records : List IterationRecord}
  {m : Measurement} {record : IterationRecord} {outcome : Outcome}

theorem run_drive_error {e : FileError} (h : r.prepare.run w = (.error e, w₁)) :
    (r.drive initial).run.run w =
      (some (.fatal ("cannot prepare output directory: " ++ (Failure.file e).message), []), w₁) :=
  RunM.run_bind_lift h

theorem run_drive_nil (h : r.prepare.run w = (.ok (), w₁)) :
    (r.drive []).run.run w = (some (.fatal "nothing to measure", []), w₁) :=
  RunM.run_bind_lift h

theorem run_drive (h : r.prepare.run w = (.ok (), w₁)) (hi : initial ≠ []) :
    (r.drive initial).run.run w = (r.iterate 1 (.initial initial) []).run.run w₁ := by
  refine (RunM.run_bind_lift h).trans ?_
  simp [hi]

theorem run_iterate_none (h : (r.observe iteration round).run.run w = (none, w₁)) :
    (r.iterate iteration round earlier).run.run w = (none, w₁) := by
  rw [iterate]
  exact RunM.run_bind_none h

theorem run_iterate_end (h : (r.observe iteration round).run.run w = (some (m, record), w₁))
    (hd : r.decision iteration m (earlier ++ [record]) = some outcome) :
    (r.iterate iteration round earlier).run.run w =
      (some (outcome, earlier ++ [record]), w₁) := by
  rw [iterate]
  refine (RunM.run_bind_some h).trans ?_
  dsimp only
  split
  · next found hf =>
    rw [hd] at hf
    cases hf
    rfl
  · next hf => simp [hd] at hf

theorem run_iterate_next (h : (r.observe iteration round).run.run w = (some (m, record), w₁))
    (hd : r.decision iteration m (earlier ++ [record]) = none)
    (hn : (r.nextRound (iteration + 1) m).run w₁ = (next, w₂)) :
    (r.iterate iteration round earlier).run.run w =
      (r.iterate (iteration + 1) next (earlier ++ [record])).run.run w₂ := by
  rw [iterate]
  refine (RunM.run_bind_some h).trans ?_
  dsimp only
  split
  · next found hf => simp [hd] at hf
  · exact RunM.run_bind_lift hn

theorem run_measure_none {built : BuildRound} {reports : List RawReport}
    {tests : List TestArtifact} (h : (r.gather iteration tests).run w = ((built, reports), w₁))
    (hs : r.snapshot? built.compiled reports = none) :
    (r.measure iteration tests).run.run w = (none, w₁) := by
  refine (RunM.run_bind_lift h).trans (RunM.run_bind_none ?_)
  rw [hs]
  rfl

theorem run_measure_some {built : BuildRound} {reports : List RawReport}
    {tests : List TestArtifact} {s : Snapshot}
    (h : (r.gather iteration tests).run w = ((built, reports), w₁))
    (hs : r.snapshot? built.compiled reports = some s) :
    (r.measure iteration tests).run.run w =
      (some { snapshot := s, survivors := built.compiled.map (·.artifact)
              compiled := built.compiled.length, abandoned := built.abandoned.length
              regenerated := built.regenerated },
        ((r.writeSnapshot iteration s).run w₁).2) := by
  refine (RunM.run_bind_lift h).trans ?_
  have hsnapshot : (OptionT.mk (pure (r.snapshot? built.compiled reports)) :
      RunM σ Snapshot).run.run w₁ = (some s, w₁) := by
    rw [hs]
    rfl
  exact (RunM.run_bind_some hsnapshot).trans (RunM.run_bind_liftM _ _ _)

/-- A measurement is about the tests that compiled. -/
theorem measure_eq_some {tests : List TestArtifact}
    (h : (r.measure iteration tests).run.run w = (some m, w₁)) :
    let built := ((r.gather iteration tests).run w).1.1
    m.survivors = built.compiled.map (·.artifact) ∧ m.compiled = built.compiled.length := by
  cases hg : (r.gather iteration tests).run w with
  | mk gathered w₂ =>
    cases hs : r.snapshot? gathered.1.compiled gathered.2 with
    | none => cases h.symm.trans (run_measure_none hg hs)
    | some s =>
      cases h.symm.trans (run_measure_some hg hs)
      exact ⟨rfl, rfl⟩

/-- A record tells the number of its round and what was measured in it. -/
theorem observe_eq_some (h : (r.observe iteration round).run.run w = (some (m, record), w₁)) :
    (∃ w₂, (r.measure iteration round.tests).run.run w = (some m, w₂)) ∧
      record.iteration = iteration ∧ record.compiled = m.compiled ∧
      record.snapshot = m.snapshot := by
  obtain ⟨m', w₂, hm, h⟩ := RunM.run_bind_eq_some h
  obtain ⟨record', w₃, hr, h⟩ := RunM.run_bind_eq_some h
  cases h
  have hmade : (some record, w₁) = (some _, _) := hr.symm.trans (RunM.run_liftM _ _)
  cases hmade
  exact ⟨⟨w₂, hm⟩, rfl, rfl, rfl⟩

/-- Tests of the round compile, and a counter of what their reports say does not fit into a word. -/
def Overflows (r : Run σ) (iteration : Nat) (round : Round) (w : World σ) : Prop :=
  let (built, reports) := ((r.gather iteration round.tests).run w).1
  built.compiled ≠ [] ∧
    ¬ (countersOf ((coverageOf r.settings.synthesis.uncoveredSample built.compiled).observations
      reports)).Fit

theorem snapshot?_eq_none_iff {compiled : List CompiledTest} {reports : List RawReport} :
    r.snapshot? compiled reports = none ↔ compiled ≠ [] ∧
      ¬ (countersOf ((coverageOf r.settings.synthesis.uncoveredSample compiled).observations
        reports)).Fit := by
  unfold snapshot?
  cases compiled with
  | nil => simp
  | cons => simp [merge?_eq_none_iff]

theorem observe_eq_none_iff :
    ((r.observe iteration round).run.run w).1 = none ↔ r.Overflows iteration round w := by
  cases hg : (r.gather iteration round.tests).run w with
  | mk gathered w₁ =>
    have hoverflows : r.Overflows iteration round w ↔
        r.snapshot? gathered.1.compiled gathered.2 = none := by
      rw [snapshot?_eq_none_iff, Overflows, hg]
    rw [hoverflows]
    cases hs : r.snapshot? gathered.1.compiled gathered.2 with
    | none =>
      have hnone : (r.observe iteration round).run.run w = (none, w₁) :=
        RunM.run_bind_none (run_measure_none hg hs)
      simp [hnone]
    | some s =>
      have hsome : (r.observe iteration round).run.run w = (some _, _) :=
        (RunM.run_bind_some (run_measure_some hg hs)).trans (RunM.run_bind_liftM _ _ _)
      simp [hsome]

theorem Overflows.observe (h : r.Overflows iteration round w) :
    ∃ w₁, (r.observe iteration round).run.run w = (none, w₁) :=
  ⟨_, Prod.ext (observe_eq_none_iff.2 h) rfl⟩

/-- A run gets to a round of that number, with the records of the rounds before it, and begins it
in that world. -/
inductive Reaches (r : Run σ) (initial : List TestArtifact) (w : World σ) :
    Nat → Round → List IterationRecord → World σ → Prop where
  | first {w₁ : World σ} (prepared : r.prepare.run w = (.ok (), w₁)) (some_test : initial ≠ []) :
      Reaches r initial w 1 (.initial initial) [] w₁
  | next {iteration : Nat} {round next : Round} {earlier : List IterationRecord}
      {m : Measurement} {record : IterationRecord} {w₁ w₂ w₃ : World σ}
      (before : Reaches r initial w iteration round earlier w₁)
      (observed : (r.observe iteration round).run.run w₁ = (some (m, record), w₂))
      (undecided : r.decision iteration m (earlier ++ [record]) = none)
      (made : (r.nextRound (iteration + 1) m).run w₂ = (next, w₃)) :
      Reaches r initial w (iteration + 1) next (earlier ++ [record]) w₃

/-- A run goes on from each of its rounds. -/
theorem Reaches.run_drive (h : r.Reaches initial w iteration round earlier w₁) :
    (r.drive initial).run.run w = (r.iterate iteration round earlier).run.run w₁ := by
  induction h with
  | first prepared some_test => exact Run.run_drive prepared some_test
  | next _ observed undecided made ih => exact ih.trans (run_iterate_next observed undecided made)

end Run

end TestSynth
