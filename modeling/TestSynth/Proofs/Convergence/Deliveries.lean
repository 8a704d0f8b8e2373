import TestSynth.Proofs.Convergence.BuildDirectories
/-!
The order in which answers come in. With a harness that answers to each request alone, what becomes
of a line of tests does not depend on the others. Rounds whose lines have names of their own are
then the same, however many workers there are and in whatever order answers are delivered.
-/
namespace TestSynth

variable {σ τ α β : Type}

/-- What a harness that looks at nothing but the request answers. -/
abbrev Harness := CompileRequest → Except Failure CompileResult

namespace Collaborators

/-- Compiling gives the answers of a harness, whatever happened before and whatever it does to the
world. -/
def CompilesBy (c : Collaborators σ) (harness : Harness) : Prop :=
  ∀ q w, ((c.compile q).run w).1 = harness q

/-- Each result is what the job for its item came to in some world. -/
theorem mem_inParallel {c : Collaborators σ} {workers : Nat} {job : α → StateM (World σ) β}
    {items : List α} {w : World σ} {x : α × β}
    (h : x ∈ ((c.inParallel workers job items).run w).1) :
    ∃ w', x.2 = ((job x.1).run w').1 := by
  induction items using inParallel.induct c workers generalizing w with
  | case1 =>
    rw [inParallel] at h
    cases h
  | case2 first others ih =>
    rw [run_inParallel_cons] at h
    rcases List.mem_cons.1 h with rfl | h
    · exact ⟨w, rfl⟩
    · exact ih w h

theorem CompilesBy.compileBatch {c : Collaborators σ} {harness : Harness} (h : c.CompilesBy harness)
    {workers : Nat} {requests : List CompileRequest} {w : World σ} {d : Delivery}
    (hd : d ∈ (((c.compileBatch workers requests).run w).1.map Answer.delivery)) :
    d.2 = harness d.1 := by
  obtain ⟨answer, hanswer, rfl⟩ := List.mem_map.1 hd
  obtain ⟨w', hw'⟩ := mem_inParallel hanswer
  exact hw'.trans (h answer.1 w')

end Collaborators

/-- All answers of a batch are those of a harness. -/
def Batch.AnsweredBy (b : Batch) (harness : Harness) : Prop :=
  ∀ d ∈ b.deliveries, d.2 = harness d.1

theorem compileBatches_answeredBy {c : Collaborators σ} {harness : Harness}
    (h : c.CompilesBy harness) (g : Generator) (context : BuildContext) (maxAttempts : Nat)
    (pending : List PendingTest) (w : World σ) :
    ∀ b ∈ ((compileBatches c g context maxAttempts pending).run w).1, b.AnsweredBy harness := by
  induction pending using compileBatches.induct g context maxAttempts generalizing w with
  | case1 =>
    rw [compileBatches]
    intro b hb
    cases hb
  | case2 first others ih =>
    rw [compileBatches]
    let answers := (c.compileBatch context.workers
      ((first :: others).map fun p => context.request p.artifact)).run w
    intro b hb
    rcases List.mem_cons.1 hb with rfl | hb
    · exact fun d hd => h.compileBatch hd
    · exact ih answers.1 answers.2 b hb

/-- What becomes of a test in an attempt, when a harness answers to its request alone. -/
def Generator.fate (g : Generator) (harness : Harness) (context : BuildContext)
    (maxAttempts attempt : Nat) (a : TestArtifact) : Verdict :=
  g.judge maxAttempts attempt (context.request a, harness (context.request a))

section Verdicts
variable {g : Generator} {harness : Harness} {context context' : BuildContext}
  {maxAttempts attempt : Nat} {tests tests' : List TestArtifact} {b : Batch}
  {batches batches' : List Batch}

/-- A batch judges each of its tests by itself. -/
theorem Batch.Compiles.verdicts_perm (h : b.Compiles context maxAttempts attempt tests)
    (hb : b.AnsweredBy harness) :
    (b.verdicts g).Perm (tests.map (g.fate harness context maxAttempts attempt)) := by
  have hverdicts : b.verdicts g =
      (b.deliveries.map (·.1)).map fun q => g.judge maxAttempts attempt (q, harness q) := by
    rw [h.verdicts_eq g, List.map_map]
    refine List.map_congr_left fun d hd => ?_
    rw [Function.comp_apply, ← hb d hd]
  have hperm := h.answered.map fun q => g.judge maxAttempts attempt (q, harness q)
  rw [List.map_map (l := tests)] at hperm
  rw [hverdicts]
  exact hperm

/-- Two ways to compile the same tests come to the same verdicts in some order. -/
theorem Attempts.verdicts_perm (h : Attempts g context maxAttempts attempt tests batches)
    (h' : Attempts g context' maxAttempts attempt tests' batches')
    (hrequest : context'.request = context.request) (htests : tests.Perm tests')
    (hb : ∀ b ∈ batches, b.AnsweredBy harness) (hb' : ∀ b ∈ batches', b.AnsweredBy harness) :
    (batches.flatMap (·.verdicts g)).Perm (batches'.flatMap (·.verdicts g)) := by
  induction h generalizing tests' batches' with
  | done =>
    cases htests.nil_eq
    rw [h'.eq_nil]
  | @batch attempt tests b later some_left now rest ih =>
    cases h' with
    | done => exact absurd htests.eq_nil some_left
    | @batch _ _ b' later' _ now' rest' =>
      have hfate : g.fate harness context' maxAttempts attempt =
          g.fate harness context maxAttempts attempt := by
        funext a
        rw [Generator.fate, Generator.fate, hrequest]
      have hnow : (b.verdicts g).Perm (b'.verdicts g) := by
        have hleft := now.verdicts_perm (g := g) (hb b List.mem_cons_self)
        have hright := now'.verdicts_perm (g := g) (hb' b' List.mem_cons_self)
        rw [hfate] at hright
        exact hleft.trans ((htests.map _).trans hright.symm)
      have hreplaced : (b.replaced g).Perm (b'.replaced g) :=
        (hnow.filterMap _).map _
      have hlater := ih rest' hreplaced (fun b hb₁ => hb b (List.mem_cons_of_mem _ hb₁))
        (fun b hb₁ => hb' b (List.mem_cons_of_mem _ hb₁))
      rw [List.flatMap_cons, List.flatMap_cons]
      exact hnow.append hlater

end Verdicts

section Sorting
variable {key : α → String} {l l' : List α}

/-- Items with keys of their own have one order by these keys. -/
theorem mergeSort_eq_of_perm (h : l.Perm l') (hkeys : (l.map key).Nodup) :
    (l.mergeSort fun a b => key a ≤ key b) = l'.mergeSort fun a b => key a ≤ key b := by
  have hsorted : ∀ l : List α,
      (l.mergeSort fun a b => key a ≤ key b).Pairwise fun a b => key a ≤ key b := by
    intro l
    refine (List.pairwise_mergeSort ?_ ?_ l).imp fun hab => of_decide_eq_true hab
    · intro a b c hab hbc
      simp only [decide_eq_true_eq] at hab hbc ⊢
      exact hab.trans hbc
    · intro a b
      simp only [Bool.or_eq_true, decide_eq_true_eq]
      exact le_total _ _
  have hperm : (l.mergeSort fun a b => key a ≤ key b).Perm
      (l'.mergeSort fun a b => key a ≤ key b) :=
    (List.mergeSort_perm _ _).trans (h.trans (List.mergeSort_perm _ _).symm)
  refine hperm.eq_of_pairwise (fun a b ha hb hab hba => ?_) (hsorted l) (hsorted l')
  have ha : a ∈ l := List.mem_mergeSort.1 ha
  have hb : b ∈ l := h.mem_iff.2 (List.mem_mergeSort.1 hb)
  exact List.inj_on_of_nodup_map hkeys ha hb (le_antisymm hab hba)

/-- Verdicts in another order make the same sorted round, if each name ends one line. -/
theorem BuildRound.sorted_ofVerdicts_eq {vs vs' : List Verdict} (h : vs.Perm vs')
    (hids : ((ofVerdicts vs).endings.map (·.1)).Nodup) :
    (ofVerdicts vs).sorted = (ofVerdicts vs').sorted := by
  rw [endings, List.map_append, List.map_map, List.map_map] at hids
  have hcompiled := mergeSort_eq_of_perm (h.filterMap Verdict.compiled?) hids.of_append_left
  have habandoned := mergeSort_eq_of_perm (h.filterMap Verdict.abandoned?) hids.of_append_right
  have hreplaced := (h.filterMap Verdict.replacement?).length_eq
  simp only [sorted, ofVerdicts, BuildRound.mk.injEq]
  exact ⟨hcompiled, habandoned, hreplaced⟩

end Sorting

section Names
variable {g : Generator} {context : BuildContext} {maxAttempts iteration : Nat}
  {tests : List TestArtifact} {batches : List Batch}

/-- A line ends under the name of a test that was asked for. -/
theorem Batch.endings_sublist (g : Generator) (b : Batch) :
    (((b.verdicts g).filterMap Verdict.ending?).map (·.1)).Sublist
      (b.deliveries.map (·.1.artifact.id)) := by
  rw [Batch.verdicts]
  generalize b.deliveries = deliveries
  induction deliveries with
  | nil => exact .slnil
  | cons d ds ih =>
    rw [List.map_cons, List.map_cons, List.filterMap_cons]
    rcases g.judge_cases b.maxAttempts (b.attempt d) d with
      ⟨t, hv, ha, _⟩ | ⟨t, hv, ha, _⟩ | ⟨t, diagnostics, hv, _⟩
    all_goals replace hv : b.verdict g d = _ := hv
    · simp only [hv, Verdict.ending?, List.map_cons, ha]
      exact ih.cons_cons _
    · simp only [hv, Verdict.ending?, List.map_cons, ha]
      exact ih.cons_cons _
    · simp only [hv, Verdict.ending?]
      exact ih.cons _

theorem endings_sublist (g : Generator) (batches : List Batch) :
    (((batches.flatMap (·.verdicts g)).filterMap Verdict.ending?).map (·.1)).Sublist
      (requestedIds batches) := by
  induction batches with
  | nil => exact .slnil
  | cons b later ih =>
    rw [List.flatMap_cons, List.filterMap_append, List.map_append, Attempts.requestedIds_cons]
    exact (b.endings_sublist g).append ih

/-- Lines that start with first tests end under names of their own. -/
theorem Attempts.endings_nodup (h : Attempts g context maxAttempts 1 tests batches)
    (hdue : Due iteration 1 tests) (hfirst : ∀ a ∈ tests, a.generation = 0) :
    ((BuildRound.ofBatches g batches).endings.map (·.1)).Nodup := by
  have hids : (requestedIds batches).Nodup :=
    (h.requestedIds_nodup hdue fun a ha => by rw [hfirst a ha]).1
  have hends := (BuildRound.ofVerdicts_endings_perm (batches.flatMap (·.verdicts g))).map (·.1)
  exact hends.nodup_iff.2 (hids.sublist (endings_sublist g batches))

end Names

/-- The tests for a table come to one round, whatever the number of workers, the order in which
answers are delivered and the worlds they are made in, when the harness answers to each request
alone. -/
theorem compileWithRepair_forTable_eq (c : Collaborators σ) (c' : Collaborators τ)
    (harness : Harness) (hc : c.CompilesBy harness) (hc' : c'.CompilesBy harness)
    (maker g : Generator) (context : BuildContext) (workers workers' maxAttempts : Nat)
    (w : World σ) (w' : World τ) :
    ((compileWithRepair c g { context with workers := workers } maxAttempts
        maker.forTable).run w).1 =
      ((compileWithRepair c' g { context with workers := workers' } maxAttempts
        maker.forTable).run w').1 := by
  let batches := ((compileBatches c g { context with workers := workers } maxAttempts
    (maker.forTable.map (⟨·, 1⟩))).run w).1
  let batches' := ((compileBatches c' g { context with workers := workers' } maxAttempts
    (maker.forTable.map (⟨·, 1⟩))).run w').1
  have h : Attempts g { context with workers := workers } maxAttempts 1 maker.forTable batches :=
    compileBatches_attempts ..
  have h' : Attempts g { context with workers := workers' } maxAttempts 1 maker.forTable
      batches' := compileBatches_attempts ..
  have hb : ∀ b ∈ batches, b.AnsweredBy harness := compileBatches_answeredBy hc _ _ _ _ _
  have hb' : ∀ b ∈ batches', b.AnsweredBy harness := compileBatches_answeredBy hc' _ _ _ _ _
  have hverdicts : (batches.flatMap (·.verdicts g)).Perm (batches'.flatMap (·.verdicts g)) :=
    h.verdicts_perm h' rfl (.refl _) hb hb'
  have hfirst : ∀ a ∈ maker.forTable, a.generation = 0 := by
    intro a ha
    obtain ⟨_, hk⟩ := Generator.firstFor_forTable ha
    exact hk.generation
  exact BuildRound.sorted_ofVerdicts_eq hverdicts
    (h.endings_nodup (Run.due_forTable maker) hfirst)

/-- A harness for which no first test compiles, and one kind of test never does. -/
def choosy : Harness := fun q =>
  if q.artifact.generation = 0 ∨ q.artifact.kind = .noThrow then .ok (.failed "error: no")
  else .ok (.compiled q.buildDir)

/-- Answers of a harness one by one. -/
def oneByOne (harness : Harness) : Collaborators Unit where
  compile q := pure (harness q)
  run _ := pure (.ok { exitCode := some 0 })
  collect _ := pure (.ok {})

/-- Answers of a harness that counts what it was asked; what was begun last is ready first. -/
def lastFirst (harness : Harness) : Collaborators Nat where
  compile q := do
    modify fun w => { w with memory := w.memory + 1 }
    return harness q
  run _ := pure (.ok { exitCode := some 0 })
  collect _ := pure (.ok {})
  nextReady _ inWork := inWork - 1

/-- Tests of every kind for one function. -/
def twiceTests : Generator := { Run.faltering.generator with catalogue := .ofSettings {} {} }

theorem compileWithRepair_forTable_eq_choosy :
    (oneByOne choosy).CompilesBy choosy ∧ (lastFirst choosy).CompilesBy choosy ∧
      ((compileWithRepair (oneByOne choosy) twiceTests { iterationDir := ⟨"out"⟩, workers := 1 } 3
          twiceTests.forTable).run ⟨{}, ()⟩).1 =
        ((compileWithRepair (lastFirst choosy) twiceTests { iterationDir := ⟨"out"⟩, workers := 4 }
          3 twiceTests.forTable).run ⟨{}, 0⟩).1 :=
  ⟨fun _ _ => rfl, fun _ _ => rfl,
    compileWithRepair_forTable_eq (oneByOne choosy) (lastFirst choosy) choosy (fun _ _ => rfl)
      (fun _ _ => rfl) twiceTests twiceTests { iterationDir := ⟨"out"⟩ } 1 4 3 ⟨{}, ()⟩ ⟨{}, 0⟩⟩

end TestSynth
