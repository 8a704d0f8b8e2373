import Mathlib
import TestSynth.Convergence.Repair
/-!
What the attempts to compile a set of tests look like from outside, whatever the collaborators
answer and in whatever order: each attempt answers every test that is pending once, and the
replacements it makes are pending in the next.
-/
namespace TestSynth

variable {σ α β : Type}

namespace Collaborators

/-- One item is done, in the world that its job leaves behind the others are. -/
theorem run_inParallel_cons (c : Collaborators σ) (workers : Nat) (job : α → StateM (World σ) β)
    (first : α) (others : List α) (w : World σ) :
    ((c.inParallel workers job (first :: others)).run w).1 =
      let place := c.readyPlace w workers others.length
      let item := (first :: others).get place
      let done := (job item).run w
      (item, done.1) ::
        ((c.inParallel workers job ((first :: others).eraseIdx place)).run done.2).1 := by
  rw [inParallel]
  rfl

/-- Every item is done once. -/
theorem inParallel_perm (c : Collaborators σ) (workers : Nat) (job : α → StateM (World σ) β)
    (items : List α) (w : World σ) :
    (((c.inParallel workers job items).run w).1.map (·.1)).Perm items := by
  induction items using inParallel.induct c workers generalizing w with
  | case1 => rw [inParallel]; exact .nil
  | case2 first others ih =>
    rw [run_inParallel_cons]
    let place := c.readyPlace w workers others.length
    let done := (job ((first :: others).get place)).run w
    have hrest : (((c.inParallel workers job ((first :: others).eraseIdx place)).run
        done.2).1.map (·.1)).Perm ((first :: others).eraseIdx place) := ih w done.2
    exact (hrest.cons _).trans (List.getElem_cons_eraseIdx_perm place.isLt)

/-- Every request is answered once. -/
theorem compileBatch_perm (c : Collaborators σ) (workers : Nat) (requests : List CompileRequest)
    (w : World σ) : ((((c.compileBatch workers requests).run w).1.map Answer.delivery).map
      (·.1)).Perm requests := by
  have h := (c.inParallel_perm workers (fun r : { r // r ∈ requests } => c.compile r)
    requests.attach w).map Subtype.val
  rw [List.attach_map_subtype_val, List.map_map] at h
  rw [List.map_map]
  exact h

end Collaborators

/-- A batch compiles tests that are all in the same attempt. -/
structure Batch.Compiles (b : Batch) (context : BuildContext) (maxAttempts attempt : Nat)
    (tests : List TestArtifact) : Prop where
  limit : b.maxAttempts = maxAttempts
  pending_eq : b.pending = tests.map (⟨·, attempt⟩)
  answered : (b.deliveries.map (·.1)).Perm (tests.map context.request)

/-- The tests that replace others of a batch. -/
def Batch.replaced (g : Generator) (b : Batch) : List TestArtifact :=
  (b.replacements g).map (·.artifact)

namespace Batch.Compiles

variable {b : Batch} {context : BuildContext} {maxAttempts attempt : Nat}
  {tests : List TestArtifact} {d : Delivery}

/-- The answers of a batch are about its tests. -/
theorem artifacts_perm (h : b.Compiles context maxAttempts attempt tests) :
    (b.deliveries.map (·.1.artifact)).Perm tests := by
  have := h.answered.map CompileRequest.artifact
  simpa [List.map_map, Function.comp_def, BuildContext.request] using this

theorem request_of_mem (h : b.Compiles context maxAttempts attempt tests)
    (hd : d ∈ b.deliveries) : ∃ a ∈ tests, d.1 = context.request a := by
  obtain ⟨a, ha, heq⟩ := List.mem_map.1 (h.answered.mem_iff.1 (List.mem_map_of_mem hd))
  exact ⟨a, ha, heq.symm⟩

/-- Looking up the attempt of an answer finds the attempt that all are in. -/
theorem attempt_eq (h : b.Compiles context maxAttempts attempt tests) (hd : d ∈ b.deliveries) :
    b.attempt d = attempt := by
  obtain ⟨a, ha, heq⟩ := h.request_of_mem hd
  have hp : (⟨a, attempt⟩ : PendingTest) ∈ b.pending := by
    rw [h.pending_eq]
    exact List.mem_map_of_mem ha
  obtain ⟨q, hq, hlookup⟩ := attemptOf_eq_attempt hp
  rw [h.pending_eq] at hq
  obtain ⟨_, _, rfl⟩ := List.mem_map.1 hq
  rw [Batch.attempt, heq]
  exact hlookup

theorem verdicts_eq (h : b.Compiles context maxAttempts attempt tests) (g : Generator) :
    b.verdicts g = b.deliveries.map (g.judge maxAttempts attempt) := by
  refine List.map_congr_left fun d hd => ?_
  rw [Batch.verdict, h.attempt_eq hd, h.limit]

/-- All replacements are in the next attempt. -/
theorem replacements_eq (h : b.Compiles context maxAttempts attempt tests) (g : Generator) :
    b.replacements g = (b.replaced g).map (⟨·, attempt + 1⟩) := by
  rw [Batch.replaced, List.map_map]
  refine (List.map_id _).symm.trans (List.map_congr_left fun p hp => ?_)
  obtain ⟨d, hd, _, _, hattempt, _⟩ := Batch.mem_replacements hp
  rw [h.attempt_eq hd] at hattempt
  rw [Function.comp_apply, ← hattempt]
  rfl

/-- In the last attempt nothing is replaced. -/
theorem replaced_eq_nil (h : b.Compiles context maxAttempts attempt tests) {g : Generator}
    (hlast : maxAttempts ≤ attempt) : b.replaced g = [] := by
  refine List.eq_nil_iff_forall_not_mem.2 fun a ha => ?_
  obtain ⟨p, hp, _⟩ := List.mem_map.1 ha
  obtain ⟨d, hd, _, hmore, _⟩ := Batch.mem_replacements hp
  rw [h.attempt_eq hd, h.limit] at hmore
  omega

end Batch.Compiles

/-- The batches that compiling some tests from an attempt on can come to. -/
inductive Attempts (g : Generator) (context : BuildContext) (maxAttempts : Nat) :
    Nat → List TestArtifact → List Batch → Prop where
  | done (attempt : Nat) : Attempts g context maxAttempts attempt [] []
  | batch {attempt : Nat} {tests : List TestArtifact} {b : Batch} {later : List Batch}
      (some_left : tests ≠ []) (now : b.Compiles context maxAttempts attempt tests)
      (rest : Attempts g context maxAttempts (attempt + 1) (b.replaced g) later) :
      Attempts g context maxAttempts attempt tests (b :: later)

/-- Compiling ends, and with batches of that kind. -/
theorem compileBatches_attempts (c : Collaborators σ) (g : Generator) (context : BuildContext)
    (maxAttempts attempt : Nat) (tests : List TestArtifact) (w : World σ) :
    Attempts g context maxAttempts attempt tests
      ((compileBatches c g context maxAttempts (tests.map (⟨·, attempt⟩))).run w).1 := by
  generalize hpending : tests.map (PendingTest.mk · attempt) = pending
  induction pending using compileBatches.induct g context maxAttempts
    generalizing attempt tests w with
  | case1 =>
    rw [List.map_eq_nil_iff.1 hpending, compileBatches]
    exact .done attempt
  | case2 first others ih =>
    rw [compileBatches]
    let answers := (c.compileBatch context.workers
      ((first :: others).map fun p => context.request p.artifact)).run w
    let b : Batch := ⟨first :: others, maxAttempts, answers.1.map Answer.delivery⟩
    have hrequests : (first :: others).map (fun p => context.request p.artifact) =
        tests.map context.request := by
      rw [← hpending, List.map_map]
      rfl
    have hnow : b.Compiles context maxAttempts attempt tests :=
      ⟨rfl, hpending.symm, hrequests ▸ c.compileBatch_perm _ _ w⟩
    have hsome : tests ≠ [] := by
      rintro rfl
      cases hpending
    exact .batch hsome hnow (ih answers.1 _ _ answers.2 (hnow.replacements_eq g).symm)

end TestSynth
