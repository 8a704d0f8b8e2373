import TestSynth.Convergence.Collaborators
import TestSynth.Scenario.Regeneration
/-!
Compiling a set of tests. One that fails is replaced and its replacement compiled in the next
attempt, until it compiles, no attempt is left or there is no replacement.
-/
namespace TestSynth

/-- Where and with what a set of tests is built. -/
structure BuildContext where
  iterationDir : Path
  projectSources : List Path := []
  includePaths : List Path := []
  workers : Nat := 1
deriving DecidableEq, Repr, Inhabited

/-- Each test is built in a directory of its name. -/
def BuildContext.request (c : BuildContext) (a : TestArtifact) : CompileRequest :=
  ⟨a, c.projectSources, c.includePaths, c.iterationDir.join ⟨a.id⟩⟩

structure CompiledTest where
  artifact : TestArtifact
  binary : Path
  buildDir : Path
  attempts : Nat
deriving DecidableEq, Repr, Inhabited

/-- A line of tests that was given up. -/
structure AbandonedTest where
  lastId : String
  attempts : Nat
  summary : Option String
deriving DecidableEq, Repr, Inhabited

/-- What became of a set of tests. -/
structure BuildRound where
  compiled : List CompiledTest := []
  abandoned : List AbandonedTest := []
  /-- Replacements made. -/
  regenerated : Nat := 0
deriving DecidableEq, Repr, Inhabited

/-- The round with its tests in the order of their names. -/
def BuildRound.sorted (r : BuildRound) : BuildRound :=
  { r with
    compiled := r.compiled.mergeSort fun a b => a.artifact.id ≤ b.artifact.id
    abandoned := r.abandoned.mergeSort fun a b => a.lastId ≤ b.lastId }

/-- A test that waits to be compiled, and which attempt of its line that is. -/
structure PendingTest where
  artifact : TestArtifact
  attempt : Nat
deriving DecidableEq, Repr, Inhabited

/-- The attempt of the test of that name. The last of several counts. -/
def attemptOf (pending : List PendingTest) (id : String) : Nat :=
  ((pending.reverse.find? (·.artifact.id == id)).map (·.attempt)).getD 1

theorem attemptOf_eq_attempt {pending : List PendingTest} {p : PendingTest} (hp : p ∈ pending) :
    ∃ q ∈ pending, attemptOf pending p.artifact.id = q.attempt := by
  unfold attemptOf
  cases h : pending.reverse.find? (·.artifact.id == p.artifact.id) with
  | some q => exact ⟨q, List.mem_reverse.1 (List.mem_of_find?_eq_some h), rfl⟩
  | none =>
    have := List.find?_eq_none.1 h p (List.mem_reverse.2 hp)
    simp at this

/-- What one answer means for a test. -/
inductive Verdict where
  | compiled (test : CompiledTest)
  | abandoned (test : AbandonedTest)
  | replaced (replacement : PendingTest)
deriving DecidableEq, Repr, Inhabited

namespace Verdict

def compiled? : Verdict → Option CompiledTest
  | .compiled test => some test
  | _ => none

def abandoned? : Verdict → Option AbandonedTest
  | .abandoned test => some test
  | _ => none

def replacement? : Verdict → Option PendingTest
  | .replaced replacement => some replacement
  | _ => none

end Verdict

namespace Generator

/-- What to do about a test that did not compile. -/
def retry (g : Generator) (maxAttempts attempt : Nat) (a : TestArtifact)
    (diagnostics : String) : Verdict :=
  let lost := Verdict.abandoned ⟨a.id, attempt, diagnosticSummary? diagnostics⟩
  if attempt < maxAttempts then
    match g.regenerate? a diagnostics attempt with
    | some replacement => .replaced ⟨replacement, attempt + 1⟩
    | none => lost
  else lost

/-- Judges an answer. A failure of the harness itself ends the line: no other test can mend it. -/
def judge (g : Generator) (maxAttempts attempt : Nat) : Delivery → Verdict
  | (request, .ok (.compiled binary)) =>
    .compiled ⟨request.artifact, binary, request.buildDir, attempt⟩
  | (request, .ok .withoutBinary) =>
    g.retry maxAttempts attempt request.artifact
      "compiler reported success but produced no binary"
  | (request, .ok (.failed diagnostics)) =>
    g.retry maxAttempts attempt request.artifact diagnostics
  | (request, .ok (.timedOut diagnostics)) =>
    g.retry maxAttempts attempt request.artifact ("error: compile timed out\n" ++ diagnostics)
  | (request, .error failure) =>
    .abandoned ⟨request.artifact.id, attempt, some failure.message⟩

/-- All that an answer can come to. -/
theorem judge_cases (g : Generator) (maxAttempts attempt : Nat) (d : Delivery) :
    (∃ t, g.judge maxAttempts attempt d = .compiled t ∧ t.artifact = d.1.artifact ∧
      t.attempts = attempt) ∨
    (∃ t, g.judge maxAttempts attempt d = .abandoned t ∧ t.lastId = d.1.artifact.id ∧
      t.attempts = attempt) ∨
    (∃ b diagnostics, g.judge maxAttempts attempt d = .replaced ⟨b, attempt + 1⟩ ∧
      attempt < maxAttempts ∧ g.regenerate? d.1.artifact diagnostics attempt = some b) := by
  have hretry : ∀ diagnostics,
      (∃ t, g.retry maxAttempts attempt d.1.artifact diagnostics = .abandoned t ∧
        t.lastId = d.1.artifact.id ∧ t.attempts = attempt) ∨
      (∃ b, g.retry maxAttempts attempt d.1.artifact diagnostics = .replaced ⟨b, attempt + 1⟩ ∧
        attempt < maxAttempts ∧ g.regenerate? d.1.artifact diagnostics attempt = some b) := by
    intro diagnostics
    by_cases hmore : attempt < maxAttempts
    · cases hr : g.regenerate? d.1.artifact diagnostics attempt with
      | none => exact .inl ⟨_, by simp only [retry, if_pos hmore, hr]; rfl, rfl, rfl⟩
      | some b => exact .inr ⟨b, by simp only [retry, if_pos hmore, hr], hmore, rfl⟩
    · exact .inl ⟨_, if_neg hmore, rfl, rfl⟩
  obtain ⟨request, (failure | result)⟩ := d
  · exact .inr (.inl ⟨_, rfl, rfl, rfl⟩)
  · cases result with
    | compiled binary => exact .inl ⟨_, rfl, rfl, rfl⟩
    | withoutBinary | failed diagnostics | timedOut diagnostics =>
      rcases hretry _ with h | ⟨b, hb⟩
      · exact .inr (.inl h)
      · exact .inr (.inr ⟨b, _, hb⟩)

end Generator

/-- All tests that are pending at once, with the answers they got. -/
structure Batch where
  pending : List PendingTest
  /-- Attempts that each line may take. -/
  maxAttempts : Nat
  deliveries : List Delivery
deriving Inhabited

namespace Batch

def requests (b : Batch) : List CompileRequest := b.deliveries.map (·.1)

/-- The attempt that an answer is about. -/
def attempt (b : Batch) (d : Delivery) : Nat := attemptOf b.pending d.1.artifact.id

def verdict (g : Generator) (b : Batch) (d : Delivery) : Verdict :=
  g.judge b.maxAttempts (b.attempt d) d

def verdicts (g : Generator) (b : Batch) : List Verdict := b.deliveries.map (b.verdict g)

def replacements (g : Generator) (b : Batch) : List PendingTest :=
  (b.verdicts g).filterMap Verdict.replacement?

/-- A replacement is made for an answer, if there is an attempt left. -/
theorem mem_replacements {g : Generator} {b : Batch} {p : PendingTest}
    (h : p ∈ b.replacements g) : ∃ d ∈ b.deliveries, b.verdict g d = .replaced p ∧
      b.attempt d < b.maxAttempts ∧ p.attempt = b.attempt d + 1 ∧
      ∃ diagnostics, g.regenerate? d.1.artifact diagnostics (b.attempt d) = some p.artifact := by
  obtain ⟨v, hv, hp⟩ := List.mem_filterMap.1 h
  obtain ⟨d, hd, rfl⟩ := List.mem_map.1 hv
  rcases g.judge_cases b.maxAttempts (b.attempt d) d with
    ⟨t, hv, _⟩ | ⟨t, hv, _⟩ | ⟨t, diagnostics, hv, hmore, hr⟩
  all_goals
    rw [verdict, hv] at hp
    cases hp
  exact ⟨d, hd, hv, hmore, rfl, diagnostics, hr⟩

end Batch

/-- The attempts that are left to some tests at most. -/
def attemptsLeft (maxAttempts : Nat) : List PendingTest → Nat
  | [] => 0
  | p :: rest => max (maxAttempts - p.attempt + 1) (attemptsLeft maxAttempts rest)

theorem le_attemptsLeft {maxAttempts : Nat} {pending : List PendingTest} {p : PendingTest}
    (hp : p ∈ pending) : maxAttempts - p.attempt + 1 ≤ attemptsLeft maxAttempts pending := by
  induction pending with
  | nil => cases hp
  | cons q rest ih =>
    rw [attemptsLeft]
    rcases List.mem_cons.1 hp with rfl | hp
    · exact Nat.le_max_left _ _
    · exact Nat.le_trans (ih hp) (Nat.le_max_right _ _)

theorem attemptsLeft_lt {maxAttempts n : Nat} {pending : List PendingTest} (hn : 0 < n)
    (h : ∀ p ∈ pending, maxAttempts - p.attempt + 1 < n) :
    attemptsLeft maxAttempts pending < n := by
  induction pending with
  | nil => exact hn
  | cons q rest ih =>
    rw [attemptsLeft]
    exact Nat.max_lt.2 ⟨h q List.mem_cons_self, ih fun p hp => h p (List.mem_cons_of_mem q hp)⟩

/-- If each answer is about a pending test, replacements have fewer attempts left. -/
theorem Batch.attemptsLeft_replacements_lt {g : Generator} (context : BuildContext) {b : Batch}
    (hpending : b.pending ≠ [])
    (h : ∀ d ∈ b.deliveries, d.1 ∈ b.pending.map fun p => context.request p.artifact) :
    attemptsLeft b.maxAttempts (b.replacements g) < attemptsLeft b.maxAttempts b.pending := by
  refine attemptsLeft_lt ?_ fun p hp => ?_
  · obtain ⟨p, hp⟩ := List.exists_mem_of_ne_nil _ hpending
    exact Nat.lt_of_lt_of_le (Nat.succ_pos _) (le_attemptsLeft hp)
  · obtain ⟨d, hd, _, hmore, hattempt, _⟩ := mem_replacements hp
    obtain ⟨q, hq, hrequest⟩ := List.mem_map.1 (h d hd)
    have hid : q.artifact.id = d.1.artifact.id := by rw [← hrequest]; rfl
    obtain ⟨q', hq', hlookup⟩ := attemptOf_eq_attempt hq
    rw [hid] at hlookup
    have hleft : b.maxAttempts - q'.attempt + 1 ≤ attemptsLeft b.maxAttempts b.pending :=
      le_attemptsLeft hq'
    simp only [attempt] at hmore hattempt
    omega

/-- The round that verdicts make. -/
def BuildRound.ofVerdicts (verdicts : List Verdict) : BuildRound :=
  { compiled := verdicts.filterMap Verdict.compiled?
    abandoned := verdicts.filterMap Verdict.abandoned?
    regenerated := (verdicts.filterMap Verdict.replacement?).length }

def BuildRound.ofBatches (g : Generator) (batches : List Batch) : BuildRound :=
  .ofVerdicts (batches.flatMap (·.verdicts g))

variable {σ : Type}

/-- Compiles tests, then their replacements, as long as there are any. -/
def compileBatches (c : Collaborators σ) (g : Generator) (context : BuildContext)
    (maxAttempts : Nat) : List PendingTest → StateM (World σ) (List Batch)
  | [] => pure []
  | first :: others => do
    let answers ← c.compileBatch context.workers
      ((first :: others).map fun p => context.request p.artifact)
    let batch : Batch := ⟨first :: others, maxAttempts, answers.map Answer.delivery⟩
    let later ← compileBatches c g context maxAttempts (batch.replacements g)
    return batch :: later
termination_by pending => attemptsLeft maxAttempts pending
decreasing_by
  refine batch.attemptsLeft_replacements_lt context (List.cons_ne_nil _ _) ?_
  intro d hd
  obtain ⟨a, _, rfl⟩ := List.mem_map.1 hd
  exact a.1.2

/-- Compiles tests, each line of them in at most `maxAttempts` attempts and at least one. -/
def compileWithRepair (c : Collaborators σ) (g : Generator) (context : BuildContext)
    (maxAttempts : Nat) (artifacts : List TestArtifact) : StateM (World σ) BuildRound :=
  return (BuildRound.ofBatches g
    (← compileBatches c g context maxAttempts (artifacts.map (⟨·, 1⟩)))).sorted

end TestSynth
