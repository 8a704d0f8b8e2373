import TestSynth.Artifact.Basic
import TestSynth.Convergence.Timestamp
import TestSynth.Coverage.Observation
import TestSynth.Failure
import TestSynth.Files.Tree
/-!
What a run asks of others: compiling tests, running them, collecting coverage, completing prompts
and telling the time. Nothing is assumed of the answers; they may depend on all that happened
before.
-/
namespace TestSynth

/-- The files of a run and whatever else its collaborators remember. -/
structure World (σ : Type) where
  files : FileTree
  memory : σ
deriving Inhabited

/-- Does something with the files of the world. -/
def World.doFiles {σ α : Type} (action : FileAction α) : StateM (World σ) (Except FileError α) :=
  fun w =>
    let (result, files) := action w.files
    (result, { w with files })

/-- A test to compile in a directory of its own, with what it is linked with. -/
structure CompileRequest where
  artifact : TestArtifact
  projectSources : List Path
  includePaths : List Path
  buildDir : Path
deriving DecidableEq, Repr, Inhabited

/-- What a compiler made of a request. -/
inductive CompileResult where
  | compiled (binary : Path)
  | withoutBinary
  | failed (diagnostics : String)
  | timedOut (diagnostics : String)
deriving DecidableEq, Repr, Inhabited

/-- What running a test gave. A run that was killed has no exit code. -/
structure ExecutionResult where
  exitCode : Option Int
  stdout : String := ""
  stderr : String := ""
  timedOut : Bool := false
deriving DecidableEq, Repr, Inhabited

def ExecutionResult.passed (r : ExecutionResult) : Bool := r.exitCode == some 0 && !r.timedOut

/-- A request and its answer. -/
abbrev Delivery := CompileRequest × Except Failure CompileResult

/-- An answer to one of some requests. -/
abbrev Answer (requests : List CompileRequest) :=
  { r // r ∈ requests } × Except Failure CompileResult

def Answer.delivery {requests : List CompileRequest} (a : Answer requests) : Delivery :=
  (a.1, a.2)

structure Collaborators (σ : Type) where
  compile : CompileRequest → StateM (World σ) (Except Failure CompileResult)
  run : Path → StateM (World σ) (Except Failure ExecutionResult)
  collect : Path → StateM (World σ) (Except Failure Coverage.RawReport)
  /-- Completes a prompt, if there is someone to do it. -/
  complete? : Option (String → StateM (World σ) (Except Failure String)) := none
  now : StateM (World σ) Timestamp := pure default
  /-- Of so many jobs in work, the place of the one that is ready next. -/
  nextReady : World σ → Nat → Nat := fun _ _ => 0

namespace Collaborators

variable {σ α β : Type}

/-- The place of the item that is ready next when `others + 1` are left; the first of them, one for
each worker, are in work. A place past those counts from the front again. -/
def readyPlace (c : Collaborators σ) (w : World σ) (workers others : Nat) : Fin (others + 1) :=
  let inWork := min (max 1 workers) (others + 1)
  ⟨c.nextReady w inWork % inWork,
    Nat.lt_of_lt_of_le (Nat.mod_lt _ (by omega)) (Nat.min_le_right _ _)⟩

/-- Does a job for every item, with so many workers and at least one; results come in the order they
are ready. -/
def inParallel (c : Collaborators σ) (workers : Nat) (job : α → StateM (World σ) β) :
    List α → StateM (World σ) (List (α × β))
  | [] => pure []
  | first :: others => do
    let place := c.readyPlace (← get) workers others.length
    let item := (first :: others).get place
    let result ← job item
    let later ← c.inParallel workers job ((first :: others).eraseIdx place)
    return (item, result) :: later
termination_by items => items.length
decreasing_by
  have := place.isLt
  simp only [List.length_eraseIdx, List.length_cons]
  split <;> omega

/-- Compiles requests; answers come in the order they are ready. -/
def compileBatch (c : Collaborators σ) (workers : Nat) (requests : List CompileRequest) :
    StateM (World σ) (List (Answer requests)) :=
  c.inParallel workers (fun r => c.compile r) requests.attach

end Collaborators

end TestSynth
