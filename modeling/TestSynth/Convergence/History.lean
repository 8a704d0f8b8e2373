import TestSynth.Convergence.Timestamp
import TestSynth.Coverage.Snapshot
import TestSynth.Model.Encoding
import TestSynth.Number.Binary64
import TestSynth.Number.Shortest
import TestSynth.Settings.Basic
/-!
How a run ends, the rule that decides after each measurement whether it does, and what a run leaves
behind: one record an iteration, the report of the whole run, and its summary for people.
-/
namespace TestSynth

open Json (asText? asNat? asNat32? listOf?)
open Number (Binary64)

inductive Outcome where
  | satisfied
  | plateaued
  | exhausted
  | fatal (reason : String)
deriving DecidableEq, Repr, Inhabited

namespace Outcome

def name : Outcome → String
  | .satisfied => "satisfied"
  | .plateaued => "plateaued"
  | .exhausted => "exhausted"
  | .fatal _ => "fatal"

def isFatal : Outcome → Bool
  | .fatal _ => true
  | _ => false

def render : Outcome → String
  | .fatal reason => "fatal: " ++ reason
  | o => o.name

end Outcome

def sum (xs : List Binary64) : Binary64 := xs.foldl Binary64.add .zero

def mean (xs : List Binary64) : Binary64 := (sum xs).div (.ofNat xs.length)

/-- The mean squared distance from the mean; of fewer than two values it is zero. -/
def populationVariance (xs : List Binary64) : Binary64 :=
  if xs.length < 2 then .zero
  else
    let m := mean xs
    mean (xs.map fun x => (x.sub m).mul (x.sub m))

/-- When to stop. -/
structure StopPolicy where
  target : Binary64
  maxIterations : Nat
  window : Nat
  variance : Binary64
deriving DecidableEq, Repr, Inhabited

namespace StopPolicy

def ofSettings (s : ConvergenceSettings) : StopPolicy :=
  ⟨s.targetCoverage, s.maxIterations, s.plateauWindow, s.plateauVariance⟩

/-- The last `window` percentages, when there are that many. -/
def lastWindow? (p : StopPolicy) (percentages : List Binary64) : Option (List Binary64) :=
  if 2 ≤ p.window && p.window ≤ percentages.length then
    some (percentages.drop (percentages.length - p.window))
  else none

/-- The outcome after the percentages measured so far, of which `iteration` is the number of the
last: the target comes first, then a plateau, then the budget. -/
def evaluate (p : StopPolicy) (percentages : List Binary64) (iteration : Nat) : Option Outcome :=
  percentages.getLast?.bind fun latest =>
    if p.target.le latest then some .satisfied
    else if (p.lastWindow? percentages).any fun w => (populationVariance w).lt p.variance then
      some .plateaued
    else if p.maxIterations ≤ iteration then some .exhausted
    else none

/-- A policy that does not stop has budget left. -/
theorem lt_of_evaluate_none {p : StopPolicy} {percentages : List Binary64} {iteration : Nat}
    (hp : percentages ≠ []) (h : p.evaluate percentages iteration = none) :
    iteration < p.maxIterations := by
  simp only [evaluate, List.getLast?_eq_some_getLast hp, Option.bind_some] at h
  split at h
  · cases h
  · split at h
    · cases h
    · split at h
      · cases h
      · omega

end StopPolicy

/-- The best of the percentages, at least zero. -/
def bestPercentage (percentages : List Binary64) : Binary64 :=
  percentages.foldl Binary64.max .zero

structure IterationRecord where
  /-- Counted from one. -/
  iteration : Nat
  snapshot : Snapshot
  /-- Tests made for this round, replacements included. -/
  generated : Nat
  strategies : NameSet
  compiled : Nat := 0
  abandoned : Nat := 0
  recordedAt : Timestamp
deriving DecidableEq, Repr, Inhabited

structure RunReport where
  runId : String
  outcome : Outcome
  records : List IterationRecord
  startedAt : Timestamp
  finishedAt : Timestamp
deriving DecidableEq, Repr, Inhabited

def percentages (records : List IterationRecord) : List Number.Binary64 :=
  records.map (·.snapshot.percentage)

namespace RunReport

def finalPercentage (r : RunReport) : Number.Binary64 :=
  (percentages r.records).getLast?.getD .zero

def best (r : RunReport) : Number.Binary64 := bestPercentage (percentages r.records)

end RunReport

def Timestamp.toJson (t : Timestamp) : Json := .text t.render

def Timestamp.ofJson? (j : Json) : Option Timestamp := j.asText?.bind fun s => parse? s.toList

namespace Outcome

def toJson (o : Outcome) : Json :=
  .record <| ("state", .text o.name) :: match o with
    | .fatal reason => [("reason", .text reason)]
    | _ => []

/-- Levels of a data file, and those of them left for an outcome inside a report. -/
def levels : Nat := 127

def levelsInReport : Nat := levels - 1

def ofJson? (depth : Nat) (j : Json) : Option Outcome := do
  let (kind, rest) ← j.tagged? "state" depth
  match kind with
  | "satisfied" => (rest.fields? []).map fun _ => .satisfied
  | "plateaued" => (rest.fields? []).map fun _ => .plateaued
  | "exhausted" => (rest.fields? []).map fun _ => .exhausted
  | "fatal" => ((← rest.fields? ["reason"]).required "reason" asText?).map .fatal
  | _ => none

end Outcome

namespace IterationRecord

/-- The fields that do not depend on when the record was made. -/
def measuredFields (r : IterationRecord) : List (String × Json) :=
  [("iteration_index", .nat r.iteration), ("snapshot", r.snapshot.toJson),
    ("artifacts_generated_this_round", .nat r.generated),
    ("strategies_applied", r.strategies.toJson), ("artifacts_compiled", .nat r.compiled),
    ("artifacts_abandoned", .nat r.abandoned)]

def toJson (r : IterationRecord) : Json :=
  .record (r.measuredFields ++ [("recorded_at", r.recordedAt.toJson)])

def ofJson? (j : Json) : Option IterationRecord := do
  let fs ← j.fields? ["iteration_index", "snapshot", "artifacts_generated_this_round",
    "strategies_applied", "artifacts_compiled", "artifacts_abandoned", "recorded_at"]
  return { iteration := ← fs.required "iteration_index" asNat32?
           snapshot := ← fs.required "snapshot" Snapshot.ofJson?
           generated := ← fs.required "artifacts_generated_this_round" asNat?
           strategies := ← fs.required "strategies_applied" NameSet.ofJson?
           compiled := ← fs.withDefault "artifacts_compiled" 0 asNat?
           abandoned := ← fs.withDefault "artifacts_abandoned" 0 asNat?
           recordedAt := ← fs.required "recorded_at" Timestamp.ofJson? }

end IterationRecord

namespace RunReport

def toJson (r : RunReport) : Json :=
  .record [("run_id", .text r.runId), ("outcome", r.outcome.toJson),
    ("history", .record [("records", .list (r.records.map IterationRecord.toJson))]),
    ("started_at", r.startedAt.toJson), ("finished_at", r.finishedAt.toJson)]

def ofJson? (j : Json) : Option RunReport := do
  let fs ← j.fields? ["run_id", "outcome", "history", "started_at", "finished_at"]
  return { runId := ← fs.required "run_id" asText?
           outcome := ← fs.required "outcome" (Outcome.ofJson? Outcome.levelsInReport)
           records := ← fs.required "history" fun h => do
             (← h.fields? ["records"]).required "records" (listOf? IterationRecord.ofJson?)
           startedAt := ← fs.required "started_at" Timestamp.ofJson?
           finishedAt := ← fs.required "finished_at" Timestamp.ofJson? }

end RunReport

open Text (asCode)

def shareText (percentage : Number.Binary64) (covered total : UInt64) : String :=
  percentage.reportText ++ "% (" ++ toString covered.toNat ++ "/" ++ toString total.toNat ++ ")"

/-- The row of an iteration. -/
def IterationRecord.summaryRow (r : IterationRecord) : String :=
  let s := r.snapshot
  let cells := [toString r.iteration,
    shareText s.percentage s.linesCovered s.linesTotal,
    shareText s.functionPercentage s.functionsCovered s.functionsTotal,
    toString r.generated, toString r.compiled, toString r.abandoned,
    if r.strategies.isEmpty then "-" else String.intercalate ", " r.strategies.members]
  "| " ++ String.intercalate " | " cells ++ " |"

def UncoveredLine.summaryItem (l : UncoveredLine) : String :=
  "- " ++ asCode (l.file ++ ":" ++ toString l.line) ++ " " ++ asCode (Text.trimString l.code)

namespace RunReport

/-- What the last iteration left uncovered. -/
def uncoveredSample (r : RunReport) : List UncoveredLine :=
  ((r.records.getLast?).map (·.snapshot.uncoveredLines)).getD []

/-- The summary, line by line. -/
def summaryLines (r : RunReport) : List String :=
  ["# Coverage Summary", "", "- run: " ++ asCode r.runId,
    "- outcome: **" ++ r.outcome.render ++ "**", "- iterations: " ++ toString r.records.length,
    "- best line coverage: " ++ r.best.reportText ++ "%", ""] ++
  if r.records.isEmpty then ["No iteration was measured."]
  else
    ["## Iterations", "",
      "| # | lines | functions | generated | compiled | abandoned | strategies |",
      "|---|-------|-----------|-----------|----------|-----------|------------|"] ++
    r.records.map IterationRecord.summaryRow ++
    if r.uncoveredSample.isEmpty then []
    else ["", "## Uncovered Sample", ""] ++ r.uncoveredSample.map UncoveredLine.summaryItem

def summary (r : RunReport) : String := String.join (r.summaryLines.map (· ++ "\n"))

end RunReport

end TestSynth
