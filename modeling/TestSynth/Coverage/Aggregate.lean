import TestSynth.Coverage.Observation
import TestSynth.Coverage.Snapshot
import TestSynth.OrderedMap
/-!
Many reports as one snapshot. A line or function counts once, with the highest count any report
gives it; a summary counts for a file that no report tells line by line.
-/
namespace TestSynth.Coverage

open Text (containsString)

/-- Parts of file names that never belong to the project. -/
def defaultExclusions : List String := ["/usr/", "gtest", "googletest"]

/-- What to leave out, and how many uncovered items to keep. -/
structure Aggregation where
  exclusions : List String := defaultExclusions
  sample : Nat := 20
deriving DecidableEq, Repr, Inhabited

def Aggregation.excluding (extra : List String) (sample : Nat) : Aggregation :=
  ⟨defaultExclusions ++ extra, sample⟩

def Aggregation.excludes (a : Aggregation) (file : String) : Bool :=
  a.exclusions.any fun part => !part.isEmpty && containsString part file

/-- The highest count of a line, and the first code text seen for it. -/
structure LineHit where
  hits : UInt64
  code : Option String
deriving DecidableEq, Repr, Inhabited

/-- Covered and total. -/
abbrev Ratio := UInt64 × UInt64

/-- Everything observed, by file. -/
structure Tally where
  lines : OrderedMap String (OrderedMap Nat LineHit) := .empty
  functions : OrderedMap String (OrderedMap String UInt64) := .empty
  lineSummaries : OrderedMap String Ratio := .empty
  functionSummaries : OrderedMap String Ratio := .empty
deriving DecidableEq, Repr, Inhabited

def LineHit.add (hits : UInt64) (code : Option String) : Option LineHit → LineHit
  | none => ⟨hits, code⟩
  | some h => ⟨max h.hits hits, h.code.orElse fun _ => code⟩

/-- The summary with more covered; of two equal ones the first. -/
def better (new : Ratio) : Option Ratio → Ratio
  | none => new
  | some old => if old.1 < new.1 then new else old

def Tally.add (t : Tally) (o : Observation) : Tally :=
  match o.fact with
  | .line number hits code =>
    { t with lines := t.lines.alter o.file fun m =>
        (m.getD .empty).alter number (LineHit.add hits code) }
  | .function name calls =>
    { t with functions := t.functions.alter o.file fun m =>
        (m.getD .empty).alter name fun old => max (old.getD 0) calls }
  | .lineSummary covered total =>
    { t with lineSummaries := t.lineSummaries.alter o.file (better (covered, total)) }
  | .functionSummary covered total =>
    { t with functionSummaries := t.functionSummaries.alter o.file (better (covered, total)) }

/-- A number as a word, if it fits. -/
def word? (n : Nat) : Option UInt64 := if n < UInt64.size then some n.toUInt64 else none

/-- The summaries of the files that `told` does not list. -/
def untold {α : Type} (summaries : OrderedMap String Ratio) (told : OrderedMap String α) :
    List Ratio :=
  (summaries.entries.filter fun e => !told.contains e.1).map (·.2)

/-- How many of the counts there are, and how many are not zero. -/
def ratioOf (counts : List UInt64) : Nat × Nat :=
  ((counts.filter (0 < ·)).length, counts.length)

/-- Counts and summaries together; none if a sum does not fit into a word. -/
def totalRatio? (counts : List UInt64) (summaries : List Ratio) : Option Ratio := do
  let (covered, total) := ratioOf counts
  return (← word? (covered + Number.total (summaries.map (·.1.toNat))),
    ← word? (total + Number.total (summaries.map (·.2.toNat))))

def Tally.lineHits (t : Tally) : List (String × Nat × LineHit) :=
  t.lines.entries.flatMap fun (file, m) => m.entries.map fun (number, h) => (file, number, h)

def Tally.functionCalls (t : Tally) : List (String × UInt64) :=
  t.functions.values.flatMap (·.entries)

/-- The snapshot of what was observed, with at most `sample` uncovered items of each kind; none if
a counter does not fit into a word. -/
def Tally.snapshot? (t : Tally) (sample : Nat) : Option Snapshot := do
  let (linesCovered, linesTotal) ←
    totalRatio? (t.lineHits.map (·.2.2.hits)) (untold t.lineSummaries t.lines)
  let (functionsCovered, functionsTotal) ←
    totalRatio? (t.functionCalls.map (·.2)) (untold t.functionSummaries t.functions)
  return Snapshot.recomputed
    { linesCovered, linesTotal, functionsCovered, functionsTotal
      uncoveredLines := ((t.lineHits.filter (·.2.2.hits == 0)).map fun (file, number, h) =>
        ⟨file, number, h.code.getD ""⟩).take sample
      uncoveredFunctions := ((t.functionCalls.filter (·.2 == 0)).map (·.1)).take sample }

/-- What the reports say about files that are not left out. -/
def Aggregation.observations (a : Aggregation) (reports : List RawReport) : List Observation :=
  (reports.flatMap RawReport.observations).filter fun o => !a.excludes o.file

/-- The snapshot of many reports; the empty one if they say nothing, and none if a counter of it
does not fit into a word. -/
def Aggregation.merge? (a : Aggregation) (reports : List RawReport) : Option Snapshot :=
  match a.observations reports with
  | [] => some {}
  | found => (found.foldl Tally.add {}).snapshot? a.sample

end TestSynth.Coverage
