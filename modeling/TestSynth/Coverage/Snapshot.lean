import TestSynth.Json.Decode
import TestSynth.Number.Binary64
/-!
What one measurement says: counters of lines and functions, and a sample of what never ran; and the
same as structured data.
-/
namespace TestSynth

open Number (Binary64)

structure UncoveredLine where
  file : String
  line : Nat
  code : String
deriving DecidableEq, Repr, Inhabited

/-- The share of a whole in percent; of nothing it is zero. -/
def percentage (part whole : UInt64) : Binary64 :=
  if whole = 0 then .zero
  else ((Binary64.ofNat 100).mul (.ofNat part.toNat)).div (.ofNat whole.toNat)

structure Snapshot where
  linesCovered : UInt64 := 0
  linesTotal : UInt64 := 0
  functionsCovered : UInt64 := 0
  functionsTotal : UInt64 := 0
  /-- In the order of files and lines. -/
  uncoveredLines : List UncoveredLine := []
  uncoveredFunctions : List String := []
  percentage : Binary64 := .zero
deriving DecidableEq, Repr, Inhabited

namespace Snapshot

/-- The snapshot with the percentage that its counters give. -/
def recomputed (s : Snapshot) : Snapshot :=
  { s with percentage := TestSynth.percentage s.linesCovered s.linesTotal }

def functionPercentage (s : Snapshot) : Binary64 :=
  TestSynth.percentage s.functionsCovered s.functionsTotal

def isEmpty (s : Snapshot) : Bool := s.linesTotal == 0 && s.functionsTotal == 0

/-- The files of the sample in its order, neighbours of one file as one. -/
def uncoveredFiles (s : Snapshot) : List String := (s.uncoveredLines.map (·.file)).eraseReps

end Snapshot

open Json (asText? asNat32? asWord64? asFloat? listOf?)

def UncoveredLine.toJson (l : UncoveredLine) : Json :=
  .record [("file", .text l.file), ("line", .nat l.line), ("code", .text l.code)]

def UncoveredLine.ofJson? (j : Json) : Option UncoveredLine := do
  let fs ← j.fields? ["file", "line", "code"]
  return { file := ← fs.required "file" asText?
           line := ← fs.required "line" asNat32?
           code := ← fs.required "code" asText? }

def Snapshot.toJson (s : Snapshot) : Json :=
  .record [("lines_covered", .word s.linesCovered), ("lines_total", .word s.linesTotal),
    ("functions_covered", .word s.functionsCovered), ("functions_total", .word s.functionsTotal),
    ("uncovered_lines", .list (s.uncoveredLines.map UncoveredLine.toJson)),
    ("uncovered_functions", .texts s.uncoveredFunctions), ("percentage", .float s.percentage)]

def Snapshot.ofJson? (j : Json) : Option Snapshot := do
  let fs ← j.fields? ["lines_covered", "lines_total", "functions_covered", "functions_total",
    "uncovered_lines", "uncovered_functions", "percentage"]
  return { linesCovered := ← fs.required "lines_covered" asWord64?
           linesTotal := ← fs.required "lines_total" asWord64?
           functionsCovered := ← fs.required "functions_covered" asWord64?
           functionsTotal := ← fs.required "functions_total" asWord64?
           uncoveredLines := ← fs.required "uncovered_lines" (listOf? UncoveredLine.ofJson?)
           uncoveredFunctions :=
             ← fs.withDefault "uncovered_functions" [] (listOf? asText?)
           percentage := ← fs.required "percentage" asFloat? }

end TestSynth
