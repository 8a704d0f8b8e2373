import TestSynth.Json.Decode
import TestSynth.Number.Binary64
import TestSynth.Text.Masking
/-!
What the texts of the coverage tools say, one fact at a time. A summary counts the lines of a
file, a listing the runs of each line and function, a trace both.
-/
namespace TestSynth.Coverage

open Text
open Number (parseWord64? parseWord32? Binary64)

/-- The unread output of the coverage tools for one build directory. -/
structure RawReport where
  summary : String := ""
  /-- Listings by file name. -/
  listings : List (String × String) := []
  trace : Option String := none
deriving DecidableEq, Repr, Inhabited

def RawReport.isEmpty (r : RawReport) : Bool :=
  (trim r.summary.toList).isEmpty && r.listings.isEmpty &&
    r.trace.all fun t => (trim t.toList).isEmpty

def RawReport.ofJson? (j : Json) : Option RawReport := do
  let fs ← j.fields? ["summary", "annotated", "lcov"]
  return { summary := ← fs.required "summary" Json.asText?
           listings :=
             ← fs.required "annotated" (Json.listOf? (Json.pairOf? Json.asText? Json.asText?))
           trace := ← fs.optional "lcov" Json.asText? }

/-- One fact. Code is known from listings only. -/
inductive Fact where
  | line (number : Nat) (hits : UInt64) (code : Option String)
  | function (name : String) (calls : UInt64)
  | lineSummary (covered total : UInt64)
  | functionSummary (covered total : UInt64)
deriving DecidableEq, Repr, Inhabited

/-- A fact about a file. -/
structure Observation where
  file : String
  fact : Fact
deriving DecidableEq, Repr, Inhabited

/-- What stands before and after the first character `c`. -/
def cutAtChar (c : Char) (cs : List Char) : Option (List Char × List Char) := cutAt [c] cs

/-- What follows the word at the front of a line. -/
def afterWord? (word : String) (cs : List Char) : Option (List Char) :=
  if word.toList.isPrefixOf cs then some (cs.drop word.length) else none

/-- The name in a line that starts the summary of a file. -/
def summaryFile? (line : List Char) : Option String :=
  (afterWord? "File '" line).bind fun rest =>
    if 1 < rest.length && rest.getLast? == some '\'' then some (String.ofList rest.dropLast)
    else none

/-- The two numbers of a summary line, as they are written. -/
def summaryNumbers? (line : List Char) : Option (List Char × List Char) :=
  (afterWord? "Lines executed:" line).bind fun rest =>
    let rest := trimStart rest
    let isPart (c : Char) : Bool := c.isDigit || c == '.'
    let percent := rest.takeWhile isPart
    (afterWord? "% of " (rest.dropWhile isPart)).bind fun rest =>
      let total := rest.takeWhile isDigitAnywhere
      if percent.isEmpty || total.isEmpty then none else some (percent, total)

/-- The lines covered by a percentage of a total, at most the total. -/
def coveredOf (percent : Binary64) (total : UInt64) : UInt64 :=
  min ((percent.div (.ofNat 100)).mul (.ofNat total.toNat)).roundToWord64 total

def summaryFact? (percent total : List Char) : Option Fact :=
  match Binary64.parse? percent, parseWord64? total with
  | some p, some t => some (.lineSummary (coveredOf p t) t)
  | _, _ => none

/-- Reads a summary. The first numbers after a file name are the file's. -/
def summaryObservations : Option String → List (List Char) → List Observation
  | _, [] => []
  | current, line :: rest =>
    let line := trim line
    match summaryFile? line with
    | some file => summaryObservations (some file) rest
    | none => match summaryNumbers? line, current with
      | some (percent, total), some file =>
        ((summaryFact? percent total).map (⟨file, ·⟩)).toList ++ summaryObservations none rest
      | _, _ => summaryObservations current rest

/-- Removes the ending of listings as often as it stands at the end. -/
def dropListingEnding (cs : List Char) : List Char :=
  go cs.length cs
where
  go : Nat → List Char → List Char
    | 0, cs => cs
    | n + 1, cs => if endsWith ".gcov".toList cs then go n (cs.take (cs.length - 5)) else cs

/-- The name and calls in a function line of a listing. -/
def functionFact? (line : List Char) : Option Fact :=
  (afterWord? "function " line).bind fun rest =>
    let name := rest.takeWhile (!isBlank ·)
    (afterWord? " called " (rest.drop name.length)).bind fun rest =>
      let calls := rest.takeWhile isDigitAnywhere
      if name.isEmpty || calls.isEmpty then none
      else some (.function (String.ofList name) ((parseWord64? calls).getD 0))

/-- How often a listing says a line ran. -/
def listedHits? (count : List Char) : Option UInt64 :=
  if "#####".toList.isPrefixOf count || "=====".toList.isPrefixOf count then some 0
  else parseWord64? (dropEndWhile (· == '*') count)

/-- A line of a listing: the number, the count as it is written, and the code. -/
def listingFields? (line : List Char) : Option (List Char × Nat × List Char) := do
  let (count, rest) ← cutAtChar ':' line
  let (number, code) ← cutAtChar ':' rest
  return (trim count, ← parseWord32? (trim number), code)

/-- Reads a listing of `file`; line zero can name another file. -/
def listingObservations : String → List (List Char) → List Observation
  | _, [] => []
  | file, line :: rest =>
    match functionFact? line with
    | some fact => ⟨file, fact⟩ :: listingObservations file rest
    | none => match listingFields? line with
      | none => listingObservations file rest
      | some (_, 0, code) => match afterWord? "Source:" code with
        | some path => listingObservations (String.ofList (trim path)) rest
        | none => listingObservations file rest
      | some (count, number, code) =>
        let fact := if count == ['-'] then none
          else (listedHits? count).map fun hits =>
            Fact.line number hits (some (String.ofList (trim code)))
        (fact.map (⟨file, ·⟩)).toList ++ listingObservations file rest

/-- Where a trace stands: the file of the record, whether it told single lines and functions, and
its counters. -/
structure TraceState where
  file : Option String := none
  sawLine : Bool := false
  sawFunction : Bool := false
  linesCovered : UInt64 := 0
  linesTotal : UInt64 := 0
  functionsCovered : UInt64 := 0
  functionsTotal : UInt64 := 0
deriving DecidableEq, Repr, Inhabited

def counter (value : List Char) : UInt64 := (parseWord64? (trim value)).getD 0

/-- The line number and hits of a line record. -/
def traceLine? (value : List Char) : Option Fact :=
  match fields (· == ',') value with
  | number :: hits :: _ => do
    return .line (← parseWord32? (trim number)) (← parseWord64? (trim hits)) none
  | _ => none

def traceFunction? (value : List Char) : Option Fact :=
  (cutAtChar ',' value).map fun (count, name) =>
    .function (String.ofList name) ((parseWord64? (trim count)).getD 0)

/-- The counters of a record that told no single lines or functions. -/
def TraceState.summaries (s : TraceState) : List Fact :=
  (if !s.sawLine && 0 < s.linesTotal then [.lineSummary s.linesCovered s.linesTotal] else []) ++
    (if !s.sawFunction && 0 < s.functionsTotal then
      [.functionSummary s.functionsCovered s.functionsTotal] else [])

/-- One line of a trace: the new state and what it says about the file. -/
def traceStep (s : TraceState) (line : List Char) : TraceState × List Observation :=
  let (tag, value) := (cutAtChar ':' line).getD (line, [])
  let about (facts : List Fact) : List Observation :=
    match s.file with
    | some file => facts.map (⟨file, ·⟩)
    | none => []
  match String.ofList tag with
  | "SF" => ({ file := some (String.ofList value) }, [])
  | "DA" => match s.file, traceLine? value with
    | some _, some fact => ({ s with sawLine := true }, about [fact])
    | _, _ => (s, [])
  | "FNDA" => match s.file, traceFunction? value with
    | some _, some fact => ({ s with sawFunction := true }, about [fact])
    | _, _ => (s, [])
  | "LH" => ({ s with linesCovered := counter value }, [])
  | "LF" => ({ s with linesTotal := counter value }, [])
  | "FNH" => ({ s with functionsCovered := counter value }, [])
  | "FNF" => ({ s with functionsTotal := counter value }, [])
  | "end_of_record" => ({ s with file := none }, about s.summaries)
  | _ => (s, [])

def traceObservations : TraceState → List (List Char) → List Observation
  | _, [] => []
  | s, line :: rest =>
    let (s', found) := traceStep s (trim line)
    found ++ traceObservations s' rest

/-- All that a report says, in order. -/
def RawReport.observations (r : RawReport) : List Observation :=
  summaryObservations none (lines r.summary.toList) ++
    r.listings.flatMap (fun (name, text) =>
      listingObservations (String.ofList (dropListingEnding name.toList)) (lines text.toList)) ++
    (r.trace.toList.flatMap fun t => traceObservations {} (lines t.toList))

end TestSynth.Coverage
