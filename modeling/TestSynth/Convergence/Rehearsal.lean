import TestSynth.Convergence.Collaborators
import TestSynth.NameSet
/-!
Collaborators that follow a script, to rehearse runs without tools. What they were asked is
counted.
-/
namespace TestSynth

open Number (Binary64)

/-- What the collaborators were asked. -/
structure CallCount where
  compiles : Nat := 0
  compiledIds : List String := []
  runs : Nat := 0
  prompts : Nat := 0
deriving DecidableEq, Repr, Inhabited

/-- The answers of a rehearsal. A report is none when collecting fails, a reply when completing
does. -/
structure Rehearsal where
  compile : CompileRequest → Except Failure CompileResult
  run : Path → Except Failure ExecutionResult := fun _ => .ok { exitCode := some 0 }
  /-- By the number of the iteration. -/
  report? : Nat → Option Coverage.RawReport := fun _ => some {}
  /-- By how many prompts came before. -/
  reply? : Option (Nat → Option String) := none

/-- The element at an index, or the last one past the end. -/
def atOrLast? {α : Type} (xs : List α) (index : Nat) : Option α :=
  xs[index]?.orElse fun _ => xs.getLast?

/-- The number of the iteration that a build directory belongs to; the first when it names none. -/
def iterationOf (buildDir : Path) : Nat :=
  let numbers := buildDir.components.filterMap fun
    | .name n => if "iter-".toList.isPrefixOf n.toList then
        (Number.parseWord64? (n.toList.drop 5)).map UInt64.toNat else none
    | _ => none
  max 1 (numbers.headD 1)

namespace Rehearsal

abbrev Stage := World CallCount

/-- Counts a call. -/
def note (f : CallCount → CallCount) : StateM Stage Unit :=
  modify fun w => { w with memory := f w.memory }

def collaborators (r : Rehearsal) : Collaborators CallCount where
  compile request := do
    let result := r.compile request
    note fun n => { n with
      compiles := n.compiles + 1
      compiledIds := match result with
        | .ok (.compiled _) => n.compiledIds ++ [request.artifact.id]
        | _ => n.compiledIds }
    return result
  run binary := do
    note fun n => { n with runs := n.runs + 1 }
    return r.run binary
  collect buildDir := pure <| match r.report? (iterationOf buildDir) with
    | some report => .ok report
    | none => .error (.harness "no report")
  complete? := r.reply?.map fun reply _ => do
    let count := (← get).memory.prompts
    note fun n => { n with prompts := n.prompts + 1 }
    return match reply count with
      | some text => .ok text
      | none => .error (.completion "connection refused")

/-- The binary a request is compiled to. -/
def binaryOf (request : CompileRequest) : Path := request.buildDir.join ⟨request.artifact.id⟩

/-- Lines of the file that scripted reports are about. -/
def scriptedLines : Nat := 1000

def padLeft (width : Nat) (s : String) : String :=
  String.ofList (List.replicate (width - s.length) ' ') ++ s

/-- A line of a scripted listing. -/
def listingLine (count : String) (number : Nat) : String :=
  padLeft 9 count ++ ":" ++ padLeft 5 (toString number) ++ ":    if (x > " ++ toString number ++
    ") \x7b step(); \x7d\n"

/-- A listing in which the given share of the lines ran. -/
def scriptedReport (percentage : Binary64) : Coverage.RawReport :=
  let covered := ((percentage.div (.ofNat 100)).mul (.ofNat scriptedLines)).roundToWord64.toNat
  let body := (List.range scriptedLines).map fun i =>
    listingLine (if i < covered then "1" else "#####") (i + 1)
  { listings := [("box.cpp.gcov",
      "        -:    0:Source:/project/src/box.cpp\n" ++ String.join body)] }

/-- Which tests a script lets fail. -/
structure Failing where
  ids : List String := []
  prefixes : List String := []
  everything : Bool := false
deriving DecidableEq, Repr, Inhabited

def Failing.holds (f : Failing) (id : String) : Bool :=
  f.everything || f.ids.contains id || f.prefixes.any fun p => p.toList.isPrefixOf id.toList

/-- A rehearsal with a share of covered lines for each iteration. -/
def scripted (failing : Failing) (percentages : List Binary64)
    (reply? : Option (Nat → Option String)) : Rehearsal where
  compile request :=
    let id := request.artifact.id
    if failing.holds id then
      .ok (.failed (id ++ ".cpp:1:1: error: scripted failure for " ++ id))
    else .ok (.compiled (binaryOf request))
  report? iteration :=
    some (((atOrLast? percentages (iteration - 1)).map scriptedReport).getD {})
  reply?

/-- What a rule does to the tests it is for. -/
inductive Effect where
  | fail
  | timeOut
  | noBinary
  | harnessError
  | runError
  | runFailure
deriving DecidableEq, Repr, Inhabited

def Effect.isAboutRunning : Effect → Bool
  | .runError | .runFailure => true
  | _ => false

/-- A rule for the tests whose names start with some text. -/
structure Rule where
  start : String
  effect : Effect
  text : String := ""
deriving DecidableEq, Repr, Inhabited

/-- The first rule for a test that is, or is not, about running it. -/
def ruleFor? (rules : List Rule) (id : String) (running : Bool) : Option Rule :=
  rules.find? fun r => r.start.toList.isPrefixOf id.toList && r.effect.isAboutRunning == running

/-- A rehearsal that follows rules. -/
def ruled (rules : List Rule) (reports : Nat → Option Coverage.RawReport)
    (reply? : Option (Nat → Option String)) : Rehearsal where
  compile request := match ruleFor? rules request.artifact.id false with
    | none => .ok (.compiled (binaryOf request))
    | some r => match r.effect with
      | .timeOut => .ok (.timedOut r.text)
      | .noBinary => .ok .withoutBinary
      | .harnessError => .error (.harness r.text)
      | _ => .ok (.failed r.text)
  run binary := match ruleFor? rules (binary.fileName?.getD "") true with
    | none => .ok { exitCode := some 0 }
    | some r => if r.effect == .runError then .error (.harness r.text)
      else .ok { exitCode := some 1 }
  report? := reports
  reply?

end Rehearsal

end TestSynth
