import TestSynth.Programs.Condition
import TestSynth.Programs.Format
import TestSynth.Programs.Options
/-!
Programs that print what their arguments say or test it.
-/
namespace TestSynth.Programs

open Process Tool

/-- The arguments with blanks between them, on a line. The letters of leading options say whether
the line has no end and whether escapes count. -/
def echo : Program := fun _ arguments => do
  let isOption (w : String) : Bool :=
    match w.toList with
    | '-' :: c :: cs => (c :: cs).all fun l => l == 'n' || l == 'e' || l == 'E'
    | _ => false
  let options := arguments.takeWhile isOption
  let letters := options.flatMap fun w => w.toList.drop 1
  let text := (String.intercalate " " (arguments.drop options.length)).toList
  let escapes := (letters.filter fun c => c == 'e' || c == 'E').getLast? == some 'e'
  let (text, stops) := if escapes then unescape text.length text else (text, false)
  put (if letters.contains 'n' || stops then text else text ++ ['\n'])

def printf : Program := fun _ arguments => do
  match (if arguments.head? == some "--" then arguments.drop 1 else arguments) with
  | [] => abortWithHint "missing operand"
  | format :: arguments =>
    let p := printFormat format arguments
    for w in p.warnings do
      let cs := w.toList
      let (text, problem) := match Text.cutAtLast [':', ' '] cs with
        | some (text, problem) => (String.ofList text, String.ofList problem)
        | none => (w, "")
      let problem := if problem == "not completely converted" then "value not completely converted"
        else problem
      complain (quote text ++ ": " ++ problem)
    put p.output.reverse
    if let some message := p.failure then complain message

/-- Tests a condition, which ends with a bracket if the program is named so. -/
def test : Program := fun _ arguments => do
  let name := (← get).name
  let words ← if name.toList.getLast? == some '[' then
      if arguments.getLast? == some "]" then pure arguments.dropLast
      else abort ("missing " ++ quote "]") 2
    else pure arguments
  match Condition.evaluate (← tree) words with
  | .ok value => setStatus (if value then 0 else 1)
  | .error message => abort message 2

/-- The number of seconds that a text writes, with a letter for a longer unit. -/
def isDuration (word : String) : Bool :=
  let cs := word.toList
  let cs := if cs.getLast?.any fun c => "smhd".toList.contains c then cs.dropLast else cs
  match Number.Binary64.readFront? cs with
  | some (x, []) => !x.isNegative
  | _ => false

/-- Waits, which takes no time here. -/
def sleep : Program := fun _ arguments => do
  let o ← ({ } : OptionTable).read arguments
  if o.operands.isEmpty then abortWithHint "missing operand"
  let bad := o.operands.filter (!isDuration ·)
  for w in bad do complain ("invalid time interval " ++ quote w)
  if !bad.isEmpty then abortHint
where
  abortHint : ToolM Unit := do
    say ("Try '" ++ (← get).name ++ " --help' for more information.\n")
    finish 1

def pwd : Program := fun _ _ => do
  printLine (Text.spread (FileTree.absolutePath (← get).session.directory).text)

def printEnvironment : Program := fun _ arguments => do
  let environment := (← get).session.environment
  if arguments.isEmpty then
    for (name, value) in environment do printLine (name ++ "=" ++ value)
  else
    for name in arguments do
      match environment.lookup name with
      | some value => printLine value
      | none => setStatus 1

/-- Lines that a program prints at once that would print without end. -/
def endlessLines : Nat := 20000

def yes : Program := fun _ arguments => do
  let line := (if arguments.isEmpty then "y" else String.intercalate " " arguments) ++ "\n"
  put (List.replicate endlessLines line.toList).flatten

end TestSynth.Programs
