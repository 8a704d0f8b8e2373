import TestSynth.Programs.Records.Evaluation
/-!
The program that carries out rules for the records of its inputs.
-/
namespace TestSynth.Programs.Records

open Process Number

/-- Whether a rule applies to the record. A rule for a range is remembered by its number. -/
def applies (launch : Launcher) (index : Nat) : Condition → RecordM Bool
  | .start | .finish => return false
  | .always => return true
  | .whenever e => do return (← evaluate launch nestingLimit e).isTrue
  | .between first last => do
    let isOpen := (← get).opened.contains index
    let starts ← if isOpen then pure true
      else do pure (← evaluate launch nestingLimit first).isTrue
    if !starts then return false
    let ends := (← evaluate launch nestingLimit last).isTrue
    modify fun s => { s with
      opened := if ends then s.opened.filter (· != index)
        else if isOpen then s.opened else index :: s.opened }
    return true

def runRule (launch : Launcher) (body : Statement) : RecordM Unit := do
  modify fun s => { s with frame := [] }
  evaluate.execute launch nestingLimit body

/-- The rules that are for one edge of the inputs. -/
def runEdge (launch : Launcher) (isEdge : Condition → Bool) : RecordM Unit := do
  (← get).script.rules.forM fun r => do
    if isEdge r.condition then runRule launch r.body

/-- The rules for one record. -/
def runRecord (launch : Launcher) (rules : List (Nat × Rule)) : RecordM Unit := do
  try
    rules.forM fun (index, r) => do
      if ← applies launch index r.condition then runRule launch r.body
  catch
    | .next => return ()
    | .nextInput => modify fun s => { s with input := none }
    | other => throw other

/-- The rules for all records. -/
def runRecords (launch : Launcher) (rules : List (Nat × Rule)) : RecordM Unit :=
  repeatWhile (do
    match ← readRecord with
    | none => return false
    | some record =>
      setRecord record
      runRecord launch rules
      return true) roundLimit

/-- Goes on after an end that was asked for. -/
def untilExit (body : RecordM Unit) : RecordM Unit := do
  try body catch
    | .exit => if (← get).isFinishing then throw .exit
    | _ => return ()

/-- Carries out all rules. -/
def runScript (launch : Launcher) : RecordM Unit := do
  let rules := (← get).script.rules
  let isStart (c : Condition) : Bool := match c with
    | .start => true
    | _ => false
  let isFinish (c : Condition) : Bool := match c with
    | .finish => true
    | _ => false
  let others := (rules.zipIdx.map fun (r, index) => (index, r)).filter fun (_, r) =>
    !isStart r.condition && !isFinish r.condition
  let whole : RecordM Unit := do
    untilExit do
      runEdge launch isStart
      if !others.isEmpty || rules.any (fun r => isFinish r.condition) then runRecords launch others
    untilExit (runEdge launch isFinish)
  try whole catch _ => pure ()
  closeSinks launch

/-- What a command line asks for. -/
structure Request where
  separator : Option String := none
  assignments : List String := []
  files : List String := []
  operands : List String := []

/-- Words that are accepted and change nothing. -/
def idleOptions : List String :=
  ["--posix", "--traditional", "--re-interval", "--lint", "--no-repetitions", "--repetitions"]

/-- Reads the options in front of the operands. -/
def readOptions (r : Request) : List String → Except String Request
  | [] => .ok r
  | "--" :: rest => .ok { r with operands := rest }
  | word :: rest =>
    if idleOptions.contains word then readOptions r rest
    else match word.toList with
      | '-' :: letter :: cs =>
        let store (value : String) : Option Request := match letter with
          | 'F' => some { r with separator := some value }
          | 'v' => some { r with assignments := r.assignments ++ [value] }
          | 'f' => some { r with files := r.files ++ [value] }
          | 'W' => some r
          | _ => none
        match store (String.ofList cs), cs, rest with
        | none, _, _ => .error ("not an option: " ++ word)
        | some r, _ :: _, rest => readOptions r rest
        | some _, [], [] => .error ("option -" ++ String.singleton letter ++ " lacks argument")
        | some _, [], value :: rest => readOptions ((store value).getD r) rest
      | _ => .ok { r with operands := word :: rest }

/-- How the program is called. -/
def usage : String :=
  "Usage: mawk [Options] [Program] [file ...]\n\nProgram:\n" ++
  "    The -f option value is the name of a file containing program text.\n" ++
  "    If no -f option is given, a \"--\" ends option processing; the following\n" ++
  "    parameters are the program text.\n\nOptions:\n" ++
  "    -f program-file  Program  text is read from file instead of from the\n" ++
  "                     command-line.  Multiple -f options are accepted.\n" ++
  "    -F value         sets the field separator, FS, to value.\n" ++
  "    -v var=value     assigns value to program variable var.\n" ++
  "    --               unambiguous end of options.\n\n" ++
  "    Implementation-specific options are prefixed with \"-W\".  They can be\n" ++
  "    abbreviated:\n\n" ++
  "    -W version       show version information and exit.\n" ++
  "    -W compat        pre-POSIX 2001.\n" ++
  "    -W dump          show assembler-like listing of program and exit.\n" ++
  "    -W help          show this message and exit.\n" ++
  "    -W interactive   set unbuffered output, line-buffered input.\n" ++
  "    -W exec file     use file as program as well as last option.\n" ++
  "    -W posix         stricter POSIX checking.\n" ++
  "    -W random=number set initial random seed.\n" ++
  "    -W sprintf=number adjust size of sprintf buffer.\n" ++
  "    -W usage         show this message and exit.\n"

/-- The text of the rules, and the operands that are left. -/
def scriptText (r : Request) : ToolM (String × List String) := do
  match r.files with
  | [] => match r.operands with
    | [] =>
      Tool.say usage
      Tool.finish 0
    | text :: rest => return (text, rest)
  | files =>
    let mut texts := []
    for name in files do
      match ← Tool.content name with
      | .ok cs => texts := String.ofList cs :: texts
      | .error e => Tool.abort ("cannot open \"" ++ name ++ "\" (" ++ e.reason ++ ")") 2
    return (String.intercalate "\n" texts.reverse, r.operands)

/-- The variables at the start. -/
def startState (script : Script) (name : String) (r : Request) (operands : List String)
    (environment : List (String × String)) : State :=
  let words := name :: operands
  let fill (pairs : List (Key × Value)) : Table :=
    pairs.foldl (fun t (k, v) => (t.use k true).set k v) {}
  let arguments := fill (words.zipIdx.map fun (w, k) => (.whole k, .ofInput w))
  let bindings : List (String × Value) :=
    [("FS", .text (r.separator.elim " " withEscapes)), ("OFS", .text " "), ("ORS", .text "\n"),
      ("RS", .text "\n"), ("SUBSEP", .text "\x1c"), ("CONVFMT", .text "%.6g"),
      ("OFMT", .text "%.6g"), ("NR", .number .zero), ("FNR", .number .zero),
      ("RSTART", .number .zero), ("RLENGTH", .number (Binary64.ofInt (-1))),
      ("FILENAME", .text ""), ("ARGC", .ofNat words.length)]
  { script
    bindings := .ofList bindings
    tables := #[arguments, fill (environment.map fun (k, v) => (.text k, .ofInput v))]
    arrays := .ofList [("ARGV", 0), ("ENVIRON", 1)] }

/-- Carries out the rules of a script for the records of the operands. -/
def awk : Program := fun launch arguments => do
  let request ← match readOptions {} arguments with
    | .ok r => pure r
    | .error message => Tool.abort message 2
  let (text, operands) ← scriptText request
  let script ← match Script.read text with
    | .ok s => pure s
    | .error fault => Tool.abort fault.message 2
  let name := (← get).name
  let start := startState script name request operands (← get).session.environment
  let assigned : RecordM Unit := do
    for word in request.assignments do
      match assignment? word with
      | some (key, value) => setVariable key (.ofInput (withEscapes value))
      | none => failPlainly ("improper assignment: -v " ++ word)
    runScript launch
  let (_, final) ← (assigned.run).run start
  Tool.finish final.status

end TestSynth.Programs.Records
