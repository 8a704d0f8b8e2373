import TestSynth.Programs.Records.Parser
import TestSynth.Programs.Records.Table
import TestSynth.Programs.Tool
/-!
What is known while rules are carried out: variables and arrays, the record with its fields, and what
is being read and written.
-/
namespace TestSynth.Programs.Records

open Process Number

/-- What the name of a parameter stands for. -/
inductive Binding where
  | value (v : Value)
  | table (index : Nat)
deriving Inhabited

/-- Why a statement is not followed by the next one. -/
inductive Stop where
  | leave
  | again
  | answer (v : Value)
  | next
  | nextInput
  | exit
deriving Inhabited

/-- Something that is being read: what is left, and with what status it ends. -/
structure Source where
  name : String
  rest : List Char
  status : Nat := 0
deriving Inhabited

inductive SinkKind where
  | output
  | messages
  /-- An open file of the system. -/
  | file (index : Nat)
  | command
deriving DecidableEq, Repr, Inhabited

/-- Something that is being written, with what was not passed on yet, the newest first. -/
structure Sink where
  name : String
  kind : SinkKind
  pending : List (List Char) := []
deriving Inhabited

/-- The name of standard output among what is being written. -/
def outputName : String := "/dev/stdout"

structure State where
  script : Script
  bindings : Std.HashMap String Value := {}
  tables : Array Table := #[]
  arrays : Std.HashMap String Nat := {}
  /-- The parameters of the function that runs. -/
  frame : List (String × Binding) := []
  record : String := ""
  fields : Array Value := #[]
  sources : List Source := []
  /-- What was used last comes first. -/
  sinks : List Sink := [{ name := outputName, kind := .output }]
  /-- The input that is being read, and the number of the next one. -/
  input : Option (List Char) := none
  nextOperand : Nat := 1
  hasInput : Bool := false
  /-- Rules that have started and not ended, by number. -/
  opened : List Nat := []
  status : Nat := 0
  isFinishing : Bool := false
deriving Inhabited

abbrev RecordM := ExceptT Stop (StateT State ToolM)

def ofTool {α : Type} (body : ToolM α) : RecordM α := ExceptT.lift (StateT.lift body)

def inSession {α : Type} (body : SessionM α) : RecordM α := ofTool (Tool.inSession body)

/-- A single character that stands for itself, blanks between words, or an expression. -/
inductive Separator where
  | blanks
  | everywhere
  | char (c : Char)
  | pattern (s : Regex.Searcher)

namespace Separator

/-- Cuts a text around its separators; a match of nothing separates nothing. -/
def cut (s : Separator) (text : String) : List String :=
  let cs := text.toList
  if cs.isEmpty then []
  else match s with
    | blanks => (words cs [] []).map String.ofList
    | everywhere => cs.map String.singleton
    | char c => (Text.fields (· == c) cs).map String.ofList
    | pattern p =>
      let found := (p.all cs).filter fun m => m.start < m.stop
      let starts := 0 :: found.map (·.stop)
      let stops := found.map (·.start) ++ [cs.length]
      (starts.zip stops).map fun (start, stop) => String.ofList ((cs.drop start).take (stop - start))
where
  words : List Char → List Char → List (List Char) → List (List Char)
    | [], word, found => (if word.isEmpty then found else word.reverse :: found).reverse
    | c :: cs, word, found =>
      if !isSpace c then words cs (c :: word) found
      else if word.isEmpty then words cs [] found
      else words cs [] (word.reverse :: found)

end Separator

/-- How a number in an expression is asked for where a text is wanted. -/
def formOf (s : State) (name : String) : String :=
  match s.bindings[name]? with
  | some (.text form) => form
  | some v => v.toText "%.6g"
  | none => "%.6g"

/-- The text of a value. -/
def textOf (v : Value) : RecordM String := do
  match v with
  | .none => return ""
  | .text s | .numeral s _ => return s
  | .number _ => return v.toText (formOf (← get) "CONVFMT")

/-- The text of a variable of all rules. -/
def globalText (name : String) : RecordM String := do
  textOf (((← get).bindings[name]?).getD .none)

/-- Ends everything because of something that cannot be done; the inputs so far are told. -/
def failRunning {α : Type} (message : String) : RecordM α := do
  let shown (name : String) : RecordM String := globalText name
  inSession (Session.say ((← ofTool get).name ++ ": run time error: " ++ message ++ "\n\tFILENAME=\"" ++
    (← shown "FILENAME") ++ "\" FNR=" ++ (← shown "FNR") ++ " NR=" ++ (← shown "NR") ++ "\n"))
  modify fun s => { s with status := 2, isFinishing := true }
  throw .exit

/-- Says what cannot be done and ends everything. -/
def failPlainly {α : Type} (message : String) : RecordM α := do
  inSession (Session.say ((← ofTool get).name ++ ": " ++ message ++ "\n"))
  modify fun s => { s with status := 2, isFinishing := true }
  throw .exit

/-- A text as an expression to search for. -/
def searcherOf (text : String) : RecordM Regex.Searcher := do
  match Regex.parse .quoting text.toList with
  | .ok r => return Regex.searcher r
  | .error problem =>
    failRunning ("regular expression compile failed (" ++ Fault.problemText problem ++ ")\n" ++ text)

/-- The separator that a text stands for. -/
def separatorOf (text : String) : RecordM Separator := do
  match text.toList with
  | [' '] => return .blanks
  | [] => return .everywhere
  | [c] => return .char c
  | _ => return .pattern (← searcherOf text)

/-- Takes a new record and cuts it into fields. -/
def setRecord (text : String) : RecordM Unit := do
  let separator ← separatorOf (← globalText "FS")
  modify fun s => { s with record := text, fields := ((separator.cut text).map Value.ofInput).toArray }

/-- Joins the fields to the record again. -/
def joinFields : RecordM Unit := do
  let texts ← (← get).fields.toList.mapM textOf
  let between ← globalText "OFS"
  modify fun s => { s with record := String.intercalate between texts }

/-- Changes the number of fields. -/
def resize (count : Nat) : RecordM Unit := do
  modify fun s => { s with
    fields := s.fields.take count ++ Array.replicate (count - s.fields.size) (.text "") }
  joinFields

def getField (index : Nat) : RecordM Value := do
  let s ← get
  if index = 0 then return .ofInput s.record else return (s.fields[index - 1]?).getD .none

def setField (index : Nat) (v : Value) : RecordM Unit := do
  if index = 0 then setRecord (← textOf v)
  else
    if (← get).fields.size < index then
      modify fun s => { s with
        fields := s.fields ++ Array.replicate (index - s.fields.size) (.text "") }
    modify fun s => { s with fields := s.fields.set! (index - 1) v }
    joinFields

/-- The name of the number of fields, which is kept nowhere else. -/
def countName : String := "NF"

def getVariable (name : String) : RecordM Value := do
  let s ← get
  match s.frame.lookup name with
  | some (.value v) => return v
  | some (.table _) => return .none
  | none =>
    if name == countName then return .ofNat s.fields.size
    else return (s.bindings[name]?).getD .none

def setVariable (name : String) (v : Value) : RecordM Unit := do
  let s ← get
  if (s.frame.lookup name).isSome then
    set { s with frame := s.frame.map fun (n, b) => (n, if n == name then .value v else b) }
  else if name == countName then
    match v.toNumber.truncate? with
    | some n =>
      if n < 0 then failRunning "negative value assigned to NF"
      resize n.toNat
    | none => failRunning "negative value assigned to NF"
  else set { s with bindings := s.bindings.insert name v }

/-- Counts a record that was read from the inputs. -/
def countRecord : RecordM Unit := do
  for name in ["NR", "FNR"] do
    let n := (← getVariable name).toNumber
    modify fun s => { s with bindings := s.bindings.insert name (.number (n.add (Binary64.ofNat 1))) }

/-- A new array without elements. -/
def newTable (t : Table := {}) : RecordM Nat := modifyGet fun s =>
  (s.tables.size, { s with tables := s.tables.push t })

/-- The array of a name. -/
def tableOf (name : String) : RecordM Nat := do
  let s ← get
  match s.frame.lookup name with
  | some (.table index) => return index
  | some (.value _) => newTable
  | none => match s.arrays[name]? with
    | some index => return index
    | none =>
      let index ← newTable
      modify fun s => { s with arrays := s.arrays.insert name index }
      return index

def changeTable (index : Nat) (f : Table → Table) : RecordM Unit :=
  modify fun s => { s with tables := s.tables.modify index f }

def getTable (index : Nat) : RecordM Table := do return ((← get).tables[index]?).getD {}

/-- Whether a name stands for an array by now. -/
def isArray (name : String) : RecordM Bool := do
  let s ← get
  match s.frame.lookup name with
  | some (.table _) => return true
  | some (.value _) => return false
  | none => return s.arrays.contains name

end TestSynth.Programs.Records
