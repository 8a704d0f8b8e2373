import TestSynth.Programs.Tool
/-!
Options in front of and between the arguments of programs. A letter follows one dash, a name two.
-/
namespace TestSynth.Programs

/-- Whether an option comes with a value. -/
inductive Valued where
  | never
  | always
  | maybe
deriving DecidableEq, Repr

/-- The options of a program: letters without a value, letters with one, and names, each with the
option that it stands for. -/
structure OptionTable where
  letters : String := ""
  valued : String := ""
  names : List (String × String × Valued) := []
  /-- The status after a wrong option. -/
  misuse : Nat := 1
  /-- Whether options may stand behind arguments. -/
  anywhere : Bool := true
  /-- What is said before the hint to the help. -/
  usage : String := ""

/-- The options that were given, in order, each with its value, and the other arguments. -/
structure Options where
  given : List (String × String) := []
  operands : List String := []

namespace Options

def has (o : Options) (key : String) : Bool := o.given.any (·.1 == key)

/-- The last value of an option. -/
def value? (o : Options) (key : String) : Option String := (o.given.reverse.lookup key)

def values (o : Options) (key : String) : List String :=
  (o.given.filter (·.1 == key)).map (·.2)

/-- The last option given of several. -/
def last? (o : Options) (keys : List String) : Option String :=
  ((o.given.map (·.1)).reverse).find? fun k => keys.contains k

end Options

namespace OptionTable

open Tool

def misused {α : Type} (t : OptionTable) (message : String) : ToolM α := do
  let name := (← get).name
  complain message t.misuse
  say t.usage
  say ("Try '" ++ name ++ " --help' for more information.\n")
  finish t.misuse

/-- The options that the letters behind a dash stand for, and the arguments that are left. -/
def readLetters (t : OptionTable) (rest : List String) :
    List Char → ToolM (List (String × String) × List String)
  | [] => return ([], rest)
  | c :: cs => do
    let key := String.singleton c
    if t.valued.toList.contains c then
      if !cs.isEmpty then return ([(key, String.ofList cs)], rest)
      match rest with
      | value :: rest => return ([(key, value)], rest)
      | [] => t.misused ("option requires an argument -- " ++ quote key)
    else if t.letters.toList.contains c then
      let (more, rest) ← t.readLetters rest cs
      return ((key, "") :: more, rest)
    else t.misused ("invalid option -- " ++ quote key)

/-- The option that a name behind two dashes stands for, and the arguments that are left. -/
def readName (t : OptionTable) (word : String) (rest : List String) :
    ToolM (List (String × String) × List String) := do
  let cs := word.toList.drop 2
  let name := String.ofList (cs.takeWhile (· != '='))
  let value := if cs.contains '=' then some (String.ofList (cs.drop (name.length + 1))) else none
  let candidates := match t.names.find? (·.1 == name) with
    | some exact => [exact]
    | none => t.names.filter fun e => e.1.startsWith name
  match candidates with
  | [] => t.misused ("unrecognized option " ++ quote ("--" ++ name))
  | (full, key, valued) :: others =>
    if others.any (·.2.1 != key) then
      t.misused ("option " ++ quote ("--" ++ name) ++ " is ambiguous; possibilities:" ++
        String.join (candidates.map fun c => " " ++ quote ("--" ++ c.1)))
    match valued, value with
    | .never, some _ => t.misused ("option " ++ quote ("--" ++ full) ++ " doesn't allow an argument")
    | .never, none => return ([(key, "")], rest)
    | .maybe, value => return ([(key, value.getD "")], rest)
    | .always, some value => return ([(key, value)], rest)
    | .always, none => match rest with
      | value :: rest => return ([(key, value)], rest)
      | [] => t.misused ("option " ++ quote ("--" ++ full) ++ " requires an argument")

/-- Reads options; the first argument bounds the number of arguments. -/
def readWithin (t : OptionTable) : Nat → List String → ToolM Options
  | 0, words => return { operands := words }
  | _, [] => return {}
  | n + 1, word :: rest => do
    let cs := word.toList
    if word == "--" then return { operands := rest }
    else if cs.take 2 == ['-', '-'] then
      let (found, rest) ← t.readName word rest
      let o ← t.readWithin n rest
      return { o with given := found ++ o.given }
    else if cs.head? == some '-' && 1 < cs.length then
      let (found, rest) ← t.readLetters rest (cs.drop 1)
      let o ← t.readWithin n rest
      return { o with given := found ++ o.given }
    else if t.anywhere then
      let o ← t.readWithin n rest
      return { o with operands := word :: o.operands }
    else return { operands := word :: rest }

def read (t : OptionTable) (arguments : List String) : ToolM Options :=
  t.readWithin (arguments.length + 1) arguments

end OptionTable

/-- A count that an option gives. -/
def count? (s : String) : Option Nat :=
  let cs := s.toList
  if cs.isEmpty || !cs.all Char.isDigit then none else some (Number.ofDigits cs)

end TestSynth.Programs
