import TestSynth.Shell.Syntax
import TestSynth.Text.Classes
/-!
The text of a script while it is read: what is left of it and on which line that starts.
-/
namespace TestSynth.Shell

inductive Token where
  | word (w : Word) (isQuoted : Bool)
  | keyword (name : String)
  | operator (text : String)
  | redirect (descriptor : Nat) (operator : String)
  | newline
  | finish

/-- How a message names a token. -/
def Token.name : Token → String
  | .word .. => "word"
  | .keyword name => "\"" ++ name ++ "\""
  | .operator text => "\"" ++ text ++ "\""
  | .redirect .. => "redirection"
  | .newline => "newline"
  | .finish => "end of file"

structure Reader where
  text : List Char
  line : Nat := 1
  /-- The lines of documents that were taken out of the text behind the current line. -/
  linesTaken : Nat := 0
  /-- A token that was read and given back. -/
  pushed : Option Token := none
  aliases : List (String × String) := []
  /-- The aliases whose texts are being read, with the length of what follows them. -/
  expanding : List (String × Nat) := []

abbrev ReadM := ExceptT SyntaxError (StateM Reader)

namespace Reader

def failure {α : Type} (message : String) : ReadM α := do
  throw ⟨(← get).line, message⟩

def advance (rest : List Char) : ReadM Unit := modify fun r => { r with text := rest }

/-- Goes past a newline, behind which the rest of the text starts. -/
def advanceLine (rest : List Char) : ReadM Unit := modify fun r =>
  { r with text := rest, line := r.line + 1 + r.linesTaken, linesTaken := 0 }

/-- The number of line continuations in front of a text, and the text behind them. -/
def dropContinuations : List Char → Nat × List Char
  | '\\' :: '\n' :: cs =>
    let (count, rest) := dropContinuations cs
    (count + 1, rest)
  | cs => (0, cs)

/-- The text from the next character on that no line continuation is part of. -/
def peek : ReadM (List Char) := do
  let r ← get
  let (count, rest) := dropContinuations r.text
  if count = 0 then return r.text
  set { r with text := rest, line := r.line + count + r.linesTaken, linesTaken := 0 }
  return rest

/-- Takes the next character if it is the given one. -/
def takes (c : Char) : ReadM Bool := do
  match ← peek with
  | d :: rest =>
    if d == c then advance rest
    return d == c
  | [] => return false

/-- The characters of a class that come next; the first argument bounds their number. -/
def takeWhile (p : Char → Bool) : Nat → ReadM (List Char)
  | 0 => return []
  | n + 1 => do
    match ← peek with
    | c :: rest =>
      if p c then
        advance rest
        return c :: (← takeWhile p n)
      else return []
    | [] => return []

end Reader

/-- The parameters that are single characters. -/
def isSpecialParameter (c : Char) : Bool := c.isDigit || "!#$*-?@".toList.contains c

def isBlankChar (c : Char) : Bool := c == ' ' || c == '\t'

/-- What ends a word that is not quoted. -/
def endsWord (c : Char) : Bool := " \t\n;&|<>()".toList.contains c

/-- The name in front of an equals sign, if a text starts with an assignment. -/
def assignedName? (cs : List Char) : Option (List Char × List Char) :=
  match cs.dropWhile Text.isWord with
  | '=' :: rest =>
    let name := cs.takeWhile Text.isWord
    if Text.isIdentifier name then some (name, rest) else none
  | _ => none

end TestSynth.Shell
