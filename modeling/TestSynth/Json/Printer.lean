import TestSynth.Json.Basic
import TestSynth.Number.Shortest
/-!
The text of structured data, on one line or with two spaces a level. A number that has no text in
a data file is written as null.
-/
namespace TestSynth.Json

def escapeChar (c : Char) : List Char :=
  if c == '"' then ['\\', '"']
  else if c == '\\' then ['\\', '\\']
  else if c == '\n' then ['\\', 'n']
  else if c == '\r' then ['\\', 'r']
  else if c == '\t' then ['\\', 't']
  else if c.toNat == 8 then ['\\', 'b']
  else if c.toNat == 12 then ['\\', 'f']
  else if c.toNat < 32 then ['\\', 'u'] ++ Number.hexDigits 4 c.toNat
  else [c]

def quoted (s : String) : String := String.ofList ('"' :: s.toList.flatMap escapeChar ++ ['"'])

def opening : String := "\x7b"

def closing : String := "\x7d"

mutual

def compact : Json → String
  | .null => "null"
  | .bool b => if b then "true" else "false"
  | .int n => toString n
  | .float x => (x.dataText?).getD "null"
  | .text s => quoted s
  | .valueless => "null"
  | .list items => "[" ++ compactItems items ++ "]"
  | .record fields => opening ++ compactFields fields ++ closing

def compactItems : List Json → String
  | [] => ""
  | [j] => compact j
  | j :: js => compact j ++ "," ++ compactItems js

def compactFields : List (String × Json) → String
  | [] => ""
  | [(k, j)] => quoted k ++ ":" ++ compact j
  | (k, j) :: rest => quoted k ++ ":" ++ compact j ++ "," ++ compactFields rest

end

/-- A new line at the given level. -/
def newline (level : Nat) : String := "\n" ++ String.ofList (List.replicate (2 * level) ' ')

mutual

def prettyAt (level : Nat) : Json → String
  | .null => "null"
  | .bool b => if b then "true" else "false"
  | .int n => toString n
  | .float x => (x.dataText?).getD "null"
  | .text s => quoted s
  | .valueless => "null"
  | .list [] => "[]"
  | .list (j :: js) =>
    "[" ++ newline (level + 1) ++ prettyItems (level + 1) (j :: js) ++ newline level ++ "]"
  | .record [] => opening ++ closing
  | .record (f :: fs) =>
    opening ++ newline (level + 1) ++ prettyFields (level + 1) (f :: fs) ++ newline level ++ closing

def prettyItems (level : Nat) : List Json → String
  | [] => ""
  | [j] => prettyAt level j
  | j :: js => prettyAt level j ++ "," ++ newline level ++ prettyItems level js

def prettyFields (level : Nat) : List (String × Json) → String
  | [] => ""
  | [(k, j)] => quoted k ++ ": " ++ prettyAt level j
  | (k, j) :: rest =>
    quoted k ++ ": " ++ prettyAt level j ++ "," ++ newline level ++ prettyFields level rest

end

def pretty (j : Json) : String := prettyAt 0 j

end TestSynth.Json
