import TestSynth.Number.Layout
import TestSynth.Programs.Records.Syntax
import TestSynth.Regex.Parser
import TestSynth.Text.Classes
/-!
The words of rules for records.
-/
namespace TestSynth.Programs.Records

open Number (Binary64)

inductive Token where
  | number (x : Binary64)
  | text (s : String)
  | name (s : String)
  /-- A name with a parenthesis right behind it. -/
  | function (s : String)
  | standard (f : Standard)
  | keyword (s : String)
  | sign (s : String)
  | newline
  | stop
deriving Inhabited

/-- Why rules cannot be read. -/
inductive Fault where
  | near (line : Nat) (text : String)
  | missing (line : Nat) (sign : String) (place : String)
  | openText (line : Nat) (front : String)
  | openPattern (line : Nat) (front : String)
  | strangeChar (line : Nat) (c : Char)
  | badPattern (line : Nat) (problem : Regex.Problem) (text : String)
  | refused (line : Nat) (what : String)
  | undefined (line : Nat) (function : String)
  | wrongCount (line : Nat) (function : String)

namespace Fault

/-- The problem of an expression as it is said here. -/
def problemText : Regex.Problem → String
  | .openGroup => "missing ')'"
  | .strayClose => "missing '('"
  | .openBracket | .badClass | .badRange => "bad class -- [], [^] or ["
  | .badInterval => "bad interval expression"
  | _ => "missing operand"

def message : Fault → String
  | near line text => at_ line ++ "syntax error at or near " ++ text
  | missing line sign place => at_ line ++ "missing " ++ sign ++ " near " ++ place
  | openText line front => at_ line ++ "runaway string constant \"" ++ front ++ " ..."
  | openPattern line front => at_ line ++ "runaway regular expression /" ++ front ++ " ..."
  | strangeChar line c => toString line ++ ": unexpected character '" ++ String.singleton c ++ "'"
  | badPattern line problem text =>
    at_ line ++ "regular expression compile failed (" ++ problemText problem ++ ")\n" ++ text
  | refused line what => at_ line ++ what
  | undefined line function => at_ line ++ "function " ++ function ++ " never defined"
  | wrongCount line function => at_ line ++ "wrong number of arguments in call to " ++ function
where
  at_ (line : Nat) : String := "line " ++ toString line ++ ": "

end Fault

def standardNames : List (String × Standard) :=
  [("atan2", .atan2), ("close", .close), ("cos", .cos), ("exp", .exp), ("fflush", .flush),
    ("gsub", .gsub), ("index", .index), ("int", .int), ("length", .length), ("log", .log),
    ("match", .search), ("rand", .random), ("sin", .sin), ("split", .split), ("sprintf", .sprintf),
    ("sqrt", .sqrt), ("srand", .seed), ("sub", .sub), ("substr", .substr), ("system", .system),
    ("tolower", .lower), ("toupper", .upper)]

def keywords : List String :=
  ["BEGIN", "END", "break", "continue", "delete", "do", "else", "exit", "for", "function", "func",
    "getline", "if", "in", "next", "nextfile", "print", "printf", "return", "while"]

/-- Signs, longer ones before those that they start with. -/
def signs : List String :=
  ["&&", "||", "++", "--", "+=", "-=", "*=", "/=", "%=", "^=", "==", "<=", ">=", "!=", "!~", ">>",
    "\x7b", "\x7d", "(", ")", "[", "]", ";", ",", "+", "-", "*", "/", "%", "^", "!", ">", "<", "|",
    "?", ":", "~", "$", "="]

/-- Blanks, comments and joined lines in front of a word; gives the lines joined. The first argument
bounds their number. -/
def skipBlanks : Nat → Nat → List Char → Nat × List Char
  | 0, joined, cs => (joined, cs)
  | n + 1, joined, cs =>
    match cs with
    | '\\' :: '\n' :: rest => skipBlanks n (joined + 1) rest
    | '\\' :: '\r' :: '\n' :: rest => skipBlanks n (joined + 1) rest
    | '#' :: rest => skipBlanks n joined (rest.dropWhile (· != '\n'))
    | c :: rest => if c == ' ' || c == '\t' || c == '\r' then skipBlanks n joined rest else (joined, cs)
    | [] => (joined, [])

/-- What stands behind a backslash: the characters that it writes, and the rest. Before anything
without a meaning the backslash stays. -/
def readEscape (cs : List Char) : List Char × List Char :=
  match cs with
  | [] => (['\\'], [])
  | '\n' :: rest => ([], rest)
  | 'x' :: rest =>
    let digits := (rest.take 2).takeWhile fun c => (Number.hexValue? c).isSome
    if digits.isEmpty then (['\\', 'x'], rest)
    else ([Char.ofNat ((Number.parseHex? digits).getD 0)], rest.drop digits.length)
  | c :: rest => match letters.lookup c with
    | some d => ([d], rest)
    | none =>
      let digits := (cs.take 3).takeWhile fun d => '0' ≤ d && d ≤ '7'
      if digits.isEmpty then (['\\', c], rest)
      else
        let n := digits.foldl (fun n d => 8 * n + Number.digitValue d) 0
        ([Char.ofNat (n % 256)], cs.drop digits.length)
where
  letters : List (Char × Char) :=
    [('"', '"'), ('\\', '\\'), ('a', '\x07'), ('b', '\x08'), ('f', '\x0c'), ('n', '\n'),
      ('r', '\r'), ('t', '\t'), ('v', '\x0b')]

/-- Characters of a text up to its closing quote, with escapes carried out; none if it is not
closed on its line. The first argument bounds the length, the second collects what was read
backwards. -/
def readText : Nat → List Char → List Char → Option (List Char × List Char)
  | 0, _, _ | _, _, [] | _, _, '\n' :: _ => none
  | n + 1, acc, c :: rest =>
    if c == '"' then some (acc.reverse, rest)
    else if c == '\\' then
      if rest.isEmpty then none
      else
        let (cs, rest) := readEscape rest
        readText n (cs.reverse ++ acc) rest
    else readText n (c :: acc) rest

/-- Characters of an expression up to its closing slash, and what follows. -/
def readPattern : Bool → List Char → Option (List Char × List Char)
  | _, [] | _, '\n' :: _ => none
  | inBracket, '\\' :: c :: rest =>
    (readPattern inBracket rest).map fun (cs, rest) =>
      (if c == '/' then '/' :: cs else '\\' :: c :: cs, rest)
  | inBracket, c :: rest =>
    if c == '/' && !inBracket then some ([], rest)
    else if c == '[' && !inBracket then
      -- A bracket that closes at once stands for itself.
      let front := match rest with
        | '^' :: ']' :: _ => 2
        | ']' :: _ | '^' :: _ => 1
        | _ => 0
      openBracket front rest
    else (readPattern (inBracket && c != ']') rest).map fun (cs, rest) => (c :: cs, rest)
termination_by _ cs => 2 * cs.length
where
  openBracket (front : Nat) (rest : List Char) : Option (List Char × List Char) :=
    (readPattern true (rest.drop front)).map fun (cs, left) => ('[' :: rest.take front ++ cs, left)
  termination_by 2 * rest.length + 1

/-- Escapes in a text that comes from outside. -/
def withEscapes (s : String) : String :=
  String.ofList (go s.length s.toList)
where
  go : Nat → List Char → List Char
    | 0, cs => cs
    | _, [] => []
    | n + 1, c :: rest =>
      if c == '\\' then
        let (cs, rest) := readEscape rest
        cs ++ go n rest
      else c :: go n rest

/-- The word in front of a text, and what follows it. -/
def readToken (line : Nat) (cs : List Char) : Except Fault (Token × List Char) :=
  match cs with
  | [] => .ok (.stop, [])
  | '\n' :: rest => .ok (.newline, rest)
  | '"' :: rest =>
    match readText (rest.length + 1) [] rest with
    | some (text, rest) => .ok (.text (String.ofList text), rest)
    | none => .error (.openText line (String.ofList ((rest.takeWhile (· != '\n')).take 10)))
  | c :: rest =>
    if c.isDigit || (c == '.' && rest.head?.any Char.isDigit) then
      -- A zero before a letter is a number of its own.
      let (digits, behind) := if c == '0' && (rest.head?.any fun x => x == 'x' || x == 'X')
        then ([c], rest) else (cs, [])
      match Binary64.readFront? digits with
      | some (x, rest) => .ok (.number x, rest ++ behind)
      | none => .error (.strangeChar line c)
    else if Text.isWordStart c then
      let name := cs.takeWhile Text.isWord
      let rest := cs.drop name.length
      let word := String.ofList name
      if keywords.contains word then .ok (.keyword (if word == "func" then "function" else word), rest)
      else match standardNames.lookup word with
        | some f => .ok (.standard f, rest)
        | none => if rest.head? == some '(' then .ok (.function word, rest) else .ok (.name word, rest)
    else match signs.find? fun s => s.toList.isPrefixOf cs with
      | some s => .ok (.sign s, cs.drop s.length)
      | none => .error (.strangeChar line c)

/-- How a word is named in messages. -/
def Token.shown : Token → String
  | number x => (Value.textOf x)
  | text s => s
  | name s | function s | keyword s | sign s => s
  | standard f => ((standardNames.find? (·.2 == f)).map (·.1)).getD ""
  | newline | stop => "end of line"
where
  Value.textOf (x : Binary64) : String := String.ofList (({} : Number.Layout).float 'g' x)

end TestSynth.Programs.Records
