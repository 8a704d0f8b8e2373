import TestSynth.Shell.Lexer
import TestSynth.Number.Decimal
/-!
The tokens of a script. Which words count as keywords and which as aliases depends on where they
stand, so whoever reads a token says that.
-/
namespace TestSynth.Shell

open Reader

/-- What a token may be where it is read. -/
structure Position where
  skipsNewlines : Bool := false
  knowsKeywords : Bool := false
  knowsAliases : Bool := false
deriving DecidableEq

namespace Position

def start : Position := ⟨false, true, true⟩

def afterNewlines : Position := ⟨true, true, true⟩

end Position

def keywords : List String :=
  ["!", "case", "do", "done", "elif", "else", "esac", "fi", "for", "if", "in", "then", "until",
    "while", "\x7b", "\x7d"]

def keywordOf? (w : Word) : Option String :=
  w.bareText?.bind fun cs =>
    let name := String.ofList cs
    if keywords.contains name then some name else none

/-- The operators that start with a character, the longest first. -/
def operatorsOf (c : Char) : List String :=
  if c == '&' then ["&&", "&"]
  else if c == '|' then ["||", "|"]
  else if c == ';' then [";;", ";"]
  else if c == '(' then ["("]
  else if c == ')' then [")"]
  else []

def readOperator (first : Char) : ReadM Token := do
  match operatorsOf first with
  | [double, single] =>
    if ← takes first then return .operator double else return .operator single
  | [single] => return .operator single
  | _ => return .finish

/-- The operator that a `<` or `>` starts, which was taken from the text. -/
def readRedirect (descriptor : Option Nat) (c : Char) : ReadM Token := do
  let second ← peek
  let operators := if c == '>' then [">>", ">|", ">&"] else ["<<", "<&", "<>"]
  let found := operators.find? fun o => o.toList.drop 1 == second.take 1
  if found.isSome then advance (second.drop 1)
  let operator ← if found == some "<<" then
      if ← takes '-' then pure "<<-" else pure "<<"
    else pure (found.getD (String.singleton c))
  return .redirect (descriptor.getD (if c == '>' then 1 else 0)) operator

/-- Reads the next token without a look at keywords. The first argument bounds the blanks and
comments in front of it. -/
def readRaw (script : Bool → ReadM Command) : Nat → ReadM Token
  | 0 => return .finish
  | n + 1 => do
    match ← peek with
    | [] => return .finish
    | c :: rest =>
      if isBlankChar c then
        advance rest
        readRaw script n
      else if c == '#' then
        advance (rest.dropWhile (· != '\n'))
        readRaw script n
      else if c == '\n' then
        advanceLine rest
        return .newline
      else if !(operatorsOf c).isEmpty then
        advance rest
        readOperator c
      else
        let w ← readWord script .word
        match (← get).text with
        | d :: behind =>
          if d == '<' || d == '>' then
            match w with
            | [] =>
              advance behind
              readRedirect none d
            | [.text false [e]] =>
              if e.isDigit then
                advance behind
                readRedirect (some (Number.digitValue e)) d
              else return .word w false
            | _ => return .word w w.hasQuotes
          else return .word w w.hasQuotes
        | [] => return .word w w.hasQuotes

/-- Puts the text of an alias in front of what is read next. -/
def expandAlias? (w : Word) : ReadM Bool := do
  let r ← get
  if r.aliases.isEmpty then return false
  let left := r.text.length
  let expanding := r.expanding.filter (·.2 ≤ left)
  match w.bareText? with
  | none => return false
  | some cs =>
    let name := String.ofList cs
    match r.aliases.lookup name with
    | some text =>
      if expanding.any (·.1 == name) then return false
      set { r with text := text.toList ++ r.text, expanding := (name, left) :: expanding }
      return true
    | none => return false

/-- Reads the next token for a position. The second argument bounds the newlines and aliases in
front of it. -/
def readToken (script : Bool → ReadM Command) (p : Position) : Nat → ReadM Token
  | 0 => return .finish
  | n + 1 => do
    let token ← match (← get).pushed with
      | some token =>
        modify fun r => { r with pushed := none }
        pure token
      | none => readRaw script ((← get).text.length + 1)
    match token with
    | .newline => if p.skipsNewlines then readToken script p n else return .newline
    | .word w false =>
      match if p.knowsKeywords then keywordOf? w else none with
      | some name => return .keyword name
      | none =>
        if p.knowsAliases then
          if ← expandAlias? w then readToken script p n else return token
        else return token
    | _ => return token

/-- Gives a token back. -/
def giveBack (token : Token) : ReadM Unit := modify fun r => { r with pushed := some token }

end TestSynth.Shell
