import TestSynth.Shell.Reader
/-!
Words, as a script writes them. A word holds whole scripts where it stands for what they print, so
reading words takes a reader of scripts.
-/
namespace TestSynth.Shell

open Reader

/-- Where the pieces that are read end, and which rules of quoting they are under. -/
inductive Context where
  /-- A word, which ends before a blank or an operator. -/
  | word
  | quotes
  /-- What follows an operator between braces. -/
  | braces (isQuoted : Bool)
  /-- An expression in two pairs of parentheses, with the number of those open in it. -/
  | expression (depth : Nat)
  /-- Lines up to one that is the given text. -/
  | document (stripsTabs : Bool) (limit : List Char)
deriving DecidableEq

namespace Context

/-- Whether blanks and the marks of patterns stand for themselves. -/
def isQuoted : Context → Bool
  | .word | .braces false => false
  | _ => true

/-- Whether a backslash makes a character stand for itself. -/
def isEscapable (context : Context) (c : Char) : Bool :=
  "\\$".toList.contains c || c.toNat == 96 ||
    match context with
    | .word | .braces false => true
    | .quotes | .expression _ => c == '"'
    | .braces true => c == '"' || c == '}'
    | .document .. => false

/-- What the end of the text means where pieces are read. -/
def atEnd : Context → ReadM Unit
  | .word | .document .. => return ()
  | .quotes | .braces true => failure "Unterminated quoted string"
  | .braces false => failure "Missing '\x7d'"
  | .expression _ => failure "Missing '))'"

end Context

/-- Pieces next to each other with the same quoting as one. -/
def joinPieces : List Piece → List Piece
  | [] => []
  | .text q cs :: rest => match joinPieces rest with
    | .text q' ds :: rest' => if q = q' then .text q (cs ++ ds) :: rest' else .text q cs :: .text q' ds :: rest'
    | rest' => .text q cs :: rest'
  | piece :: rest => piece :: joinPieces rest

/-- The mark around a script whose output is wanted. -/
def backquote : Char := Char.ofNat 96

/-- The script between backquotes, without the backslashes that protect it; the text starts behind
the first of them. -/
def backquoted (inQuotes : Bool) : Nat → List Char → ReadM (List Char)
  | 0, _ => return []
  | n + 1, acc => do
    match ← peek with
    | [] => failure "EOF in backquote substitution"
    | '\\' :: c :: rest =>
      if c == '\\' || c == backquote || c == '$' || (inQuotes && c == '"') then
        advance rest
        backquoted inQuotes n (c :: acc)
      else
        if c == '\n' then advanceLine rest else advance rest
        backquoted inQuotes n (c :: '\\' :: acc)
    | c :: rest =>
      if c == backquote then
        advance rest
        return acc.reverse
      else
        if c == '\n' then advanceLine rest else advance rest
        backquoted inQuotes n (c :: acc)

/-- The text up to the next single quote; it starts behind the first. -/
def singleQuoted : Nat → List Char → ReadM (List Char)
  | 0, _ => return []
  | n + 1, acc => do
    match (← get).text with
    | [] => failure "Unterminated quoted string"
    | c :: rest =>
      if c == '\'' then
        advance rest
        return acc.reverse
      else
        if c == '\n' then advanceLine rest else advance rest
        singleQuoted n (c :: acc)

/-- Reads a script from another text. -/
def withText {α : Type} (text : List Char) (body : ReadM α) : ReadM α := do
  let outer ← get
  set { outer with text, expanding := [], linesTaken := 0 }
  let a ← body
  set outer
  return a

/-- Whether the line at the front is the limit of a document; the rest starts at its end. -/
def limitRest? (stripsTabs : Bool) (limit text : List Char) : Option (List Char) :=
  let text := if stripsTabs then text.dropWhile (· == '\t') else text
  if limit.isPrefixOf text then
    match text.drop limit.length with
    | [] => some []
    | '\n' :: rest => some ('\n' :: rest)
    | _ => none
  else none

/-- The operator between braces behind a name. -/
def operationAt : ReadM Operation := do
  match ← peek with
  | '}' :: _ => return .value
  | '%' :: rest =>
    advance rest
    return .trimEnd (← takes '%')
  | '#' :: rest =>
    advance rest
    return .trimStart (← takes '#')
  | c :: rest =>
    advance rest
    let emptyCounts := c == ':'
    let mark ← if emptyCounts then peek else pure (c :: rest)
    if emptyCounts then advance (mark.drop 1)
    return match mark with
      | '-' :: _ => .default emptyCounts
      | '+' :: _ => .alternative emptyCounts
      | '?' :: _ => .demand emptyCounts
      | '=' :: _ => .assign emptyCounts
      | '}' :: _ => .value
      | _ => .invalid
  | [] => return .invalid

/-- The name and the operator between braces; the text starts behind the first brace. -/
def bracedName : ReadM (String × Operation) := do
  let limit := (← get).text.length
  match ← peek with
  | c :: rest =>
    if Text.isWordStart c then
      let name ← takeWhile Text.isWord limit
      return (String.ofList name, ← operationAt)
    else if c.isDigit then
      let name ← takeWhile Char.isDigit limit
      return (String.ofList name, ← operationAt)
    else if c == '}' then return ("", .invalid)
    else if c == '#' then
      advance rest
      match ← peek with
      | d :: more =>
        if Text.isWord d then
          let name ← takeWhile (if d.isDigit then Char.isDigit else Text.isWord) limit
          let ended := (← peek).head? == some '}'
          return (String.ofList name, if ended then .length else .invalid)
        else if isSpecialParameter d && d != '}' then
          match Reader.dropContinuations more with
          | (_, '}' :: _) =>
            advance more
            return (String.singleton d, .length)
          | _ => return ("#", ← operationAt)
        else return ("#", ← operationAt)
      | [] => return ("#", .invalid)
    else
      advance rest
      if isSpecialParameter c then return (String.singleton c, ← operationAt)
      else return ("", .invalid)
  | [] => return ("", .invalid)

mutual

/-- Reads pieces up to the end of their context. -/
def readPieces (script : Bool → ReadM Command) : Nat → Context → List Piece → ReadM (List Piece)
  | 0, _, acc => return acc.reverse
  | n + 1, context, acc => do
    let text := (← get).text
    let isQuoted := context.isQuoted
    match text with
    | [] =>
      context.atEnd
      return acc.reverse
    | c :: rest =>
      if c == '\\' then
        match rest with
        | [] =>
          advance rest
          readPieces script n context (.text true ['\\'] :: acc)
        | '\n' :: rest =>
          advanceLine rest
          readPieces script n context acc
        | d :: rest =>
          advance rest
          let kept := if context.isEscapable d then [d] else ['\\', d]
          readPieces script n context (.text true kept :: acc)
      else if c == '$' then
        advance rest
        let piece ← readExpansion script n isQuoted
        readPieces script n context (piece :: acc)
      else if c == backquote then
        advance rest
        let inner ← backquoted isQuoted text.length []
        let body ← withText inner (script false)
        readPieces script n context (.output isQuoted body :: acc)
      else if c == '\n' then
        match context with
        | .word => return acc.reverse
        | .document stripsTabs limit =>
          advanceLine rest
          let acc := .text true ['\n'] :: acc
          match limitRest? stripsTabs limit rest with
          | some rest =>
            advance rest
            return acc.reverse
          | none =>
            if stripsTabs then advance (rest.dropWhile (· == '\t'))
            readPieces script n context acc
        | _ =>
          advanceLine rest
          readPieces script n context (.text isQuoted [c] :: acc)
      else
        match context with
        | .word =>
          if endsWord c then return acc.reverse
          else
            let piece ← readBare script n c rest
            readPieces script n context (piece.reverse ++ acc)
        | .braces false =>
          advance rest
          if c == '}' then return acc.reverse
          else
            let piece ← readBare script n c rest
            readPieces script n context (piece.reverse ++ acc)
        | .quotes =>
          advance rest
          if c == '"' then return acc.reverse
          else readPieces script n context (.text true [c] :: acc)
        | .braces true =>
          advance rest
          if c == '}' then return acc.reverse
          else if c == '"' then readPieces script n context acc
          else readPieces script n context (.text true [c] :: acc)
        | .document .. =>
          advance rest
          readPieces script n context (.text true [c] :: acc)
        | .expression depth =>
          advance rest
          if c == '(' then readPieces script n (.expression (depth + 1)) (.text true [c] :: acc)
          else if c == '"' then readPieces script n context acc
          else if c == ')' then
            if depth = 0 then
              if ← takes ')' then return acc.reverse
              else readPieces script n context (.text true [c] :: acc)
            else readPieces script n (.expression (depth - 1)) (.text true [c] :: acc)
          else readPieces script n context (.text true [c] :: acc)

/-- The pieces that a character without quotes starts. -/
def readBare (script : Bool → ReadM Command) : Nat → Char → List Char → ReadM (List Piece)
  | 0, _, _ => return []
  | n + 1, c, rest => do
    advance rest
    if c == '\'' then return [.text true (← singleQuoted (rest.length + 1) [])]
    else if c == '"' then
      let inside ← readPieces script n .quotes []
      match inside with
      -- All arguments between quotes are no field if there are none.
      | [.parameter _ "@" .value _] => return inside
      | _ => return .text true [] :: inside
    else return [.text false [c]]

/-- What a dollar sign starts, which stands in front of the text. -/
def readExpansion (script : Bool → ReadM Command) : Nat → Bool → ReadM Piece
  | 0, _ => return .text true []
  | n + 1, isQuoted => do
    match ← peek with
    | '(' :: rest =>
      advance rest
      if ← takes '(' then
        return .value isQuoted (joinPieces (← readPieces script n (.expression 0) []))
      else return .output isQuoted (← script true)
    | '{' :: rest =>
      advance rest
      let (name, operation) ← bracedName
      let inner : Context := match operation with
        | .trimStart _ | .trimEnd _ => .braces false
        | _ => .braces isQuoted
      if operation == .value then
        let _ ← takes '}'
        return .parameter isQuoted name operation []
      else
        let operand ← readPieces script n inner []
        return .parameter isQuoted name operation (joinPieces operand)
    | c :: rest =>
      if Text.isWordStart c then
        let name ← takeWhile Text.isWord (rest.length + 1)
        return .parameter isQuoted (String.ofList name) .value []
      else if isSpecialParameter c then
        advance rest
        return .parameter isQuoted (String.singleton c) .value []
      else return .text isQuoted ['$']
    | [] => return .text isQuoted ['$']

end

/-- More steps than reading a text can take. -/
def stepBound (text : List Char) : Nat := 2 * text.length + 8

/-- The pieces up to the end of a context. -/
def readWord (script : Bool → ReadM Command) (context : Context) : ReadM Word := do
  return joinPieces (← readPieces script (stepBound (← get).text) context [])

end TestSynth.Shell
