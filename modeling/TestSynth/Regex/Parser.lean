import TestSynth.Number.Decimal
import TestSynth.Regex.Search
/-!
The ways in which expressions are written: the basic one, in which operators need a backslash, and
the extended ones, in which they need none.
-/
namespace TestSynth.Regex

open Text (CharSet)

/-- Why a text is no expression. -/
inductive Problem where
  | openBracket
  | openGroup
  | strayClose
  | openInterval
  | badInterval
  | bigInterval
  | nothingToRepeat
  | noOperand
  | badReference
  | badClass
  | badRange
  | trailingBackslash
deriving DecidableEq, Repr

def Problem.message : Problem → String
  | openBracket => "Unmatched [, [^, [:, [., or [="
  | openGroup => "Unmatched ( or \\("
  | strayClose => "Unmatched ) or \\)"
  | openInterval => "Unmatched \\\x7b"
  | badInterval => "Invalid content of \\\x7b\\\x7d"
  | bigInterval => "Regular expression too big"
  | nothingToRepeat | noOperand => "Invalid preceding regular expression"
  | badReference => "Invalid back reference"
  | badClass => "Invalid character class name"
  | badRange => "Invalid range end"
  | trailingBackslash => "Trailing backslash"

/-- A way of writing expressions. -/
structure Style where
  /-- Whether operators need no backslash. -/
  isExtended : Bool := true
  /-- Whether operators are let pass where they mean nothing. -/
  isLenient : Bool := false
  /-- Whether a backslash means in brackets what it means elsewhere: it quotes or makes a control
  character, and nothing else. Then no alternative may be empty either. -/
  quotesAlways : Bool := false
deriving DecidableEq, Repr, Inhabited

namespace Style

def basic : Style := { isExtended := false }
def extended : Style := {}
def lenient : Style := { isLenient := true }
def quoting : Style := { isLenient := true, quotesAlways := true }

end Style

/-- What is left to read, and what groups there are so far. -/
structure Reading where
  style : Style
  rest : List Char
  groups : Nat := 0
  closed : List Nat := []

abbrev ReadM := ExceptT Problem (StateM Reading)

/-- Times that something may be asked to be repeated. -/
def repeatLimit : Nat := 32767

def openBrace : Char := Char.ofNat 123

def closeBrace : Char := Char.ofNat 125

def advance (rest : List Char) : ReadM Unit := modify fun r => { r with rest }

/-- What stands between `[:` and `:]`, or between the like of it. -/
def namedPart? (mark : Char) : List Char → Option (List Char × List Char)
  | [] => none
  | c :: rest =>
    if c == mark && rest.head? == some ']' then some ([], rest.drop 1)
    else (namedPart? mark rest).map fun (name, rest) => (c :: name, rest)

/-- The character that a backslash and what follows it write, where a backslash can only quote. -/
def quoted (cs : List Char) : Char × List Char :=
  match cs with
  | [] => ('\\', [])
  | c :: rest =>
    let digits := (c :: rest).take 3 |>.takeWhile fun d => '0' ≤ d && d ≤ '7'
    if !digits.isEmpty then
      (Char.ofNat (digits.foldl (fun n d => 8 * n + Number.digitValue d) 0 % 256),
        (c :: rest).drop digits.length)
    else match controlLetters.lookup c with
      | some d => (d, rest)
      | none => (c, rest)
where
  controlLetters : List (Char × Char) :=
    [('a', '\x07'), ('b', '\x08'), ('f', '\x0c'), ('n', '\n'), ('r', '\r'), ('t', '\t'), ('v', '\x0b')]

/-- An element of a bracket: a class, or a character that may start a range. -/
def element (style : Style) (cs : List Char) : Except Problem ((CharSet ⊕ Char) × List Char) :=
  match cs with
  | [] => .error .openBracket
  | '[' :: mark :: rest =>
    if mark == ':' || mark == '.' || mark == '=' then
      match namedPart? mark rest with
      | none => .error .openBracket
      | some (name, rest) =>
        if mark == ':' then
          if Text.classNames.contains (String.ofList name) then
            .ok (.inl (.named (String.ofList name)), rest)
          else .error .badClass
        else match name with
          | [c] => if mark == '.' then .ok (.inr c, rest) else .ok (.inl (.range c c), rest)
          | _ => .error .badClass
    else .ok (.inr '[', mark :: rest)
  | '\\' :: rest =>
    if style.quotesAlways then
      let (c, rest) := quoted rest
      .ok (.inr c, rest)
    else .ok (.inr '\\', rest)
  | c :: rest => .ok (.inr c, rest)

/-- What stands in a bracket up to its end; the first argument bounds its length. -/
def elements (style : Style) : Nat → Bool → List Char → Except Problem (List CharSet × List Char)
  | 0, _, _ => .error .openBracket
  | n + 1, isFirst, cs => do
    if cs.head? == some ']' && !isFirst then return ([], cs.drop 1)
    let (low, rest) ← element style cs
    match low with
    | .inl set =>
      let (sets, rest) ← elements style n false rest
      return (set :: sets, rest)
    | .inr low =>
      match rest with
      | '-' :: end_ :: more =>
        if end_ == ']' then
          let (sets, rest) ← elements style n false rest
          return (.range low low :: sets, rest)
        else
          let (high, more) ← element style (end_ :: more)
          match high with
          | .inl _ => .error .badRange
          | .inr high =>
            if high < low then .error .badRange
            let (sets, rest) ← elements style n false more
            return (.range low high :: sets, rest)
      | _ =>
        let (sets, rest) ← elements style n false rest
        return (.range low low :: sets, rest)

/-- Reads a bracket behind its first character. -/
def readBracket : ReadM Regex := do
  let cs := (← get).rest
  let (isNegated, inside) := match cs with
    | '^' :: rest => (true, rest)
    | cs => (false, cs)
  match elements (← get).style (inside.length + 1) true inside with
  | .error e => throw e
  | .ok (sets, rest) =>
    advance rest
    return .oneOf isNegated sets

/-- The characters of words and of blanks. -/
def wordSets : List CharSet := [.named "alnum", .range '_' '_']

def blankSets : List CharSet := [.named "space"]

/-- What a backslash and a character mean, if it is no operator and no reference. -/
def special? (c : Char) : Option Regex :=
  match c with
  | 'w' => some (.oneOf false wordSets)
  | 'W' => some (.oneOf true wordSets)
  | 's' => some (.oneOf false blankSets)
  | 'S' => some (.oneOf true blankSets)
  | 'b' => some (.anchor .wordEdge)
  | 'B' => some (.anchor .noWordEdge)
  | '<' => some (.anchor .wordStart)
  | '>' => some (.anchor .wordEnd)
  | '\'' => some (.anchor .textEnd)
  | c => if c.toNat == 96 then some (.anchor .textStart) else none

/-- The operator in front of a text, and what follows it. -/
def operator? (isExtended : Bool) (wanted : Char) (cs : List Char) : Option (List Char) :=
  match isExtended, cs with
  | true, c :: rest => if c == wanted then some rest else none
  | false, '\\' :: c :: rest => if c == wanted then some rest else none
  | _, _ => none

/-- The bounds of an interval behind its first brace, and what follows it; none if it is none. -/
def interval? (isExtended : Bool) (cs : List Char) : Option ((Nat × Option Nat) × List Char) :=
  let low := cs.takeWhile Char.isDigit
  let behind := cs.drop low.length
  let close (rest : List Char) : Option (List Char) := operator? isExtended closeBrace rest
  match behind with
  | ',' :: more =>
    let high := more.takeWhile Char.isDigit
    (close (more.drop high.length)).map fun rest =>
      ((Number.ofDigits low, if high.isEmpty then none else some (Number.ofDigits high)), rest)
  | _ =>
    if low.isEmpty then none
    else (close behind).map fun rest => ((Number.ofDigits low, some (Number.ofDigits low)), rest)

/-- Reads what repeats an expression, as often as that is written. The first argument bounds that. -/
def readRepeats : Nat → Regex → ReadM Regex
  | 0, r => return r
  | n + 1, r => do
    let s ← get
    match s.rest with
    | '*' :: rest =>
      advance rest
      readRepeats n (.many r)
    | _ =>
      match operator? s.style.isExtended '+' s.rest with
      | some rest =>
        advance rest
        readRepeats n (r.repeated 1 none)
      | none => match operator? s.style.isExtended '?' s.rest with
        | some rest =>
          advance rest
          readRepeats n (r.repeated 0 (some 1))
        | none => match operator? s.style.isExtended openBrace s.rest with
          | none => return r
          | some rest => match interval? s.style.isExtended rest with
            | some ((low, high), rest) =>
              if high.any (· < low) then throw .badInterval
              if repeatLimit < low || high.any (repeatLimit < ·) then throw .bigInterval
              advance rest
              readRepeats n (r.repeated low high)
            | none =>
              if s.style.isExtended && s.style.isLenient then return r
              else if rest.contains (if s.style.isExtended then closeBrace else '\\') then throw .badInterval
              else throw .openInterval

/-- Whether a repetition comes next, though nothing stands before it. -/
def startsRepeat (s : Reading) : Bool :=
  s.style.isExtended && match s.rest with
    | c :: rest =>
      c == '*' || c == '+' || c == '?' || (c == openBrace && (interval? true rest).isSome)
    | [] => false

mutual

/-- Reads alternatives up to the end of the text or of a group. The first argument bounds the
length. -/
def readEither (inGroup : Bool) : Nat → ReadM Regex
  | 0 => return .empty
  | n + 1 => do
    let first ← readConcat inGroup n true .empty
    let s ← get
    match operator? s.style.isExtended '|' s.rest with
    | some rest =>
      advance rest
      return .either first (← readEither inGroup n)
    | none => return first

/-- Reads expressions one behind the other. -/
def readConcat (inGroup : Bool) : Nat → Bool → Regex → ReadM Regex
  | 0, _, acc => return acc
  | n + 1, atStart, acc => do
    let s ← get
    let close := operator? s.style.isExtended ')' s.rest
    if s.rest.isEmpty || (operator? s.style.isExtended '|' s.rest).isSome || (close.isSome && inGroup) then
      match acc with
      | .empty =>
        if s.style.quotesAlways then
          throw (if s.rest.isEmpty && inGroup then .openGroup else .noOperand)
        else return acc
      | _ => return acc
    else if close.isSome && !(s.style.isExtended && s.style.isLenient) then throw .strayClose
    else
      match ← readAnchor inGroup atStart with
      | some a => readConcat inGroup n (a == .lineStart) (.concat acc (.anchor a))
      | none =>
        let atom ← readAtom n atStart
        let repeated ← readRepeats (s.rest.length + 1) atom
        readConcat inGroup n false (.concat acc repeated)

/-- Reads the start or the end of a line, where that is meant. -/
def readAnchor (inGroup : Bool) (atStart : Bool) : ReadM (Option Anchor) := do
  let s ← get
  match s.rest with
  | '^' :: rest =>
    if s.style.isExtended || atStart then
      advance rest
      return some .lineStart
    else return none
  | '$' :: rest =>
    let atEnd := rest.isEmpty || (operator? s.style.isExtended '|' rest).isSome ||
      (inGroup && (operator? s.style.isExtended ')' rest).isSome)
    if s.style.isExtended || atEnd then
      advance rest
      return some .lineEnd
    else return none
  | _ => return none

/-- Reads a single character, a bracket or a group. -/
def readAtom : Nat → Bool → ReadM Regex
  | 0, _ => return .empty
  | n + 1, atStart => do
    let s ← get
    match operator? s.style.isExtended '(' s.rest with
    | some rest =>
      let index := s.groups + 1
      set { s with rest, groups := index }
      let body ← readEither true n
      let s ← get
      match operator? s.style.isExtended ')' s.rest with
      | none => throw .openGroup
      | some rest =>
        set { s with rest, closed := index :: s.closed }
        return .group index body
    | none =>
      if startsRepeat s && atStart then
        if s.style.quotesAlways then throw .noOperand
        if s.style.isLenient then return .empty else throw .nothingToRepeat
      match s.rest with
      | [] => return .empty
      | '\\' :: [] =>
        if s.style.quotesAlways then
          advance []
          return .char '\\'
        else throw .trailingBackslash
      | '\\' :: c :: rest =>
        if s.style.quotesAlways then
          let (d, rest) := quoted (c :: rest)
          advance rest
          return .char d
        else match special? c with
          | some r =>
            advance rest
            return r
          | none =>
            if c.isDigit && c != '0' then
              let index := Number.digitValue c
              if !s.closed.contains index then throw .badReference
              advance rest
              return .same index
            else if !s.style.isExtended && c == openBrace && !atStart then throw .nothingToRepeat
            else
              advance rest
              return .char c
      | '.' :: rest =>
        advance rest
        return .any
      | '[' :: rest =>
        advance rest
        readBracket
      | c :: rest =>
        advance rest
        return .char c

end

/-- The expression that a text writes. -/
def parse (style : Style) (cs : List Char) : Except Problem Regex :=
  if cs.isEmpty then .ok .empty else
  let (result, s) := (readEither false (4 * cs.length + 8)).run { style, rest := cs }
  match result with
  | .error e => .error e
  | .ok r => if s.rest.isEmpty then .ok r else .error .strayClose

/-- The expression that stands for a text as it is. -/
def ofText (cs : List Char) : Regex := cs.foldr (fun c r => .concat (.char c) r) .empty

/-- An expression that matches only where no word goes on before or behind it. -/
def asWord (r : Regex) : Regex :=
  .concat (.anchor .noWordBefore) (.concat r (.anchor .noWordBehind))

/-- An expression that matches only whole lines. -/
def asLine (r : Regex) : Regex := .concat (.anchor .lineStart) (.concat r (.anchor .lineEnd))

end TestSynth.Regex
