import TestSynth.Text.Classes
/-!
Patterns for names and values: `*` stands for any text, `?` for any character, and brackets for one
of several. A character that is quoted stands for itself.
-/
namespace TestSynth.Text

/-- A character of an expanded word, and whether it is quoted. -/
abbrev Mark := Char × Bool

/-- What brackets may hold. -/
inductive CharSet where
  | range (low high : Char)
  | named (name : String)
deriving DecidableEq, Repr, Inhabited

/-- The classes of characters by name, for text of single bytes. -/
def inNamedClass (name : String) (c : Char) : Bool :=
  let isGraphic := '!' ≤ c && c ≤ '~'
  match name with
  | "alpha" => c.isAlpha
  | "digit" => c.isDigit
  | "alnum" => c.isAlphanum
  | "upper" => c.isUpper
  | "lower" => c.isLower
  | "space" => c == ' ' || ('\t' ≤ c && c ≤ '\r')
  | "blank" => c == ' ' || c == '\t'
  | "punct" => isGraphic && !c.isAlphanum
  | "graph" => isGraphic
  | "print" => isGraphic || c == ' '
  | "cntrl" => c < ' ' || c == Char.ofNat 127
  | "xdigit" => c.isDigit || ('a' ≤ c && c ≤ 'f') || ('A' ≤ c && c ≤ 'F')
  | _ => false

def classNames : List String :=
  ["alpha", "digit", "alnum", "upper", "lower", "space", "blank", "punct", "graph", "print", "cntrl",
    "xdigit"]

def CharSet.holds : CharSet → Char → Bool
  | range low high, c => low ≤ c && c ≤ high
  | named name, c => inNamedClass name c

inductive Symbol where
  | exactly (c : Char)
  | anyOne
  | anyRun
  | oneOf (isNegated : Bool) (sets : List CharSet)
deriving DecidableEq, Repr, Inhabited

abbrev Pattern := List Symbol

namespace Symbol

def accepts : Symbol → Char → Bool
  | exactly c, d => c == d
  | anyOne, _ | anyRun, _ => true
  | oneOf isNegated sets, d => (sets.any (·.holds d)) != isNegated

def isWild : Symbol → Bool
  | exactly _ => false
  | _ => true

end Symbol

namespace Pattern

/-- Whether a pattern accepts a text: row by row, from the last symbol to the first, whether it
accepts each end of the text. -/
def accepts (p : Pattern) (cs : List Char) : Bool :=
  ((p.foldr row (lastRow cs)).headD false)
where
  /-- The empty pattern accepts the empty end alone. -/
  lastRow (cs : List Char) : List Bool := cs.map (fun _ => false) ++ [true]
  row (symbol : Symbol) (next : List Bool) : List Bool := match symbol with
    | .anyRun => anyEnd next
    | s => (cs.zip (next.drop 1)).map (fun (c, ok) => s.accepts c && ok) ++ [false]
  /-- For each place whether the rest accepts some end of the text from there on. -/
  anyEnd : List Bool → List Bool
    | [] => []
    | ok :: rest =>
      let later := anyEnd rest
      (ok || later.headD false) :: later

/-- The name of a class at the front of a text behind `[:`, and what follows it. -/
def className? (ms : List Mark) : Option (String × List Mark) :=
  let name := (ms.map (·.1)).takeWhile Char.isLower
  match ms.drop name.length with
  | (':', _) :: (']', _) :: rest =>
    let name := String.ofList name
    if classNames.contains name then some (name, rest) else none
  | _ => none

/-- What stands between brackets up to the closing one, and what follows that. The first argument
bounds the length; the second says whether anything was read. -/
def sets? : Nat → Bool → List Mark → Option (List CharSet × List Mark)
  | 0, _, _ | _, _, [] => none
  | n + 1, started, (c, quoted) :: rest =>
    if c == ']' && !quoted && started then some ([], rest)
    else
      let named := if c == '[' && !quoted then
          match rest with
          | (':', _) :: more => className? more
          | _ => none
        else none
      match named with
      | some (name, more) => (sets? n true more).map fun (sets, left) => (.named name :: sets, left)
      | none => match rest with
        | ('-', false) :: (d, quotedEnd) :: more =>
          if d == ']' && !quotedEnd then
            (sets? n true rest).map fun (sets, left) => (.range c c :: sets, left)
          else (sets? n true more).map fun (sets, left) => (.range c d :: sets, left)
        | _ => (sets? n true rest).map fun (sets, left) => (.range c c :: sets, left)

/-- The pattern that marks write; the first argument bounds their number. -/
def ofMarksWithin : Nat → List Mark → Pattern
  | 0, _ | _, [] => []
  | n + 1, (c, quoted) :: rest =>
    if quoted then .exactly c :: ofMarksWithin n rest
    else if c == '*' then .anyRun :: ofMarksWithin n rest
    else if c == '?' then .anyOne :: ofMarksWithin n rest
    else if c == '[' then
      let (isNegated, inside) := match rest with
        | ('!', false) :: more | ('^', false) :: more => (true, more)
        | _ => (false, rest)
      match sets? (inside.length + 1) false inside with
      | some (sets, left) => .oneOf isNegated sets :: ofMarksWithin n left
      | none => .exactly c :: ofMarksWithin n rest
    else if c == '\\' then match rest with
      | (d, _) :: more => .exactly d :: ofMarksWithin n more
      | [] => [.exactly c]
    else .exactly c :: ofMarksWithin n rest

def ofMarks (ms : List Mark) : Pattern := ofMarksWithin ms.length ms

/-- The pattern of a text without quotes. -/
def ofText (cs : List Char) : Pattern := ofMarks (cs.map fun c => (c, false))

/-- The text of a pattern in which nothing is wild. -/
def text? (p : Pattern) : Option (List Char) :=
  p.mapM fun
    | .exactly c => some c
    | _ => none

/-- The length of the shortest or longest beginning of a text that a pattern accepts. -/
def beginning? (p : Pattern) (isLongest : Bool) (cs : List Char) : Option Nat :=
  let lengths := List.range (cs.length + 1)
  (if isLongest then lengths.reverse else lengths).find? fun k => accepts p (cs.take k)

/-- The same for an end of the text. -/
def ending? (p : Pattern) (isLongest : Bool) (cs : List Char) : Option Nat :=
  let lengths := List.range (cs.length + 1)
  (if isLongest then lengths.reverse else lengths).find? fun k =>
    accepts p (cs.drop (cs.length - k))

end Pattern

end TestSynth.Text
