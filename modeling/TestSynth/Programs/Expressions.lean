import TestSynth.Programs.Options
import TestSynth.Regex.Parser
/-!
Evaluating an expression that is given as arguments: numbers of any size, texts, comparisons and
matching. From the weakest operators to the strongest the levels are `|`, `&`, comparisons, sums,
products and `:`.
-/
namespace TestSynth.Programs

open Process Tool

namespace Expression

/-- Why an expression has no value. -/
inductive Fault where
  | missingAfter (word : String)
  | unexpected (word : String)
  | unexpectedArgument (word : String)
  | unclosed (last : String)
  | closedBy (word : String)
  | noNumber
  | divisionByZero
  | badPattern (problem : Regex.Problem)
deriving DecidableEq, Repr

def Fault.message : Fault → String
  | missingAfter word => "syntax error: missing argument after " ++ quote word
  | unexpected word => "syntax error: unexpected " ++ quote word
  | unexpectedArgument word => "syntax error: unexpected argument " ++ quote word
  | unclosed last => "syntax error: expecting ')' after " ++ quote last
  | closedBy word => "syntax error: expecting ')' instead of " ++ quote word
  | noNumber => "non-integer argument"
  | divisionByZero => "division by zero"
  | badPattern problem => problem.message

/-- The words that are left, and the last one that was taken. -/
structure Reading where
  rest : List String
  last : String := ""

abbrev ReadM := StateT Reading (Except Fault)

/-- The number that a text is, with a minus sign or without one. -/
def number? (s : String) : Option Int :=
  let (isNegative, digits) := match s.toList with
    | '-' :: cs => (true, cs)
    | cs => (false, cs)
  if digits.isEmpty || !digits.all Char.isDigit then none
  else some (if isNegative then -(Number.ofDigits digits : Int) else Number.ofDigits digits)

/-- Whether a value counts as false. -/
def isNull (s : String) : Bool := s.isEmpty || number? s == some 0

def ofBool (b : Bool) : String := if b then "1" else "0"

/-- Takes the next word, if it is one of some. -/
def next? (words : List String) : ReadM (Option String) := do
  match (← get).rest with
  | w :: rest =>
    if words.contains w then
      set { rest, last := w : Reading }
      return some w
    else return none
  | [] => return none

def require : ReadM String := do
  let s ← get
  match s.rest with
  | [] => throw (.missingAfter s.last)
  | w :: rest =>
    set { rest, last := w : Reading }
    return w

def numbers (a b : String) : ReadM (Int × Int) := do
  match number? a, number? b with
  | some x, some y => return (x, y)
  | _, _ => throw .noNumber

/-- What of a text a pattern matches at its front: its first group, or else its length. -/
def matched (text pattern : String) : ReadM String := do
  match Regex.parse .basic pattern.toList with
  | .error problem => throw (.badPattern problem)
  | .ok r =>
    let cs := text.toList
    let hasGroup := (r.steps).any fun
      | .save _ => true
      | _ => false
    match (Regex.concat (.anchor .textStart) r).searcher.matchAt? true cs ⟨none, cs, 0⟩ with
    | none => return if hasGroup then "" else "0"
    | some m =>
      if hasGroup then
        match m.group? 1 with
        | some (start, stop) => return String.ofList ((cs.drop start).take (stop - start))
        | none => return ""
      else return toString m.stop

def compareValues (operator a b : String) : Bool :=
  let order := match number? a, number? b with
    | some x, some y => compare x y
    | _, _ => compare a b
  match operator with
  | "<" => order == .lt
  | "<=" => order != .gt
  | "=" | "==" => order == .eq
  | "!=" => order != .eq
  | ">=" => order != .lt
  | _ => order == .gt

/-- A level of operators that group to the left. The first argument bounds their number. -/
def level (operators : List String) (operand : Bool → ReadM String)
    (apply : Bool → String → String → String → ReadM String) (isUsed : String → String → Bool) :
    Nat → Bool → String → ReadM String
  | 0, _, a => return a
  | n + 1, counts, a => do
    match ← next? operators with
    | none => return a
    | some operator =>
      let b ← operand (counts && isUsed operator a)
      level operators operand apply isUsed n counts (← apply counts operator a b)

def applyNumbers (counts : Bool) (operator a b : String) : ReadM String := do
  if !counts then return a
  let (x, y) ← numbers a b
  match operator with
  | "+" => return toString (x + y)
  | "-" => return toString (x - y)
  | "*" => return toString (x * y)
  | operator =>
    if y = 0 then throw .divisionByZero
    return toString (if operator == "/" then Int.tdiv x y else Int.tmod x y)

def always (_ _ : String) : Bool := true

mutual

/-- The whole expression; the first argument bounds the nesting and the second says whether the
value counts. -/
def readAny : Nat → Bool → ReadM String
  | 0, _ => return ""
  | n + 1, counts => do
    let bound := (← get).rest.length
    let products (counts : Bool) : ReadM String := do
      level [":"] (readOperand n) (fun counts _ a b => if counts then matched a b else return a) always
        bound counts (← readOperand n counts)
    let sums (counts : Bool) : ReadM String := do
      level ["*", "/", "%"] products applyNumbers always bound counts (← products counts)
    let comparisons (counts : Bool) : ReadM String := do
      level ["+", "-"] sums applyNumbers always bound counts (← sums counts)
    let both (counts : Bool) : ReadM String := do
      level ["<", "<=", "=", "==", "!=", ">=", ">"] comparisons
        (fun _ operator a b => return ofBool (compareValues operator a b)) always bound counts
        (← comparisons counts)
    let either (counts : Bool) : ReadM String := do
      level ["&"] both (fun _ _ a b => return if isNull a || isNull b then "0" else a)
        (fun _ a => !isNull a) bound counts (← both counts)
    level ["|"] either (fun _ _ a b => return if !isNull a then a else if isNull b then "0" else b)
      (fun _ a => isNull a) bound counts (← either counts)

/-- A value, an expression between parentheses, or a function of values. -/
def readOperand : Nat → Bool → ReadM String
  | 0, _ => return ""
  | n + 1, counts => do
    let word ← require
    match word with
    | "(" =>
      let value ← readAny n counts
      let s ← get
      match s.rest with
      | [] => throw (.unclosed s.last)
      | ")" :: rest =>
        set { rest, last := ")" : Reading }
        return value
      | w :: _ => throw (.closedBy w)
    | ")" => throw (.unexpected ")")
    | "+" => require
    | "length" => return toString (← readOperand n counts).length
    | "match" =>
      let text ← readOperand n counts
      let pattern ← readOperand n counts
      if counts then matched text pattern else return text
    | "index" =>
      let text ← readOperand n counts
      let wanted ← readOperand n counts
      return match text.toList.findIdx? wanted.toList.contains with
        | some k => toString (k + 1)
        | none => "0"
    | "substr" =>
      let text ← readOperand n counts
      let start ← readOperand n counts
      let length ← readOperand n counts
      match number? start, number? length with
      | some start, some length =>
        if start ≤ 0 || length ≤ 0 then return ""
        return String.ofList ((text.toList.drop (start.toNat - 1)).take length.toNat)
      | _, _ => return ""
    | word => return word

end

/-- The value of all words together. -/
def evaluate (words : List String) : Except Fault String := do
  let (value, s) ← (readAny (2 * words.length + 2) true).run { rest := words }
  match s.rest with
  | w :: _ => .error (if w == ")" then .unexpected w else .unexpectedArgument w)
  | [] => return value

end Expression

def expr : Program := fun _ arguments => do
  let words := if arguments.head? == some "--" then arguments.drop 1 else arguments
  if words.isEmpty then abortWithHint "missing operand" 2
  match Expression.evaluate words with
  | .error fault => abort fault.message 2
  | .ok value =>
    printLine value
    setStatus (if Expression.isNull value then 1 else 0)

end TestSynth.Programs
