import TestSynth.Number.Decimal
import TestSynth.Process.Session
/-!
Conditions on texts, whole numbers and files. What follows a condition that is read stays in the
list of words, whose first one the reading stands on.
-/
namespace TestSynth.Programs

open Process

/-- A whole number in decimal; blanks around it do not count. -/
def wholeNumber? (s : String) : Option Int :=
  let isBlank (c : Char) : Bool := c == ' ' || ('\t' ≤ c && c ≤ '\r')
  let cs := s.toList.dropWhile isBlank
  let (negative, digits) := match cs with
    | '-' :: rest => (true, rest)
    | '+' :: rest => (false, rest)
    | _ => (false, cs)
  let number := digits.takeWhile Char.isDigit
  let rest := digits.drop number.length
  let n := Number.ofDigits number
  if number.isEmpty || !rest.all isBlank || 1 <<< 63 ≤ n then none
  else some (if negative then -(n : Int) else n)

namespace Condition

def unaryOperators : List String :=
  ["-r", "-w", "-x", "-e", "-f", "-d", "-c", "-b", "-p", "-u", "-g", "-k", "-s", "-t", "-z", "-n",
    "-h", "-L", "-O", "-G", "-S"]

def binaryOperators : List String :=
  ["=", "!=", "<", ">", "-eq", "-ne", "-ge", "-gt", "-le", "-lt", "-nt", "-ot", "-ef"]

/-- What the word at the front is. -/
inductive Kind where
  | finish
  | unary (operator : String)
  | binary (operator : String)
  | negation
  | conjunction
  | disjunction
  | opening
  | closing
  | operand
deriving DecidableEq, Repr

/-- Whether a word that names a unary operator is an operand, by what follows it. -/
def standsAlone : List String → Bool
  | [] => true
  | [_] => false
  | operator :: _ => binaryOperators.contains operator

def kindOf : List String → Kind
  | [] => .finish
  | word :: rest =>
    if unaryOperators.contains word then
      if standsAlone rest then .operand else .unary word
    else if binaryOperators.contains word then .binary word
    else match word with
      | "!" => .negation
      | "-a" => .conjunction
      | "-o" => .disjunction
      | "(" => if rest.isEmpty then .operand else .opening
      | ")" => .closing
      | _ => .operand

/-- What stands at a path. -/
def node? (t : FileTree) (name : String) : Option FileNode :=
  ((t.find (Session.pathOf name)).toOption).map (·.2)

def isDevice (name : String) : Bool :=
  (Session.device? name).isSome || (Session.deviceDescriptor? name).isSome

/-- Whether a file is what an operator asks for. -/
def isFileLike (t : FileTree) (operator name : String) : Bool :=
  if isDevice name then ["-r", "-w", "-e", "-c"].contains operator
  else if operator == "-h" || operator == "-L" then
    match t.findItself (Session.pathOf name) with
    | .ok (_, .link _) => true
    | _ => false
  else match node? t name with
    | none => false
    | some node => match operator with
      | "-e" | "-r" | "-w" | "-O" | "-G" => true
      | "-x" => match node with
        | .file _ executable => executable
        | _ => true
      | "-f" => node.isFile
      | "-d" => node.isDirectory
      | "-s" => match node with
        | .file content _ => !content.isEmpty
        | _ => true
      | _ => false

def unary (t : FileTree) (operator operand : String) : Except String Bool :=
  match operator with
  | "-z" => .ok operand.isEmpty
  | "-n" => .ok (!operand.isEmpty)
  | "-t" => if (wholeNumber? operand).isSome then .ok false else .error ("Illegal number: " ++ operand)
  | _ => .ok (isFileLike t operator operand)

def binary (t : FileTree) (operator left right : String) : Except String Bool :=
  let compared (test : Int → Int → Bool) : Except String Bool := do
    let number (s : String) : Except String Int :=
      match wholeNumber? s with
      | some n => .ok n
      | none => .error ("Illegal number: " ++ s)
    let a ← number left
    let b ← number right
    return test a b
  let place (name : String) : Option Location := ((t.find (Session.pathOf name)).toOption).map (·.1)
  -- All files are of one age, since no time passes.
  match operator with
  | "=" => .ok (left == right)
  | "!=" => .ok (left != right)
  | "<" => .ok (decide (left < right))
  | ">" => .ok (decide (right < left))
  | "-eq" => compared fun a b => a == b
  | "-ne" => compared fun a b => a != b
  | "-ge" => compared fun a b => decide (b ≤ a)
  | "-gt" => compared fun a b => decide (b < a)
  | "-le" => compared fun a b => decide (a ≤ b)
  | "-lt" => compared fun a b => decide (a < b)
  | "-nt" | "-ot" => .ok false
  | _ => .ok ((place left).isSome && place left == place right)

abbrev Read := Except String (Bool × List String)

mutual

/-- Reads conditions of which one has to hold. The first argument bounds the number of words. -/
def readAny (t : FileTree) : Nat → List String → Read
  | 0, ws => .ok (false, ws)
  | n + 1, ws => do
    let (first, ws) ← readAll t n ws
    if kindOf (ws.drop 1) == .disjunction then
      let (more, ws) ← readAny t n (ws.drop 2)
      return (first || more, ws)
    else return (first, ws)

/-- Reads conditions that have to hold together. -/
def readAll (t : FileTree) : Nat → List String → Read
  | 0, ws => .ok (false, ws)
  | n + 1, ws => do
    let (first, ws) ← readNegated t n ws
    if kindOf (ws.drop 1) == .conjunction then
      let (more, ws) ← readAll t n (ws.drop 2)
      return (first && more, ws)
    else return (first, ws)

def readNegated (t : FileTree) : Nat → List String → Read
  | 0, ws => .ok (false, ws)
  | n + 1, ws =>
    if kindOf ws == .negation then
      let rest := if kindOf (ws.drop 1) == .finish then ws else ws.drop 1
      do
        let (value, ws) ← if kindOf (ws.drop 1) == .finish then .ok (false, rest) else readNegated t n rest
        return (!value, ws)
    else readOne t n ws

def readOne (t : FileTree) : Nat → List String → Read
  | 0, ws => .ok (false, ws)
  | n + 1, ws => match kindOf ws with
    | .finish => .ok (false, ws)
    | .opening => do
      let inside := ws.drop 1
      if kindOf inside == .closing then return (false, inside)
      let (value, ws) ← readAny t n inside
      if kindOf (ws.drop 1) == .closing then return (value, ws.drop 1)
      else .error "closing paren expected"
    | .unary operator => match ws.drop 1 with
      | [] => .error (operator ++ ": argument expected")
      | operand :: rest => do return (← unary t operator operand, operand :: rest)
    | _ => match ws with
      | left :: operator :: rest => match kindOf (operator :: rest) with
        | .binary operator => match rest with
          | [] => .error (operator ++ ": argument expected")
          | right :: more => do return (← binary t operator left right, right :: more)
        | _ => .ok (!left.isEmpty, ws)
      | left :: [] => .ok (!left.isEmpty, ws)
      | [] => .ok (false, ws)

end

/-- Reads a condition that has to be all words. -/
def readWhole (t : FileTree) (ws : List String) : Except String Bool := do
  let (value, ws) ← readAny t (4 * ws.length + 8) ws
  match ws with
  | word :: _ :: _ =>
    .error (if word.isEmpty then "unexpected operator" else word ++ ": unexpected operator")
  | _ => return value

/-- The value of a condition: few words are read by their number. -/
def evaluate (t : FileTree) : List String → Except String Bool
  | [] => .ok false
  | ["!", a] => do return !(← readWhole t [a])
  | [a, operator, b] =>
    if binaryOperators.contains operator then binary t operator a b
    else if a == "(" && b == ")" then readWhole t [operator]
    else if a == "!" then do return !(← evaluateTwo [operator, b])
    else readWhole t [a, operator, b]
  | [a, b, c, d] =>
    if a == "(" && d == ")" then evaluateTwo [b, c]
    else if a == "!" then do return !(← evaluateThree b c d)
    else readWhole t [a, b, c, d]
  | ws => readWhole t ws
where
  evaluateTwo (ws : List String) : Except String Bool := readWhole t ws
  evaluateThree (a operator b : String) : Except String Bool :=
    if binaryOperators.contains operator then binary t operator a b
    else if a == "(" && b == ")" then readWhole t [operator]
    else readWhole t [a, operator, b]

end Condition

end TestSynth.Programs
