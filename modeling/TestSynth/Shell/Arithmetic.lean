import TestSynth.Number.Decimal
import TestSynth.Text.Classes
/-!
Expressions over whole numbers of 64 bits.
-/
namespace TestSynth.Shell.Arithmetic

inductive Operator where
  | multiply | divide | remainder | add | subtract | shiftLeft | shiftRight
  | less | lessEqual | greater | greaterEqual | equal | unequal | bitAnd | bitXor | bitOr
deriving DecidableEq, Repr

inductive Expression where
  | number (value : Int)
  | parameter (name : String)
  | minus (e : Expression)
  | isZero (e : Expression)
  | complement (e : Expression)
  | binary (operator : Operator) (left right : Expression)
  | both (left right : Expression)
  | either (left right : Expression)
  | choose (condition yes no : Expression)
  /-- With an operator, the variable changes by the value. -/
  | assign (name : String) (operator : Option Operator) (value : Expression)
deriving Repr, Inhabited

/-- Operators by the text that writes them, with how loosely they bind. -/
def operators : List (String × Operator × Nat) :=
  [("*", .multiply, 0), ("/", .divide, 0), ("%", .remainder, 0), ("+", .add, 1), ("-", .subtract, 1),
    ("<<", .shiftLeft, 2), (">>", .shiftRight, 2), ("<", .less, 3), ("<=", .lessEqual, 3),
    (">", .greater, 3), (">=", .greaterEqual, 3), ("==", .equal, 4), ("!=", .unequal, 4),
    ("&", .bitAnd, 5), ("^", .bitXor, 6), ("|", .bitOr, 7)]

/-- A number in 64 bits with a sign. -/
def wrap (n : Int) : Int := n.bmod UInt64.size

def bits (n : Int) : Nat := (n % UInt64.size).toNat

def ofBool (b : Bool) : Int := if b then 1 else 0

/-- The value of an operator; none for a division by zero. -/
def Operator.apply? (o : Operator) (a b : Int) : Option Int :=
  match o with
  | multiply => some (wrap (a * b))
  | divide => if b = 0 then none else some (wrap (a.tdiv b))
  | remainder => if b = 0 then none else some (wrap (a.tmod b))
  | add => some (wrap (a + b))
  | subtract => some (wrap (a - b))
  | shiftLeft => some (wrap (Int.ofNat (bits a <<< (bits b % 64))))
  | shiftRight => some (a >>> (bits b % 64))
  | less => some (ofBool (a < b))
  | lessEqual => some (ofBool (a ≤ b))
  | greater => some (ofBool (b < a))
  | greaterEqual => some (ofBool (b ≤ a))
  | equal => some (ofBool (a = b))
  | unequal => some (ofBool (a ≠ b))
  | bitAnd => some (wrap (Int.ofNat (bits a &&& bits b)))
  | bitXor => some (wrap (Int.ofNat (bits a ^^^ bits b)))
  | bitOr => some (wrap (Int.ofNat (bits a ||| bits b)))

inductive Token where
  | number (value : Int)
  | name (text : String)
  | mark (text : String)
deriving DecidableEq, Repr, Inhabited

/-- The marks that are no letters or digits, longer ones before their beginnings. -/
def marks : List String :=
  ["<<=", ">>=", "<<", ">>", "<=", ">=", "==", "!=", "&&", "||", "*=", "/=", "%=", "+=", "-=", "&=",
    "^=", "|=", "*", "/", "%", "+", "-", "<", ">", "&", "^", "|", "=", "!", "~", "?", ":", "(", ")"]

/-- The value of digits of a base, kept below the largest number. -/
def digitsValue (base : Nat) (digits : List Char) : Int :=
  let value := digits.foldl (fun n c => n * base + (Number.hexValue? c).getD 0) 0
  Int.ofNat (min value (1 <<< 63 - 1))

/-- The number that a text starts with, in the base that its front tells, and what follows. -/
def readNumber (cs : List Char) : Int × List Char :=
  match cs with
  | '0' :: x :: d :: rest =>
    if (x == 'x' || x == 'X') && (Number.hexValue? d).isSome then
      let isHex (c : Char) : Bool := (Number.hexValue? c).isSome
      let rest := d :: rest
      (digitsValue 16 (rest.takeWhile isHex), rest.dropWhile isHex)
    else readOctal cs
  | '0' :: _ => readOctal cs
  | cs => (digitsValue 10 (cs.takeWhile Char.isDigit), cs.dropWhile Char.isDigit)
where
  readOctal (cs : List Char) : Int × List Char :=
    let isOctal (c : Char) : Bool := '0' ≤ c && c ≤ '7'
    (digitsValue 8 (cs.takeWhile isOctal), cs.dropWhile isOctal)

/-- The tokens of an expression; the first argument bounds their number. A character that writes
none becomes one that fits nowhere. -/
def tokens : Nat → List Char → List Token
  | 0, _ | _, [] => []
  | n + 1, c :: cs =>
    if c == ' ' || c == '\t' || c == '\n' then tokens n cs
    else if c.isDigit then
      let (value, rest) := readNumber (c :: cs)
      .number value :: tokens n rest
    else if Text.isWordStart c then
      .name (String.ofList ((c :: cs).takeWhile Text.isWord)) :: tokens n ((c :: cs).dropWhile Text.isWord)
    else match marks.find? fun m => m.toList.isPrefixOf (c :: cs) with
      | some m => .mark m :: tokens n ((c :: cs).drop m.length)
      | none => [.mark (String.singleton c)]

/-- The operator in front of tokens, with how loosely it binds. -/
def operatorAt? : List Token → Option (Operator × Nat)
  | .mark m :: _ => operators.lookup m
  | _ => none

/-- The operator of an assignment in front of tokens. -/
def assignmentAt? : List Token → Option (Option Operator)
  | .mark m :: _ =>
    if m == "=" then some none
    else if (operators.lookup m).isNone && m.endsWith "=" then
      (operators.lookup (m.dropEnd 1).toString).map fun o => some o.1
    else none
  | _ => none

abbrev Parsed := Except String (Expression × List Token)

mutual

/-- Reads an assignment or a choice. The first argument bounds the nesting. -/
def readAssignment : Nat → List Token → Parsed
  | 0, _ => .error "expecting primary"
  | n + 1, .name x :: rest => match assignmentAt? rest with
    | some o => do
      let (e, rest) ← readAssignment n (rest.drop 1)
      return (.assign x o e, rest)
    | none => readChoice n (.name x :: rest)
  | n + 1, ts => readChoice n ts

def readChoice : Nat → List Token → Parsed
  | 0, _ => .error "expecting primary"
  | n + 1, ts => do
    let (condition, rest) ← readEither n ts
    match rest with
    | .mark "?" :: rest =>
      let (yes, rest) ← readAssignment n rest
      match rest with
      | .mark ":" :: rest =>
        let (no, rest) ← readChoice n rest
        return (.choose condition yes no, rest)
      | _ => .error "expecting ':'"
    | _ => return (condition, rest)

def readEither : Nat → List Token → Parsed
  | 0, _ => .error "expecting primary"
  | n + 1, ts => do
    let (left, rest) ← readBoth n ts
    match rest with
    | .mark "||" :: rest =>
      let (right, rest) ← readEither n rest
      return (.either left right, rest)
    | _ => return (left, rest)

def readBoth : Nat → List Token → Parsed
  | 0, _ => .error "expecting primary"
  | n + 1, ts => do
    let (left, rest) ← readPrimary n ts
    let (left, rest) ← readBinary n 8 left rest
    match rest with
    | .mark "&&" :: rest =>
      let (right, rest) ← readBoth n rest
      return (.both left right, rest)
    | _ => return (left, rest)

/-- Reads operators that bind tighter than a limit, with what stands to their right. -/
def readBinary : Nat → Nat → Expression → List Token → Parsed
  | 0, _, _, _ => .error "expecting primary"
  | n + 1, limit, left, ts => match operatorAt? ts with
    | none => return (left, ts)
    | some (o, looseness) =>
      if limit ≤ looseness then return (left, ts)
      else do
        let (right, rest) ← readPrimary n (ts.drop 1)
        let (right, rest) ← readBinary n looseness right rest
        readBinary n limit (.binary o left right) rest

def readPrimary : Nat → List Token → Parsed
  | 0, _ => .error "expecting primary"
  | _, .number value :: rest => .ok (.number value, rest)
  | _, .name x :: rest => .ok (.parameter x, rest)
  | n + 1, .mark m :: rest => match m with
    | "(" => do
      let (e, rest) ← readAssignment n rest
      match rest with
      | .mark ")" :: rest => return (e, rest)
      | _ => .error "expecting ')'"
    | "+" => readPrimary n rest
    | "-" => do
      let (e, rest) ← readPrimary n rest
      return (.minus e, rest)
    | "!" => do
      let (e, rest) ← readPrimary n rest
      return (.isZero e, rest)
    | "~" => do
      let (e, rest) ← readPrimary n rest
      return (.complement e, rest)
    | _ => .error "expecting primary"
  | _, [] => .error "expecting primary"

end

/-- The expression that a text writes, or what is missing in it. -/
def read (cs : List Char) : Except String Expression := do
  let ts := tokens cs.length cs
  let (e, rest) ← readAssignment (8 * ts.length + 16) ts
  if rest.isEmpty then return e else .error "expecting EOF"

/-- What an expression needs of the variables around it. -/
structure Host (m : Type → Type) where
  value : String → m Int
  assign : String → Int → m Unit
  divisionByZero : m Int

/-- The value of an expression. What does not count for it is not evaluated. -/
def Expression.evaluate {m : Type → Type} [Monad m] (host : Host m) : Expression → m Int
  | number value => pure value
  | parameter name => host.value name
  | minus e => do return wrap (-(← e.evaluate host))
  | isZero e => do return ofBool ((← e.evaluate host) = 0)
  | complement e => do return -(← e.evaluate host) - 1
  | binary o a b => do
    let x ← a.evaluate host
    let y ← b.evaluate host
    match o.apply? x y with
    | some value => return value
    | none => host.divisionByZero
  | both a b => do
    let x ← a.evaluate host
    if x = 0 then return 0
    let y ← b.evaluate host
    return ofBool (y ≠ 0)
  | either a b => do
    let x ← a.evaluate host
    if x ≠ 0 then return 1
    let y ← b.evaluate host
    return ofBool (y ≠ 0)
  | choose c a b => do
    let x ← c.evaluate host
    if x ≠ 0 then a.evaluate host else b.evaluate host
  | assign name o e => do
    let value ← e.evaluate host
    let value ← match o with
      | none => pure value
      | some o => do
        let old ← host.value name
        match o.apply? old value with
        | some value => pure value
        | none => host.divisionByZero
    host.assign name value
    return value

/-- The number that the value of a variable writes: blanks around it do not count, and no text at
all is zero. -/
def ofText? (cs : List Char) : Option Int :=
  let cs := cs.dropWhile Text.isBlank
  let (negative, cs) := match cs with
    | '-' :: rest => (true, rest)
    | '+' :: rest => (false, rest)
    | _ => (false, cs)
  let (value, rest) := readNumber cs
  if cs.isEmpty && !negative then some 0
  else if cs.head?.any Char.isDigit && rest.all Text.isBlank then some (if negative then -value else value)
  else none

end TestSynth.Shell.Arithmetic
