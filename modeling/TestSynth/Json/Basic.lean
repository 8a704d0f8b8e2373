import TestSynth.Number.Binary64
/-!
Structured data as the data files hold it. Whole numbers and binary numbers are kept apart, and a
record keeps its fields in order. Data can be written correctly and yet have no value; such a piece
does no harm where nobody asks for it.
-/
namespace TestSynth

inductive Json where
  | null
  | bool (b : Bool)
  | int (n : Int)
  | float (x : Number.Binary64)
  | text (s : String)
  | list (items : List Json)
  | record (fields : List (String × Json))
  /-- A text that is no sequence of characters, a number out of range, a record with such a key. -/
  | valueless
deriving Inhabited

namespace Json

def nat (n : Nat) : Json := .int n

def word (n : UInt64) : Json := .int n.toNat

def texts (ss : List String) : Json := .list (ss.map .text)

def optional {α : Type} (f : α → Json) : Option α → Json
  | none => .null
  | some a => f a

/-- The field of that name, if the value is a record that has one. -/
def field? (key : String) : Json → Option Json
  | .record fields => (fields.find? (·.1 == key)).map (·.2)
  | _ => none

/-- The field of that name; a missing one is null. -/
def field (key : String) (j : Json) : Json := (j.field? key).getD .null

def isNull : Json → Bool
  | .null => true
  | _ => false

def asBool? : Json → Option Bool
  | .bool b => some b
  | _ => none

def asText? : Json → Option String
  | .text s => some s
  | _ => none

def asInt? : Json → Option Int
  | .int n => some n
  | _ => none

/-- A whole number from zero up to the bound, which is not reached. -/
def asNatBelow? (bound : Nat) : Json → Option Nat
  | .int (.ofNat n) => if n < bound then some n else none
  | _ => none

def asNat? : Json → Option Nat := asNatBelow? UInt64.size

def asWord64? (j : Json) : Option UInt64 := j.asNat?.map Nat.toUInt64

def asFloat? : Json → Option Number.Binary64
  | .float x => some x
  | .int (.ofNat n) => some (Number.Binary64.ofNat n)
  | .int (.negSucc n) => some (Number.Binary64.ofNat (n + 1)).negate
  | _ => none

def asList? : Json → Option (List Json)
  | .list items => some items
  | _ => none

def asRecord? : Json → Option (List (String × Json))
  | .record fields => some fields
  | _ => none

mutual

/-- Everything in it has a value, and it nests at most `depth` levels of lists and records. -/
def isSound : Nat → Json → Bool
  | _, .valueless => false
  | 0, .list _ | 0, .record _ => false
  | depth + 1, .list items => areSound depth items
  | depth + 1, .record fields => fieldsAreSound depth fields
  | _, _ => true

def areSound (depth : Nat) : List Json → Bool
  | [] => true
  | j :: js => isSound depth j && areSound depth js

def fieldsAreSound (depth : Nat) : List (String × Json) → Bool
  | [] => true
  | (_, j) :: rest => isSound depth j && fieldsAreSound depth rest

end

def asTexts? (j : Json) : Option (List String) := j.asList?.bind (·.mapM asText?)

end Json

end TestSynth
