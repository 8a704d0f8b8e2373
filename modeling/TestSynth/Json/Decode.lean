import TestSynth.Json.Basic
import TestSynth.Path
/-!
Taking structured data apart. The fields of a structure come from a record, where unknown ones are
passed over and a known one stands once at most, or from a list, by position.
-/
namespace TestSynth.Json

abbrev Fields := List (String × Json)

/-- What may stand in for the usual form of a value. -/
structure Dialect where
  /-- A structure that is given as a list may have more items than it has fields. -/
  allowsExtraItems : Bool := false
  /-- What a constant that is given as a key can hold. -/
  isNothing : Json → Bool := isNull

/-- The fields of those names. -/
def fieldsIn? (d : Dialect) (names : List String) : Json → Option Fields
  | .record fields =>
    let known := fields.filter fun f => names.contains f.1
    if names.all fun n => (known.filter (·.1 == n)).length ≤ 1 then some known else none
  | .list items =>
    if d.allowsExtraItems || items.length ≤ names.length then some (names.zip items) else none
  | _ => none

/-- The word for a constant: a text, or a record that has it as its only key and holds nothing. -/
def constantIn? (d : Dialect) : Json → Option String
  | .text s => some s
  | .record [(s, j)] => if d.isNothing j then some s else none
  | _ => none

def fields? (names : List String) : Json → Option Fields := fieldsIn? {} names

def asConstant? : Json → Option String := constantIn? {}

/-- The tag of a value that comes in several kinds, and what it holds besides. The tag is a field, or
the first item of a list. The whole value is read before its kind is known, so all of it has to have
a value; `depth` bounds its levels. -/
def tagged? (tag : String) (depth : Nat) (j : Json) : Option (String × Json) :=
  if !j.isSound depth then none
  else match j with
    | .record fields => match fields.partition (·.1 == tag) with
      | ([(_, .text kind)], rest) => some (kind, .record rest)
      | _ => none
    | .list (.text kind :: rest) => some (kind, .list rest)
    | _ => none

namespace Fields

def get? (fs : Fields) (key : String) : Option Json := (fs.find? (·.1 == key)).map (·.2)

/-- A field that has to be there. -/
def required {α : Type} (fs : Fields) (key : String) (decode : Json → Option α) : Option α :=
  (fs.get? key).bind decode

/-- A field that has a value when it is missing. -/
def withDefault {α : Type} (fs : Fields) (key : String) (value : α) (decode : Json → Option α) :
    Option α :=
  match fs.get? key with
  | none => some value
  | some j => decode j

/-- A field that may be missing or null. -/
def optional {α : Type} (fs : Fields) (key : String) (decode : Json → Option α) :
    Option (Option α) :=
  match fs.get? key with
  | none | some .null => some none
  | some j => (decode j).map some

end Fields

/-- A list of values of one kind. -/
def listOf? {α : Type} (decode : Json → Option α) (j : Json) : Option (List α) :=
  j.asList?.bind (·.mapM decode)

/-- A pair, written as a list. -/
def pairOf? {α β : Type} (first : Json → Option α) (second : Json → Option β) :
    Json → Option (α × β)
  | .list [a, b] => do return (← first a, ← second b)
  | _ => none

def asPath? (j : Json) : Option Path := j.asText?.map Path.mk

def asNat32? : Json → Option Nat := asNatBelow? UInt32.size

end TestSynth.Json
