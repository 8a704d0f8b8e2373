import Std.Data.HashMap
import TestSynth.Programs.Records.Value
/-!
Arrays whose elements are found by text. The order in which they are gone through is that of lists
by the remainders of hashes, in which what was used last comes first.
-/
namespace TestSynth.Programs.Records

/-- How an element is asked for. -/
inductive Key where
  | whole (n : Int)
  | text (s : String)
deriving DecidableEq, Repr, Inhabited

def Key.toText : Key → String
  | whole n => toString n
  | text s => s

/-- The key that a value is. -/
def Key.ofValue (form : String) (v : Value) : Key :=
  match v with
  | .number x => match x.truncate? with
    | some n => if Number.Binary64.same (Number.Binary64.ofInt n) x then .whole n else .text (v.toText form)
    | none => .text (v.toText form)
  | v => .text (v.toText form)

/-- The hash of a text with one character for each byte. -/
def hashOf (s : String) : UInt32 :=
  s.toList.foldl (fun h c => (h ^^^ c.toNat.toUInt32) * 16777619) 2166136261

structure Table where
  values : Std.HashMap String Value := {}
  /-- Keys by whole numbers, and keys by text, in lists by remainder. -/
  byNumber : Array (List Int) := Array.replicate 64 []
  byText : Array (List String) := Array.replicate 64 []
  /-- Whether all keys are in the lists by text. -/
  hasTexts : Bool := false
  /-- The number of elements from one on that are in no list yet. -/
  counted : Nat := 0
deriving Inhabited

namespace Table

def size (t : Table) : Nat := t.values.size

def lists (t : Table) : Nat := t.byText.size

def spotOf (t : Table) (n : Int) : Nat := (n % (t.lists : Int)).toNat

def spotOfText (t : Table) (s : String) : Nat := (hashOf s).toNat % t.lists

/-- The elements of a list in an average at most. -/
def averageLength : Nat := 2

/-- Twice as many lists; the elements of a list that go to a new one keep their order. -/
def double (t : Table) : Table :=
  let old := t.lists
  let split {α : Type} (lists : Array (List α)) (spot : α → Nat) : Array (List α) :=
    (lists.mapIdx fun i list => list.filter fun a => spot a == i) ++
      lists.mapIdx fun i list => list.filter fun a => spot a != i
  { t with
    byNumber := split t.byNumber fun n => (n % (2 * old : Int)).toNat
    byText := split t.byText fun s => (hashOf s).toNat % (2 * old) }

/-- Room for one more element. -/
def grow (t : Table) : Table :=
  if averageLength * t.lists < t.size + 1 then t.double else t

/-- Lists that have room for so many elements. -/
def listCount : Nat → Nat → Nat → Nat
  | 0, count, _ => count
  | fuel + 1, count, elements =>
    if averageLength * count < elements then listCount fuel (2 * count) elements else count

/-- Puts elements that are only counted into lists. -/
def unfold (t : Table) : Table :=
  if t.counted = 0 then t
  else
    let count := listCount 32 64 t.counted
    let t := { t with byNumber := Array.replicate count [], byText := Array.replicate count [] }
    let byNumber := (List.range t.counted).foldl (fun (lists : Array (List Int)) (k : Nat) =>
      lists.modify ((k + 1) % count) ((k + 1 : Int) :: ·)) t.byNumber
    { t with byNumber, counted := 0 }

/-- Puts all keys into the lists by text. -/
def addTexts (t : Table) : Table :=
  let t := t.unfold
  if t.hasTexts then t
  else
    let byText := t.byNumber.toList.flatten.foldl (fun (lists : Array (List String)) n =>
      let s := toString n
      lists.modify (t.spotOfText s) (s :: ·)) t.byText
    { t with byText, hasTexts := true }

/-- A list with an element moved to its front. -/
def toFront {α : Type} [BEq α] (a : α) (list : List α) : List α :=
  if list.head? == some a then list else a :: list.erase a

/-- Uses a key as a text: it comes first in its list. A key that is not there is added if asked. -/
def useText (t : Table) (s : String) (creates : Bool) : Table :=
  let t := t.addTexts
  if t.values.contains s then { t with byText := t.byText.modify (t.spotOfText s) (toFront s) }
  else if creates then
    let t := t.grow
    { t with
      byText := t.byText.modify (t.spotOfText s) (s :: ·)
      values := t.values.insert s .none }
  else t

/-- Uses a key, which is added if asked and not there. -/
def use (t : Table) (key : Key) (creates : Bool) : Table :=
  match key with
  | .text s => t.useText s creates
  | .whole n =>
    if 0 < t.counted && 1 ≤ n && n ≤ t.counted then t
    else if 0 < t.counted && !creates then t
    else
      let t := t.unfold
      let spot := t.spotOf n
      if (t.byNumber.getD spot []).contains n then
        { t with byNumber := t.byNumber.modify spot (toFront n) }
      else if t.hasTexts then
        let s := toString n
        let t := t.useText s creates
        if t.values.contains s then { t with byNumber := t.byNumber.modify (t.spotOf n) (n :: ·) } else t
      else if creates then
        let t := t.grow
        { t with
          byNumber := t.byNumber.modify (t.spotOf n) (n :: ·)
          values := t.values.insert (toString n) .none }
      else t

def contains (t : Table) (key : Key) : Bool := t.values.contains key.toText

def get (t : Table) (key : Key) : Value := (t.values[key.toText]?).getD .none

/-- Stores an element whose key was used before. -/
def set (t : Table) (key : Key) (v : Value) : Table :=
  { t with values := t.values.insert key.toText v }

def erase (t : Table) (key : Key) : Table :=
  let s := key.toText
  if !t.values.contains s then t
  else if key == .whole t.counted && 0 < t.counted then
    { t with counted := t.counted - 1, values := t.values.erase s }
  else
    let t := t.unfold
    { t with
      values := t.values.erase s
      byText := t.byText.modify (t.spotOfText s) (·.erase s)
      byNumber := match key with
        | .whole n => t.byNumber.modify (t.spotOf n) (·.erase n)
        | .text s => match s.toInt? with
          | some n => t.byNumber.modify (t.spotOf n) (·.erase n)
          | none => t.byNumber }

/-- The keys in the order in which they are gone through. -/
def keys (t : Table) : List String := t.addTexts.byText.toList.flatten

/-- The elements of a list under the numbers from one on. -/
def ofValues (vs : List Value) : Table :=
  { values := (vs.zipIdx 1).foldl (fun m (v, k) => m.insert (toString k) v) {}
    counted := vs.length }

end Table

end TestSynth.Programs.Records
