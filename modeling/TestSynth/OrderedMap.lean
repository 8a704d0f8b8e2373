/-!
Finite maps listed by increasing key. Every change goes through one operation, which keeps the
keys in order and each of them once.
-/
namespace TestSynth

structure OrderedMap (κ α : Type) where
  entries : List (κ × α) := []
deriving DecidableEq, Repr

namespace OrderedMap

variable {κ α β : Type}

instance : Inhabited (OrderedMap κ α) := ⟨⟨[]⟩⟩

def empty : OrderedMap κ α := ⟨[]⟩

section
variable [LT κ] [DecidableLT κ] [DecidableEq κ]

def alterEntries (key : κ) (f : Option α → α) : List (κ × α) → List (κ × α)
  | [] => [(key, f none)]
  | (k, a) :: rest =>
    if key < k then (key, f none) :: (k, a) :: rest
    else if key = k then (k, f (some a)) :: rest
    else (k, a) :: alterEntries key f rest

/-- The map with the value at `key` made from the one that was there. -/
def alter (m : OrderedMap κ α) (key : κ) (f : Option α → α) : OrderedMap κ α :=
  ⟨alterEntries key f m.entries⟩

def insert (m : OrderedMap κ α) (key : κ) (a : α) : OrderedMap κ α := m.alter key fun _ => a

/-- Keeps a value that is there already. -/
def insertNew (m : OrderedMap κ α) (key : κ) (a : α) : OrderedMap κ α := m.alter key (·.getD a)

def find? (m : OrderedMap κ α) (key : κ) : Option α :=
  (m.entries.find? fun e => e.1 = key).map (·.2)

def contains (m : OrderedMap κ α) (key : κ) : Bool := (m.find? key).isSome

def ofList (entries : List (κ × α)) : OrderedMap κ α :=
  entries.foldl (fun m (k, a) => m.insert k a) empty

end

def keys (m : OrderedMap κ α) : List κ := m.entries.map (·.1)

def values (m : OrderedMap κ α) : List α := m.entries.map (·.2)

def size (m : OrderedMap κ α) : Nat := m.entries.length

def isEmpty (m : OrderedMap κ α) : Bool := m.entries.isEmpty

end OrderedMap

end TestSynth
