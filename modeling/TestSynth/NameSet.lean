/-!
Finite sets of names in alphabetical order, by code points.
-/
namespace TestSynth

/-- The members in strictly increasing order. -/
structure NameSet where
  members : List String := []
deriving DecidableEq, Repr, Inhabited

namespace NameSet

def empty : NameSet := ⟨[]⟩

def insertInto (name : String) : List String → List String
  | [] => [name]
  | x :: xs =>
    if name < x then name :: x :: xs
    else if name = x then x :: xs
    else x :: insertInto name xs

def insert (s : NameSet) (name : String) : NameSet := ⟨insertInto name s.members⟩

def contains (s : NameSet) (name : String) : Bool := s.members.contains name

def union (s t : NameSet) : NameSet := t.members.foldl insert s

def ofList (names : List String) : NameSet := names.foldl insert empty

def isEmpty (s : NameSet) : Bool := s.members.isEmpty

end NameSet

end TestSynth
