import TestSynth.Model.Basic
import TestSynth.Number.Decimal
/-!
The declarations of a whole project. A table holds one entry for a qualified class name and lists
its classes by header and name.
-/
namespace TestSynth

/-- The header that first defined a class, and the class's qualified name. -/
structure ClassKey where
  header : SourceUnit
  className : String
deriving DecidableEq, Repr, Inhabited

def ClassKey.order (a b : ClassKey) : Ordering :=
  (a.header.order b.header).then (compare a.className b.className)

structure ModelTable where
  classes : List (ClassKey × ClassModel) := []
  functions : List FreeFunction := []
deriving DecidableEq, Repr, Inhabited

namespace ModelTable

def models (t : ModelTable) : List ClassModel := t.classes.map (·.2)

/-- Puts an entry before the first one with a larger key; an equal key is replaced. -/
def insertEntry (key : ClassKey) (c : ClassModel) :
    List (ClassKey × ClassModel) → List (ClassKey × ClassModel)
  | [] => [(key, c)]
  | (k, d) :: rest => match key.order k with
    | .lt => (key, c) :: (k, d) :: rest
    | .eq => (k, c) :: rest
    | .gt => (k, d) :: insertEntry key c rest

/-- Merges into the first entry of that qualified name; none when there is no such entry. -/
def mergeInto? (c : ClassModel) :
    List (ClassKey × ClassModel) → Option (List (ClassKey × ClassModel))
  | [] => none
  | (k, d) :: rest =>
    if d.qualifiedName == c.qualifiedName then some ((k, d.merge c) :: rest)
    else (mergeInto? c rest).map ((k, d) :: ·)

/-- Adds a definition of a class. -/
def insert (t : ModelTable) (c : ClassModel) : ModelTable :=
  match mergeInto? c t.classes with
  | some classes => { t with classes }
  | none => { t with classes := insertEntry ⟨c.header, c.qualifiedName⟩ c t.classes }

/-- The same, unless a class would count more constructors than 64 bits can tell. -/
def insert? (t : ModelTable) (c : ClassModel) : Option ModelTable :=
  let t' := t.insert c
  if t'.models.all (·.declaredConstructors < UInt64.size) then some t' else none

/-- Adds a function unless one of its qualified name and parameters is known. -/
def absorbFunction (t : ModelTable) (f : FreeFunction) : ModelTable :=
  if t.functions.any fun g =>
      g.qualifiedName == f.qualifiedName && g.signature.parameters == f.signature.parameters then t
  else { t with functions := t.functions ++ [f] }

def absorb (t other : ModelTable) : ModelTable :=
  other.functions.foldl absorbFunction (other.models.foldl insert t)

/-- The first class with that bare or qualified name. -/
def findClass? (t : ModelTable) (name : String) : Option ClassModel :=
  t.models.find? fun c => c.name == name || c.qualifiedName == name

def classCount (t : ModelTable) : Nat := t.classes.length

def methodCount (t : ModelTable) : Nat := Number.total (t.models.map (·.methods.length))

end ModelTable

end TestSynth
