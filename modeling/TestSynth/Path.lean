import TestSynth.Text.Classes
/-!
File paths. A path keeps the text it was written with; equality of places and the order of paths
go by its components, so that `a//b`, `a/./b` and `a/b/` agree.
-/
namespace TestSynth

structure Path where
  text : String := ""
deriving DecidableEq, Repr, Inhabited

namespace Path

inductive Component where
  | root
  | here
  | parent
  | name (text : String)
deriving DecidableEq, Repr

def Component.rank : Component → Nat
  | .root => 0
  | .here => 1
  | .parent => 2
  | .name _ => 3

/-- By kind, and names by code points. -/
def Component.order : Component → Component → Ordering
  | .name a, .name b => compare a b
  | a, b => compare a.rank b.rank

/-- The pieces of a path text between slashes. -/
def pieces (cs : List Char) : List (List Char) := Text.fields (· == '/') cs

/-- A piece after the first: a single point and nothing name no place. -/
def component? (piece : List Char) : Option Component :=
  if piece.isEmpty || piece == ['.'] then none
  else if piece == ['.', '.'] then some .parent
  else some (.name (String.ofList piece))

/-- A leading point is a component; every other one is skipped. -/
def components (p : Path) : List Component :=
  match p.text.toList with
  | [] => []
  | '/' :: rest => .root :: (pieces rest).filterMap component?
  | cs =>
    let body := (pieces cs).filterMap component?
    if (pieces cs).head? == some ['.'] then .here :: body else body

def samePlace (p q : Path) : Bool := p.components == q.components

def orderComponents : List Component → List Component → Ordering
  | [], [] => .eq
  | [], _ :: _ => .lt
  | _ :: _, [] => .gt
  | a :: as, b :: bs => match a.order b with
    | .eq => orderComponents as bs
    | o => o

def order (p q : Path) : Ordering := orderComponents p.components q.components

def isAbsolute (p : Path) : Bool := p.text.toList.head? == some '/'

/-- The path reached by following `q` from `p`. -/
def join (p q : Path) : Path :=
  if q.isAbsolute then q
  else if p.text.isEmpty || p.text.toList.getLast? == some '/' then ⟨p.text ++ q.text⟩
  else ⟨p.text ++ "/" ++ q.text⟩

/-- The last component, when it is a name. -/
def fileName? (p : Path) : Option String :=
  match p.components.getLast? with
  | some (.name n) => some n
  | _ => none

/-- A file name cut at its last point; a point in front alone cuts nothing. -/
def cutExtension (name : String) : String × Option String :=
  match Text.cutAtLast ['.'] name.toList with
  | some (before, after) =>
    if before.isEmpty then (name, none) else (String.ofList before, some (String.ofList after))
  | none => (name, none)

/-- The file name without its extension, or nothing. -/
def stem (p : Path) : String := (p.fileName?.map fun n => (cutExtension n).1).getD ""

def extension? (p : Path) : Option String := p.fileName?.bind fun n => (cutExtension n).2

/-- Removes what names no place from the front of a path text. -/
def dropEmptyFront : Nat → List Char → List Char
  | 0, cs => cs
  | n + 1, cs =>
    let piece := cs.takeWhile (· != '/')
    if cs.isEmpty || (component? piece).isSome then cs
    else dropEmptyFront n (cs.drop (piece.length + 1))

/-- Removes what names no place from the end of a path text. -/
def dropEmptyEnd (cs : List Char) : List Char :=
  match dropEmptyFront cs.length cs.reverse with
  | [] => []
  | ds => ds.reverse

/-- The front of a path text that is no plain component, and the rest. -/
def cutFront (p : Path) : List Char × List Char :=
  let cs := p.text.toList
  if cs.head? == some '/' || (pieces cs).head? == some ['.'] then (cs.take 1, cs.drop 1)
  else ([], cs)

/-- Skips that many components; the first argument bounds the number of pieces. -/
def skipComponents : Nat → Nat → List Char → List Char
  | 0, _, cs | _, 0, cs => cs
  | n + 1, k + 1, cs =>
    let piece := cs.takeWhile (· != '/')
    let rest := cs.drop (piece.length + 1)
    if cs.isEmpty then []
    else if (component? piece).isSome then skipComponents n k rest
    else skipComponents n (k + 1) rest

/-- The text of the components after the first `count`, as it was written. -/
def textAfter (p : Path) (count : Nat) : List Char :=
  let (front, body) := p.cutFront
  if count = 0 then front ++ dropEmptyEnd body
  else
    let below := if front.isEmpty then count else count - 1
    dropEmptyEnd (dropEmptyFront body.length (skipComponents body.length below body))

/-- The rest of `p` below `base`, if `base` is a beginning of it. -/
def relativeTo? (p base : Path) : Option Path :=
  if base.components.isPrefixOf p.components then
    some ⟨String.ofList (p.textAfter base.components.length)⟩
  else none

/-- The path without its last component. -/
def parent? (p : Path) : Option Path :=
  let (front, rest) := p.cutFront
  match dropEmptyEnd rest with
  | [] => if front == ['.'] then some ⟨""⟩ else none
  | body => some ⟨String.ofList (front ++ dropEmptyEnd (Text.dropEndWhile (· != '/') body))⟩

end Path

end TestSynth
