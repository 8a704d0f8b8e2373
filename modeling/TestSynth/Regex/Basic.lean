import TestSynth.Text.Pattern
/-!
Regular expressions over text with one character for each byte, and the programs that search for
them.
-/
namespace TestSynth

open Text (CharSet)

/-- Conditions on the place between two characters. -/
inductive Anchor where
  | textStart
  | textEnd
  | lineStart
  | lineEnd
  | wordStart
  | wordEnd
  | wordEdge
  | noWordEdge
  | noWordBefore
  | noWordBehind
deriving DecidableEq, Repr, Inhabited

inductive Regex where
  | empty
  | char (c : Char)
  | any
  | oneOf (isNegated : Bool) (sets : List CharSet)
  | anchor (a : Anchor)
  | concat (first second : Regex)
  /-- The first is tried before the second. -/
  | either (first second : Regex)
  /-- As often as possible. -/
  | many (body : Regex)
  | group (index : Nat) (body : Regex)
  /-- What a group matched before. -/
  | same (index : Nat)
deriving Repr, Inhabited

namespace Regex

/-- A step of a program; places are counted from the step itself. -/
inductive Step where
  | accept (test : Regex)
  /-- Goes on at the first place, or else at the second. -/
  | split (first second : Int)
  | jump (distance : Int)
  | save (slot : Nat)
  | check (a : Anchor)
  | same (index : Nat)
  | done
deriving Inhabited

/-- The steps of an expression. -/
def steps : Regex → List Step
  | empty => []
  | char c => [.accept (.char c)]
  | any => [.accept .any]
  | oneOf isNegated sets => [.accept (.oneOf isNegated sets)]
  | anchor a => [.check a]
  | concat a b => a.steps ++ b.steps
  | either a b =>
    let front := a.steps
    let back := b.steps
    .split 1 (front.length + 2) :: front ++ .jump (back.length + 1) :: back
  | many a =>
    let body := a.steps
    .split 1 (body.length + 2) :: body ++ [.jump (-(body.length + 1 : Int))]
  | group index a => .save (2 * index) :: a.steps ++ [.save (2 * index + 1)]
  | same index => [.same index]

def program (r : Regex) : Array Step := (r.steps ++ [Step.done]).toArray

/-- Whether an expression looks back at what a group matched. -/
def looksBack : Regex → Bool
  | concat a b | either a b => a.looksBack || b.looksBack
  | many a | group _ a => a.looksBack
  | same _ => true
  | _ => false

/-- So many times, with further times up to a limit or without one. -/
def repeated (r : Regex) (least : Nat) : Option Nat → Regex
  | none => copies least (.many r)
  | some most => copies least (optional (most - least))
where
  copies : Nat → Regex → Regex
    | 0, rest => rest
    | n + 1, rest => .concat r (copies n rest)
  optional : Nat → Regex
    | 0 => .empty
    | n + 1 => .either (.concat r (optional n)) .empty

/-- A character in the other case. -/
def otherCase (c : Char) : Char := if c.isUpper then c.toLower else c.toUpper

/-- Whether a single character fits. -/
def fits (foldsCase : Bool) (test : Regex) (c : Char) : Bool :=
  match test with
  | char d => c == d || (foldsCase && otherCase c == d)
  | oneOf isNegated sets =>
    (sets.any fun s => s.holds c || (foldsCase && s.holds (otherCase c))) != isNegated
  | _ => true

end Regex

/-- Where an expression matched: the ends of the match and of the groups, by slot. -/
structure Match where
  start : Nat
  stop : Nat
  slots : List (Nat × Nat) := []
deriving DecidableEq, Repr, Inhabited

/-- The ends of what a group matched. -/
def Match.group? (m : Match) (index : Nat) : Option (Nat × Nat) :=
  if index = 0 then some (m.start, m.stop)
  else (m.slots.lookup (2 * index + 1)).bind fun stop =>
    (m.slots.lookup (2 * index)).map fun start => (start, stop)

end TestSynth
