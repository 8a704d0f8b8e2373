import TestSynth.Text.Classes
/-!
Bracket structure: the group an opening bracket starts, balance, and cuts that respect groups.
A bracket is found by counting its own kind alone, so `(` and `[` do not see each other.
-/
namespace TestSynth.Text

section Groups
variable {α : Type} [BEq α]

/-- Cuts the text after an opening bracket, `depth` more being open inside it, into the inside of
the group and what follows its closing bracket. -/
def splitGroup (opening closing : α) : Nat → List α → Option (List α × List α)
  | _, [] => none
  | depth, x :: xs =>
    if x == opening then
      (splitGroup opening closing (depth + 1) xs).map fun (inside, after) => (x :: inside, after)
    else if x == closing then
      match depth with
      | 0 => some ([], xs)
      | depth + 1 =>
        (splitGroup opening closing depth xs).map fun (inside, after) => (x :: inside, after)
    else (splitGroup opening closing depth xs).map fun (inside, after) => (x :: inside, after)

theorem splitGroup_length {opening closing : α} {depth : Nat} {xs inside after : List α}
    (h : splitGroup opening closing depth xs = some (inside, after)) :
    inside.length + after.length + 1 = xs.length := by
  induction xs generalizing depth inside after with
  | nil => simp [splitGroup] at h
  | cons x xs ih =>
    have hinside : ∀ d, (splitGroup opening closing d xs).map
        (fun (inside, after) => (x :: inside, after)) = some (inside, after) →
          inside.length + after.length + 1 = (x :: xs).length := by
      intro d hd
      obtain ⟨⟨i, a⟩, hs, he⟩ := Option.map_eq_some_iff.mp hd
      have := ih hs
      simp only [Prod.mk.injEq] at he
      obtain ⟨rfl, rfl⟩ := he
      simp only [List.length_cons]
      omega
    unfold splitGroup at h
    split at h
    · exact hinside _ h
    · split at h
      · split at h
        · simp only [Option.some.injEq, Prod.mk.injEq] at h
          obtain ⟨rfl, rfl⟩ := h
          simp
        · exact hinside _ h
      · exact hinside _ h

/-- The position of the bracket that closes the one at `start`, if one stands there. -/
def closingIndex (opening closing : α) (xs : List α) (start : Nat) : Option Nat :=
  match xs.drop start with
  | [] => none
  | x :: rest =>
    if x == opening then
      (splitGroup opening closing 0 rest).map fun (inside, _) => start + inside.length + 1
    else none

end Groups

/-- How many braces the text leaves open; none when a closing one comes too early. -/
def openBraces : Nat → List Char → Option Nat
  | depth, [] => some depth
  | depth, '{' :: cs => openBraces (depth + 1) cs
  | 0, '}' :: _ => none
  | depth + 1, '}' :: cs => openBraces depth cs
  | depth, _ :: cs => openBraces depth cs

def bracesBalanced (cs : List Char) : Bool := openBraces 0 cs == some 0

/-- Open groups at a point. Closing brackets may outnumber opening ones; angle brackets may not,
and the `>` of an arrow closes nothing. -/
structure Nesting where
  depth : Int := 0
  angles : Nat := 0
deriving DecidableEq, Repr

def Nesting.isClosed (n : Nesting) : Bool := n.depth == 0 && n.angles == 0

/-- The nesting after `c`, or none when `c` is no bracket. -/
def Nesting.bracket? (n : Nesting) (previous : Option Char) (c : Char) : Option Nesting :=
  if c == '(' || c == '[' || c == '{' then some { n with depth := n.depth + 1 }
  else if c == ')' || c == ']' || c == '}' then some { n with depth := n.depth - 1 }
  else if c == '<' then some { n with angles := n.angles + 1 }
  else if c == '>' then some (if previous == some '-' then n else { n with angles := n.angles - 1 })
  else none

/-- Puts a character in front of the first piece. -/
def consFirst (c : Char) : List (List Char) → List (List Char)
  | [] => [[c]]
  | p :: ps => (c :: p) :: ps

/-- The pieces between the separators that stand outside all groups. -/
def splitTopLevelFrom (isSeparator : Char → Bool) :
    Nesting → Option Char → List Char → List (List Char)
  | _, _, [] => [[]]
  | n, previous, c :: cs => match n.bracket? previous c with
    | some n' => consFirst c (splitTopLevelFrom isSeparator n' (some c) cs)
    | none =>
      if isSeparator c && n.isClosed then [] :: splitTopLevelFrom isSeparator n (some c) cs
      else consFirst c (splitTopLevelFrom isSeparator n (some c) cs)

def splitTopLevel (sep : Char) (cs : List Char) : List (List Char) :=
  splitTopLevelFrom (· == sep) {} none cs

/-- The pieces between the bytes `sep` that stand outside all groups. There are none when such a
byte starts a longer character, because a cut would go through that character. -/
def splitTopLevelBytes? (sep : UInt8) (cs : List Char) : Option (List (List Char)) :=
  let pieces := splitTopLevelFrom (fun c => (String.utf8EncodeChar c).head? == some sep) {} none cs
  if sep < 0x80 || pieces.length ≤ 1 then some pieces else none

/-- What stands before and after the first `(` outside angle brackets. -/
def cutAtParen (angles : Nat) (previous : Option Char) :
    List Char → Option (List Char × List Char)
  | [] => none
  | c :: cs =>
    if c == '(' && angles == 0 then some ([], cs)
    else
      let angles' :=
        if c == '<' then angles + 1
        else if c == '>' && previous != some '-' then angles - 1
        else angles
      (cutAtParen angles' (some c) cs).map fun (before, after) => (c :: before, after)

/-- Replaces each outermost brace group by a semicolon. A group that a comma or another group
follows initialises a member and leaves nothing; a group that never closes ends the text. -/
def stripBodies : List Char → List Char
  | [] => []
  | c :: cs =>
    if c == '{' then
      match _h : splitGroup '{' '}' 0 cs with
      | none => []
      | some (_, after) =>
        match (trimStart after).head? with
        | some ',' | some '{' => stripBodies after
        | _ => ';' :: stripBodies after
    else c :: stripBodies cs
termination_by cs => cs.length
decreasing_by
  all_goals simp only [List.length_cons]
  all_goals first
    | (have h := splitGroup_length _h; omega)
    | omega

end TestSynth.Text
