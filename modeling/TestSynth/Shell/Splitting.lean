import TestSynth.Text.Pattern
/-!
How the text that a word stands for falls into fields.
-/
namespace TestSynth.Shell

open Text (Mark)

/-- What a word stands for, character by character. -/
inductive Glyph where
  | char (c : Char) (isQuoted : Bool)
  /-- Quotes, which make a field of a word even when nothing stands between them. -/
  | quotes
  /-- The border between two arguments. -/
  | border
deriving DecidableEq, Repr, Inhabited

inductive Region where
  /-- Text that is not split. -/
  | whole
  /-- Text that separators split. -/
  | split
  /-- Text that only borders split. -/
  | arguments
deriving DecidableEq, Repr, Inhabited

structure Segment where
  region : Region
  glyphs : List Glyph
deriving DecidableEq, Repr, Inhabited

namespace Glyph

def isBlank : Glyph → Bool
  | char c _ => c == ' ' || c == '\t' || c == '\n'
  | border => true
  | quotes => false

def isSeparator (separators : List Char) : Glyph → Bool
  | char c _ => separators.contains c
  | border => true
  | quotes => false

def mark? : Glyph → Option Mark
  | char c q => some (c, q)
  | _ => none

end Glyph

def marksOf (glyphs : List Glyph) : List Mark := glyphs.filterMap Glyph.mark?

def charsOf (glyphs : List Glyph) : List Char := (marksOf glyphs).map (·.1)

/-- Fields that are done, the last one first, and the one that is being read, backwards. -/
structure Splitting where
  fields : List (List Glyph) := []
  current : List Glyph := []
  /-- Whether the last region was split at borders only. -/
  keepsEmpty : Bool := false

namespace Splitting

/-- What separators at the front belong to the one that ended a field: blanks, and around them one
separator of another kind if a blank came first. -/
def dropSeparators (separators : List Char) : Bool → List Glyph → List Glyph
  | _, [] => []
  | afterBlank, g :: rest =>
    if !g.isSeparator separators then g :: rest
    else if g.isBlank then dropSeparators separators afterBlank rest
    else if afterBlank then dropSeparators separators false rest
    else g :: rest

/-- Goes through the text of a region; the first argument bounds its length. -/
def readRegion (separators : List Char) (byBordersOnly afterBorders : Bool) :
    Nat → List Glyph → Splitting → Splitting
  | 0, _, s | _, [], s => s
  | n + 1, g :: rest, s =>
    if !g.isSeparator separators then
      readRegion separators byBordersOnly afterBorders n rest { s with current := g :: s.current }
    else
      let isBlank := !(afterBorders || byBordersOnly) && g.isBlank
      if s.current.isEmpty && isBlank then
        readRegion separators byBordersOnly afterBorders n rest s
      else
        let s := { s with fields := s.current.reverse :: s.fields, current := [] }
        readRegion separators byBordersOnly afterBorders n
          (if byBordersOnly then rest else dropSeparators separators isBlank rest) s

def addSegment (separators : List Char) (s : Splitting) (segment : Segment) : Splitting :=
  match segment.region with
  | .whole => { s with current := segment.glyphs.reverse ++ s.current }
  | .split =>
    { readRegion separators false s.keepsEmpty segment.glyphs.length segment.glyphs s with
      keepsEmpty := false }
  | .arguments =>
    { readRegion [] true s.keepsEmpty segment.glyphs.length segment.glyphs s with keepsEmpty := true }

end Splitting

/-- The fields of segments. -/
def splitFields (separators : List Char) (segments : List Segment) : List (List Glyph) :=
  let s := segments.foldl (Splitting.addSegment separators) {}
  let all := if s.keepsEmpty || !s.current.isEmpty then s.current.reverse :: s.fields else s.fields
  all.reverse

end TestSynth.Shell
