import TestSynth.Text.Classes
/-!
Masking of what never declares anything: comments, the contents of literals and preprocessor
lines. A masked character becomes a space and every newline stays, so the masked text has the
length and the line structure of its source. The lines of a text, and the number of a line, stand
here as well.
-/
namespace TestSynth.Text

/-- What the characters at the current point belong to. -/
inductive Region where
  | code
  | lineComment
  | blockComment
  | literal (quote : Char)
deriving DecidableEq, Repr

/-- A newline stays and all else becomes a space. -/
def blankOut (c : Char) : Char := if c == '\n' then '\n' else ' '

/-- An apostrophe between two ASCII letters or digits groups the digits of a number. -/
def groupsDigits (previous : Option Char) (after : List Char) : Bool :=
  previous.any Char.isAlphanum && after.head?.any Char.isAlphanum

/-- Masks from a point inside `region`, where `previous` is the source character before it. A
literal that is still open at the end of its line ends there. -/
def maskFrom : Region → Option Char → List Char → List Char
  | _, _, [] => []
  | .code, _, '/' :: '/' :: cs => ' ' :: ' ' :: maskFrom .lineComment (some '/') cs
  | .code, _, '/' :: '*' :: cs => ' ' :: ' ' :: maskFrom .blockComment (some '*') cs
  | .code, _, '"' :: cs => '"' :: maskFrom (.literal '"') (some '"') cs
  | .code, previous, '\'' :: cs =>
    '\'' :: maskFrom (if groupsDigits previous cs then .code else .literal '\'') (some '\'') cs
  | .code, _, c :: cs => c :: maskFrom .code (some c) cs
  | .lineComment, _, c :: cs =>
    blankOut c :: maskFrom (if c == '\n' then .code else .lineComment) (some c) cs
  | .blockComment, _, '*' :: '/' :: cs => ' ' :: ' ' :: maskFrom .code (some '/') cs
  | .blockComment, _, c :: cs => blankOut c :: maskFrom .blockComment (some c) cs
  | .literal _, _, ['\\'] => [' ']
  | .literal quote, _, '\\' :: c :: cs =>
    ' ' :: blankOut c :: maskFrom (.literal quote) (some c) cs
  | .literal quote, _, c :: cs =>
    if c == quote then quote :: maskFrom .code (some c) cs
    else blankOut c :: maskFrom (if c == '\n' then .code else .literal quote) (some c) cs

/-- Masks comments and the contents of literals; quotes stay. -/
def stripComments (cs : List Char) : List Char := maskFrom .code none cs

/-- The lines of the text, each with the newline that ends it. -/
def linesWithEnds : List Char → List (List Char)
  | [] => []
  | c :: cs =>
    if c == '\n' then [c] :: linesWithEnds cs
    else match linesWithEnds cs with
      | [] => [[c]]
      | l :: ls => (c :: l) :: ls

def isLineEnd (c : Char) : Bool := c == '\n' || c == '\r'

/-- Blanks every directive line; `continuing` says that the line before ended in a backslash. -/
def blankDirectiveLines : Bool → List (List Char) → List Char
  | _, [] => []
  | continuing, line :: lines =>
    if continuing || (trimStart line).head? == some '#' then
      let body := dropEndWhile isLineEnd line
      body.map (fun _ => ' ') ++ line.drop body.length ++
        blankDirectiveLines (endsWith ['\\'] (trimEnd body)) lines
    else line ++ blankDirectiveLines false lines

/-- Masks preprocessor directives and their continuation lines. -/
def blankPreprocessor (cs : List Char) : List Char :=
  blankDirectiveLines false (linesWithEnds cs)

/-- The text as the declaration scanner sees it. -/
def sanitize (cs : List Char) : List Char := blankPreprocessor (stripComments cs)

/-- A line without its newline and one carriage return before that. -/
def dropLineEnd (line : List Char) : List Char :=
  if endsWith ['\n'] line then
    let body := line.dropLast
    if endsWith ['\r'] body then body.dropLast else body
  else line

/-- The lines of a text; a newline at the very end starts no further one. -/
def lines (cs : List Char) : List (List Char) := (linesWithEnds cs).map dropLineEnd

/-- The characters that end at or before a byte offset, all of them when it lies past the end; none
when it lies inside a character. -/
def charsBefore? : Nat → List Char → Option (List Char)
  | _, [] => some []
  | offset, c :: cs =>
    if offset = 0 then some []
    else if offset < c.utf8Size then none
    else (charsBefore? (offset - c.utf8Size) cs).map (c :: ·)

/-- The number, from one, of the line that holds the byte at `offset`, which must not lie inside a
character. -/
def lineOf? (cs : List Char) (offset : Nat) : Option Nat :=
  (charsBefore? offset cs).map fun before => before.count '\n' + 1

end TestSynth.Text
