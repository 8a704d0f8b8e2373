import TestSynth.Text.CodePoints
/-!
Character classes of source text and the cuts built from them: trimming, words and fields.
Positions outside the text are never computed here; a cut returns the pieces themselves.
-/
namespace TestSynth.Text

/-- The characters of an ASCII identifier. -/
def isWord (c : Char) : Bool := c.isAlphanum || c == '_'

def isWordStart (c : Char) : Bool := c.isAlpha || c == '_'

/-- The characters with the White_Space property. -/
def isBlank (c : Char) : Bool :=
  let n := c.toNat
  (9 ≤ n && n ≤ 13) || n == 32 || n == 0x85 || n == 0xa0 || n == 0x1680 ||
    (0x2000 ≤ n && n ≤ 0x200a) || n == 0x2028 || n == 0x2029 || n == 0x202f || n == 0x205f ||
    n == 0x3000

/-- The word characters a pattern's `\w` and word boundaries go by, in every script. -/
def isWordAnywhere (c : Char) : Bool :=
  if c.toNat < 128 then isWord c else flipsInside wordFlips c.toNat

def isDigitAnywhere (c : Char) : Bool :=
  if c.toNat < 128 then c.isDigit else flipsInside digitFlips c.toNat

def trimStart (cs : List Char) : List Char := cs.dropWhile isBlank

/-- The text without the longest end on which `p` holds throughout. -/
def dropEndWhile (p : Char → Bool) : List Char → List Char
  | [] => []
  | c :: cs => match dropEndWhile p cs with
    | [] => if p c then [] else [c]
    | d :: ds => c :: d :: ds

/-- The longest end of the text on which `p` holds throughout. -/
def takeEndWhile (p : Char → Bool) (cs : List Char) : List Char :=
  (cs.reverse.takeWhile p).reverse

def trimEnd (cs : List Char) : List Char := dropEndWhile isBlank cs

def trim (cs : List Char) : List Char := trimEnd (trimStart cs)

/-- The maximal runs between the characters that satisfy `p`, empty runs included. -/
def fields (p : Char → Bool) : List Char → List (List Char)
  | [] => [[]]
  | c :: cs =>
    if p c then [] :: fields p cs
    else match fields p cs with
      | [] => [[c]]
      | f :: fs => (c :: f) :: fs

/-- The non-empty runs between blanks. -/
def words (cs : List Char) : List (List Char) := (fields isBlank cs).filter (!·.isEmpty)

/-- The runs of identifier characters, empty ones included. -/
def tokens (cs : List Char) : List (List Char) := fields (!isWord ·) cs

def joinWith (sep : List Char) : List (List Char) → List Char
  | [] => []
  | [w] => w
  | w :: ws => w ++ sep ++ joinWith sep ws

/-- One space between words and none at the ends. -/
def normalizeSpaces (cs : List Char) : List Char := joinWith [' '] (words cs)

/-- A non-empty run of identifier characters that starts with no digit. -/
def isIdentifier : List Char → Bool
  | [] => false
  | c :: cs => isWordStart c && cs.all isWord

/-- What stands before and after the first occurrence of `pat`. -/
def cutAt (pat : List Char) : List Char → Option (List Char × List Char)
  | [] => if pat.isEmpty then some ([], []) else none
  | c :: cs =>
    if pat.isPrefixOf (c :: cs) then some ([], (c :: cs).drop pat.length)
    else (cutAt pat cs).map fun (before, after) => (c :: before, after)

/-- What stands before and after the last occurrence of `pat`. -/
def cutAtLast (pat : List Char) : List Char → Option (List Char × List Char)
  | [] => if pat.isEmpty then some ([], []) else none
  | c :: cs => match cutAtLast pat cs with
    | some (before, after) => some (c :: before, after)
    | none => if pat.isPrefixOf (c :: cs) then some ([], (c :: cs).drop pat.length) else none

def containsText (pat cs : List Char) : Bool := (cutAt pat cs).isSome

def endsWith (pat cs : List Char) : Bool := pat.isSuffixOf cs

/-- Every occurrence of `pat`, taken from the left without overlap, becomes `sub`; the empty pattern
stands around every character. A bound on the number of steps, the length of the text, keeps the
recursion structural. -/
def replaceAll (pat sub cs : List Char) : List Char :=
  if pat.isEmpty then sub ++ cs.flatMap fun c => c :: sub else go cs.length cs
where
  go : Nat → List Char → List Char
    | 0, cs => cs
    | n + 1, cs => match cutAt pat cs with
      | some (before, after) => before ++ sub ++ go n after
      | none => cs

/-- Bytes the text takes in UTF-8. -/
def byteLength (cs : List Char) : Nat := cs.foldl (fun n c => n + c.utf8Size) 0

def containsString (pat s : String) : Bool := containsText pat.toList s.toList

def trimString (s : String) : String := String.ofList (trim s.toList)

def replaceString (pat sub s : String) : String :=
  String.ofList (replaceAll pat.toList sub.toList s.toList)

/-- The mark around a piece of code. -/
def codeMark : Char := Char.ofNat 0x60

/-- A piece of code in running text. -/
def asCode (s : String) : String := String.ofList (codeMark :: s.toList ++ [codeMark])

end TestSynth.Text
