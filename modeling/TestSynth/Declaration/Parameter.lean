import TestSynth.Model.Basic
import TestSynth.Text.Nesting
/-!
Parameter declarations: cutting a list, telling a type from a name, and the normal spelling of a
type.
-/
namespace TestSynth.Declaration

open Text

/-- Words that never name a parameter. -/
def typeWords : List String :=
  ["int", "char", "bool", "float", "double", "long", "short", "unsigned", "signed", "void", "auto",
    "const", "volatile", "wchar_t", "char16_t", "char32_t", "char8_t", "size_t", "struct", "class",
    "enum", "typename", "restrict"]

/-- Drops a space before a declarator or a closing angle bracket, and after an opening one. -/
def tightenSpaces : List Char → List Char
  | [] => []
  | '<' :: ' ' :: cs => '<' :: tightenSpaces cs
  | ' ' :: c :: cs =>
    if c == '*' || c == '&' || c == '>' then tightenSpaces (c :: cs)
    else ' ' :: tightenSpaces (c :: cs)
  | c :: cs => c :: tightenSpaces cs

/-- The normal spelling of a type. -/
def tidyType (cs : List Char) : List Char := tightenSpaces (normalizeSpaces cs)

/-- What stands before and after the first assignment outside brackets. A bracket of any kind
counts, an excess of closing ones does not, and the `=` of a comparison is none. -/
def cutAtAssign (depth : Nat) (previous : Option Char) :
    List Char → Option (List Char × List Char)
  | [] => none
  | c :: cs =>
    let comparison :=
      previous == some '=' || previous == some '!' || previous == some '<' ||
        previous == some '>' || cs.head? == some '='
    if c == '=' && depth == 0 && !comparison then some ([], cs)
    else
      let depth' :=
        if c == '(' || c == '[' || c == '{' || c == '<' then depth + 1
        else if c == ')' || c == ']' || c == '}' || c == '>' then depth - 1
        else depth
      (cutAtAssign depth' (some c) cs).map fun (before, after) => (c :: before, after)

/-- What stands before the first colon that is not half of `::`, or the whole text. -/
def beforeColon (previous : Option Char) : List Char → List Char
  | [] => []
  | c :: cs =>
    if c == ':' && cs.head? != some ':' && previous != some ':' then []
    else c :: beforeColon (some c) cs

theorem cutAtLast_length {pat cs before after : List Char}
    (h : cutAtLast pat cs = some (before, after)) :
    before.length + pat.length ≤ cs.length := by
  induction cs generalizing before after with
  | nil =>
    cases pat <;> simp_all [cutAtLast]
  | cons c cs ih =>
    unfold cutAtLast at h
    split at h
    · rename_i b a hb
      simp only [Option.some.injEq, Prod.mk.injEq] at h
      obtain ⟨rfl, rfl⟩ := h
      have := ih hb
      simp only [List.length_cons]
      omega
    · split at h
      · rename_i hp
        simp only [Option.some.injEq, Prod.mk.injEq] at h
        obtain ⟨rfl, rfl⟩ := h
        have := (List.isPrefixOf_iff_prefix.mp hp).length_le
        simpa using this
      · simp at h

theorem dropEndWhile_length (p : Char → Bool) (cs : List Char) :
    (dropEndWhile p cs).length ≤ cs.length := by
  induction cs with
  | nil => simp [dropEndWhile]
  | cons c cs ih =>
    unfold dropEndWhile
    split
    · split <;> simp
    · rename_i h
      rw [h] at ih
      simpa using ih

/-- Removes the array brackets at the end of a declarator; says whether there were any. -/
def dropArrays (cs : List Char) : List Char × Bool :=
  if endsWith [']'] cs then
    match _h : cutAtLast ['['] cs with
    | some (before, _) => ((dropArrays (trimEnd before)).1, true)
    | none => (cs, false)
  else (cs, false)
termination_by cs.length
decreasing_by
  have h1 := cutAtLast_length _h
  have h2 := dropEndWhile_length isBlank before
  simp only [List.length_cons, List.length_nil] at h1
  simp only [trimEnd]
  omega

/-- Splits a parameter into type and name. The last run of identifier characters is the name
unless it belongs to the type: a type word, the end of a qualified name, or all there is. An array
is passed as a pointer. -/
def splitTypeAndName (cs : List Char) : Parameter :=
  let (text, isArray) := dropArrays (trim cs)
  let candidate := takeEndWhile isWord text
  let rest := trimEnd (dropEndWhile isWord text)
  let partOfType :=
    !isIdentifier candidate || rest.isEmpty || typeWords.contains (String.ofList candidate) ||
      endsWith [':', ':'] rest || endsWith ['<'] rest || endsWith [','] rest
  let declared := tidyType (if partOfType then text else rest)
  let declared := if isArray then declared ++ ['*'] else declared
  ⟨String.ofList declared, if partOfType then "" else String.ofList candidate, false⟩

/-- One entry of a list, already free of surplus blanks; none when it declares no parameter. -/
def parseEntry? (entry : List Char) : Option Parameter :=
  let (declared, hasDefault) := match cutAtAssign 0 none entry with
    | some (before, _) => (trim before, true)
    | none => (entry, false)
  match declared with
  | c :: _ =>
    if isWordStart c || c == ':' then some { splitTypeAndName declared with hasDefault } else none
  | [] => none

/-- The parameters of a list and whether an ellipsis stands in it; none when an entry declares no
parameter, as in the arguments of an initialiser. -/
def parseParameters? (cs : List Char) : Option (List Parameter × Bool) :=
  let text := trim cs
  if text.isEmpty || text == "void".toList then some ([], false)
  else
    let entries := ((splitTopLevel ',' text).map normalizeSpaces).filter (!·.isEmpty)
    let isEllipsis (e : List Char) : Bool := containsText ['.', '.', '.'] e
    ((entries.filter (!isEllipsis ·)).mapM parseEntry?).map (·, entries.any isEllipsis)

end TestSynth.Declaration
