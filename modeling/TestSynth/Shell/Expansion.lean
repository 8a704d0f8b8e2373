import TestSynth.Process.Session
import TestSynth.Shell.Arithmetic
import TestSynth.Shell.Splitting
import TestSynth.Shell.Subshell
import TestSynth.Text.Pattern
/-!
What words stand for: values of parameters, output of scripts, values of expressions, and the names
of files that a pattern with slashes matches.
-/
namespace TestSynth.Shell

open Process
open Text (Mark Pattern)

/-- The parts of marks between slashes. -/
def splitAtSlashes : List Mark → List (List Mark)
  | [] => [[]]
  | (c, q) :: rest =>
    if c == '/' then [] :: splitAtSlashes rest
    else match splitAtSlashes rest with
      | [] => [[(c, q)]]
      | part :: parts => ((c, q) :: part) :: parts

/-- Whether a part of a name needs a look into its directory. -/
def isWild (part : List Mark) : Bool := part.any fun (c, q) => !q && (c == '*' || c == '?' || c == '[')

/-- The text of a part in which nothing is wild. -/
def literalText (part : List Mark) : String :=
  String.ofList (((Pattern.ofMarks part).text?).getD (part.map (·.1)))

/-- The names in a directory that a part matches. A point at the front has to be written. -/
def matchingNames (t : FileTree) (directory : String) (part : List Mark) : List String :=
  let path := Session.pathOf (if directory.isEmpty then "." else directory)
  let showsHidden := part.head?.any (·.1 == '.')
  match t.names path with
  | .error _ => []
  | .ok names =>
    let all := names.map Text.spread ++ if showsHidden then [".", ".."] else []
    all.filter fun name =>
      (showsHidden || name.toList.head? != some '.') &&
        (Pattern.ofMarks part).accepts name.toList

/-- The paths that parts lead to from the beginning of a path. -/
def pathsFrom (t : FileTree) (front : String) : List (List Mark) → List String
  | [] => [front]
  | [last] =>
    if isWild last then (matchingNames t front last).map (front ++ ·)
    else
      let path := front ++ literalText last
      if (t.findItself (Session.pathOf path)).toOption.isSome then [path] else []
  | part :: rest =>
    if isWild part then
      (matchingNames t front part).flatMap fun name =>
        if t.isDirectory (Session.pathOf (front ++ name)) then pathsFrom t (front ++ name ++ "/") rest
        else []
    else pathsFrom t (front ++ literalText part ++ "/") rest

/-- The paths that a field matches in order, or the field itself. -/
def matchPaths (t : FileTree) (field : List Mark) : List String :=
  let own := String.ofList (field.map (·.1))
  if !isWild field then [own]
  else match (pathsFrom t "" (splitAtSlashes field)).mergeSort (· ≤ ·) with
    | [] => [own]
    | paths => paths

/-- What the text of a word is wanted for. -/
structure Expanding where
  /-- Whether it falls into fields. -/
  splits : Bool := false
  /-- Whether a home directory may follow a colon, too. -/
  isList : Bool := false

/-- The directory of a user. -/
def homeOf? (s : State) (user : List Char) : Option String :=
  if user.isEmpty then s.valueOf? "HOME"
  else if user == "root".toList then some "/root"
  else none

/-- A text after a tilde with the home directory that it starts with, if that is known. -/
def replaceTilde (s : State) (isList isLast : Bool) (cs : List Char) : Option (String × List Char) :=
  let ends (c : Char) : Bool := c == '/' || (isList && c == ':')
  let user := cs.takeWhile (!ends ·)
  let rest := cs.drop user.length
  if rest.isEmpty && !isLast then none
  else (homeOf? s user).map fun home => (home, rest)

/-- The pieces of a text with home directories in the place of tildes. -/
def tildesIn (s : State) (isList isLast : Bool) : Nat → Bool → List Char → List Piece
  | 0, _, cs => [.text false cs]
  | _, _, [] => []
  | n + 1, atStart, c :: cs =>
    if atStart && c == '~' then
      match replaceTilde s isList isLast cs with
      | some (home, rest) => .text true home.toList :: tildesIn s isList isLast n false rest
      | none => .text false [c] :: tildesIn s isList isLast n false cs
    else
      let front := (c :: cs).takeWhile fun d => !isList || d != ':'
      match (c :: cs).drop front.length with
      | [] => [.text false front]
      | colon :: rest => .text false (front ++ [colon]) :: tildesIn s isList isLast n true rest

/-- A word with home directories in the place of tildes. -/
def expandTildes (s : State) (isList : Bool) : Bool → Word → Word
  | _, [] => []
  | atStart, .text false cs :: rest =>
    tildesIn s isList rest.isEmpty (cs.length + 1) atStart cs ++
      expandTildes s isList (isList && cs.getLast? == some ':') rest
  | _, piece :: rest => piece :: expandTildes s isList false rest

/-- The characters that split fields. -/
def separatorsOf (s : State) : List Char := (s.valueOr "IFS" " \t\n").toList

def glyphsOf (isQuoted : Bool) (text : String) : List Glyph :=
  text.toList.map fun c => .char c isQuoted

/-- A value that takes part in the splitting unless it is quoted. -/
def valueSegment (isQuoted : Bool) (text : String) : Segment :=
  ⟨if isQuoted then .whole else .split, glyphsOf isQuoted text⟩

/-- The arguments as one text, with the first separator between them. -/
def joinedArguments (s : State) : String :=
  String.intercalate (String.ofList ((separatorsOf s).take 1)) s.arguments

/-- The value of a parameter as one text. -/
def textOfParameter (name : String) : ShellM (Option String) := do
  if name == "@" || name == "*" then return some (joinedArguments (← get))
  else parameterValue name

/-- What a parameter alone stands for. -/
def parameterSegments (x : Expanding) (isQuoted : Bool) (name : String) : ShellM (List Segment) := do
  let s ← get
  if x.splits && (name == "@" || (name == "*" && !isQuoted)) then
    if s.arguments.isEmpty then return []
    let glyphs := List.flatten ((s.arguments.map (glyphsOf isQuoted)).intersperse [.border])
    return [⟨if isQuoted then .arguments else .split, glyphs⟩]
  else
    match ← textOfParameter name with
    | some text => return [valueSegment isQuoted text]
    | none =>
      if s.options.contains 'u' then fail (name ++ ": parameter not set")
      return []

/-- Whether an operator takes a value for missing. -/
def isMissing (emptyCounts : Bool) (value : Option String) : Bool :=
  value.isNone || (emptyCounts && value == some "")

/-- The value of a variable in an expression. -/
def numberOf (name : String) : ShellM Int := do
  let text := ((← parameterValue name).getD "").toList
  match Arithmetic.ofText? text with
  | some n => return n
  | none => fail ("Illegal number: " ++ String.ofList text)

def calculate (expression : List Char) : ShellM Int := do
  let refuse {α : Type} (reason : String) : ShellM α :=
    fail ("arithmetic expression: " ++ reason ++ ": \"" ++ String.ofList expression ++ "\"")
  match Arithmetic.read expression with
  | .error reason => refuse reason
  | .ok e =>
    e.evaluate {
      value := numberOf
      assign := fun name n => assign name (toString n)
      divisionByZero := refuse "division by zero" }

def charsOfSegments (segments : List Segment) : List Char :=
  segments.flatMap fun segment => charsOf segment.glyphs

def marksOfSegments (segments : List Segment) : List Mark :=
  segments.flatMap fun segment => marksOf segment.glyphs

/-- Cuts what a pattern accepts from an end of a text. -/
def trimmed (operation : Operation) (pattern : Pattern) (text : String) : String :=
  let cs := text.toList
  match operation with
  | .trimStart longest => match pattern.beginning? longest cs with
    | some k => String.ofList (cs.drop k)
    | none => text
  | .trimEnd longest => match pattern.ending? longest cs with
    | some k => String.ofList (cs.take (cs.length - k))
    | none => text
  | _ => text

mutual

/-- The segments of a word. In an operand text without quotes is split as well. -/
def expandWord (e : Engine) (x : Expanding) (inOperand : Bool) : List Piece → ShellM (List Segment)
  | [] => return []
  | piece :: rest => do
    let front ← expandPiece e x inOperand piece
    return front ++ (← expandWord e x inOperand rest)

def expandPiece (e : Engine) (x : Expanding) (inOperand : Bool) : Piece → ShellM (List Segment)
  | .text isQuoted cs => do
    if isQuoted && cs.isEmpty then return [⟨.whole, [.quotes]⟩]
    let glyphs := cs.map fun c => Glyph.char c isQuoted
    return [⟨if inOperand && !isQuoted then .split else .whole, glyphs⟩]
  | .output isQuoted script => do
    let text ← captured e (e.run false script)
    return [valueSegment isQuoted text]
  | .value isQuoted expression => do
    let segments ← expandWord e {} false expression
    let n ← calculate (charsOfSegments segments)
    return [valueSegment isQuoted (toString n)]
  | .parameter isQuoted name operation operand => do
    let value ← textOfParameter name
    let demanded : ShellM String := do
      match value with
      | some text => return text
      | none =>
        if (← get).options.contains 'u' then fail (name ++ ": parameter not set")
        return ""
    match operation with
    | .invalid => fail "Bad substitution"
    | .value => parameterSegments x isQuoted name
    | .length => return [valueSegment isQuoted (toString (← demanded).length)]
    | .default emptyCounts =>
      if isMissing emptyCounts value then expandWord e x (!isQuoted) operand
      else parameterSegments x isQuoted name
    | .alternative emptyCounts =>
      if isMissing emptyCounts value then return []
      else expandWord e x (!isQuoted) operand
    | .assign emptyCounts =>
      if isMissing emptyCounts value then
        let text := String.ofList (charsOfSegments (← expandWord e {} false operand))
        if Text.isIdentifier name.toList then assign name text
        else fail (name ++ ": bad variable name")
      parameterSegments x isQuoted name
    | .demand emptyCounts =>
      if isMissing emptyCounts value then
        if operand.isEmpty then
          fail (name ++ ": parameter not set" ++ if emptyCounts then " or null" else "")
        let text := String.ofList (charsOfSegments (← expandWord e {} false operand))
        fail (name ++ ": " ++ text)
      else parameterSegments x isQuoted name
    | .trimStart _ | .trimEnd _ =>
      let text ← demanded
      let marks := marksOfSegments (← expandWord e {} false operand)
      return [valueSegment isQuoted (trimmed operation (Pattern.ofMarks marks) text)]

end

/-- The segments of a word with its tildes. -/
def segmentsOf (e : Engine) (x : Expanding) (w : Word) : ShellM (List Segment) := do
  expandWord e x false (expandTildes (← get) x.isList true w)

/-- The text of a word that does not fall into fields. -/
def expandText (e : Engine) (w : Word) (isList : Bool := false) : ShellM String := do
  return String.ofList (charsOfSegments (← segmentsOf e { isList } w))

/-- The text of a document. -/
def expandDocument (e : Engine) (w : Word) : ShellM String := do
  return String.ofList (charsOfSegments (← expandWord e {} false w))

/-- The pattern that a word writes. -/
def expandPattern (e : Engine) (w : Word) : ShellM Pattern := do
  return Pattern.ofMarks (marksOfSegments (← segmentsOf e {} w))

/-- The fields of a word. -/
def expandFields (e : Engine) (w : Word) : ShellM (List String) := do
  let segments ← segmentsOf e { splits := true } w
  let s ← get
  let fields := splitFields (separatorsOf s) segments
  if s.options.contains 'f' then return fields.map fun f => String.ofList (charsOf f)
  return fields.flatMap fun f => matchPaths s.session.tree (marksOf f)

end TestSynth.Shell
