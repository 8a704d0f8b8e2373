import TestSynth.Declaration.Parameter
/-!
One declaration: a method or function, a deleted function, a variable, or nothing that matters
here.
-/
namespace TestSynth

inductive Declaration where
  | method (m : Method)
  | deleted (isConstructor : Bool)
  | variable (declaredType name : String)
  | skip
deriving DecidableEq, Repr, Inhabited

namespace Declaration

open Text

/-- First words of what is never modelled. -/
def skippedWords : List String :=
  ["friend", "using", "typedef", "template", "static_assert", "class", "struct", "enum", "union",
    "namespace", "return", "public", "protected", "private"]

/-- Words before a type that do not belong to it. -/
def modifiers : List String :=
  ["virtual", "static", "inline", "explicit", "constexpr", "consteval", "extern", "mutable"]

/-- Removes bracketed attributes from the left while both ends are there. The text shortens with
each, so its length bounds their number. -/
def stripAttributes (cs : List Char) : List Char :=
  go cs.length cs
where
  go : Nat → List Char → List Char
    | 0, cs => cs
    | n + 1, cs => match cutAt ['[', '['] cs with
      | none => cs
      | some (before, after) => match cutAt [']', ']'] after with
        | none => cs
        | some (_, rest) => go n (before ++ ' ' :: rest)

/-- A capital word that marks exported symbols. -/
def isExportMacro (token : List Char) : Bool :=
  3 < byteLength token && token.all (fun c => c.isUpper || c.isDigit || c == '_') &&
    (endsWith "_API".toList token || endsWith "EXPORT".toList token || endsWith "_DLL".toList token)

def isModifier (token : List Char) : Bool :=
  modifiers.contains (String.ofList token) || isExportMacro token

/-- What follows the parameter list. -/
structure Suffix where
  isConst : Bool := false
  isOverride : Bool := false
  isPure : Bool := false
  isDeleted : Bool := false
  trailingReturn : Option (List Char) := none
deriving DecidableEq, Repr, Inhabited

/-- Words that end a trailing return type. -/
def endsReturnType (token : List Char) : Bool :=
  ["override", "final", "noexcept"].contains (String.ofList token)

/-- Reads a suffix. A member initialiser list is cut off first, then what follows the last `=`,
then a trailing return type. -/
def parseSuffix (cs : List Char) : Suffix :=
  let text := beforeColon none (trim cs)
  let (text, value) := match cutAtLast ['='] text with
    | some (before, after) => (before, trim after)
    | none => (text, [])
  let (text, tail) := match cutAt ['-', '>'] text with
    | some (before, after) => (before, some (words after))
    | none => (text, none)
  let ts := tokens text
  { isConst := ts.contains "const".toList
    isOverride :=
      ts.contains "override".toList || (tail.getD []).contains "override".toList
    isPure := value == ['0']
    isDeleted := value == "delete".toList
    trailingReturn := tail.map fun ws =>
      tidyType (joinWith [' '] (ws.takeWhile (!endsReturnType ·))) }

/-- A variable: its type and name stand before any initialiser, width or second declarator. -/
def parseVariable (cs : List Char) : Declaration :=
  let text := match cutAtAssign 0 none cs with
    | some (before, _) => before
    | none => cs
  let first := (splitTopLevel ',' (beforeColon none text)).headD []
  let ts := (words first).filter (!isModifier ·)
  if ts.length < 2 && !first.any Typing.isDeclarator then .skip
  else
    let spec := splitTypeAndName (joinWith [' '] ts)
    if spec.name.isEmpty || spec.declaredType.isEmpty then .skip
    else .variable spec.declaredType spec.name

/-- The characters of a possibly qualified name, a destructor's included. -/
def isNamePart (c : Char) : Bool := isWord c || c == ':' || c == '~'

/-- The name a qualified one declares in `owner`. Outside classes only a plain name declares. -/
def declaredName? (owner : Option String) (qualified : List Char) : Option (List Char) :=
  match cutAtLast [':', ':'] qualified with
  | none => some qualified
  | some (_, last) => if owner.isSome then some last else none

/-- Whether a function of that name and return type is a constructor or a destructor of `owner`;
none when it can be no function at all. -/
def specialKind? (owner : Option String) (name returnType : List Char) : Option (Bool × Bool) :=
  let ordinary :=
    if returnType.isEmpty || name.head? == some '~' then none else some (false, false)
  match owner with
  | none => ordinary
  | some className =>
    if name == className.toList then if returnType.isEmpty then some (true, false) else none
    else if name.head? == some '~' then
      if name.tail == className.toList then some (false, true) else none
    else ordinary

/-- A function whose parts have been told apart: what stands before the parameter list, the list,
and what follows it. -/
def parseFunction (owner : Option String) (access : Access)
    (before parameters after : List Char) : Declaration :=
  let before := trimEnd before
  let qualified := takeEndWhile isNamePart before
  if qualified.isEmpty then .skip
  else if (trimStart parameters).head?.any fun c => c == '*' || c == '&' || c == '^' then .skip
  else match declaredName? owner qualified with
    | none => .skip
    | some name =>
      if !isIdentifier (name.dropWhile (· == '~')) then .skip
      else
        let leading := words (dropEndWhile isNamePart before)
        let suffix := parseSuffix after
        let name' := String.ofList name
        if suffix.isDeleted then .deleted (owner == some name')
        else
          let plain := tidyType (joinWith [' '] (leading.filter (!isModifier ·)))
          let returnType := match suffix.trailingReturn with
            | some trailing =>
              if plain == "auto".toList || plain.isEmpty then trailing else plain
            | none => plain
          match specialKind? owner name returnType with
          | none => .skip
          | some (isConstructor, isDestructor) => match parseParameters? parameters with
            | none => .skip
            | some (parameters, isVariadic) =>
              .method
                { name := name'
                  returnType := String.ofList returnType
                  parameters
                  access
                  flags :=
                    { isConst := suffix.isConst
                      isStatic := leading.contains "static".toList
                      isVirtual := leading.contains "virtual".toList || suffix.isOverride ||
                        suffix.isPure
                      isPureVirtual := suffix.isPure
                      isConstructor
                      isDestructor
                      isVariadic } }

/-- Classifies one declaration, without the semicolon that ends it. `owner` is the class around
it, if any. -/
def parse (owner : Option String) (access : Access) (raw : List Char) : Declaration :=
  let text := trim (stripAttributes (normalizeSpaces raw))
  let text := trim (text.dropWhile fun c => c == ',' || c == ':')
  if text.isEmpty || skippedWords.contains (String.ofList (text.takeWhile isWord)) then .skip
  else match cutAtParen 0 none text with
    | none => parseVariable text
    | some (before, rest) =>
      if (tokens before).contains "operator".toList then .skip
      else if (cutAtAssign 0 none before).isSome then parseVariable text
      else match splitGroup '(' ')' 0 rest with
        | none => .skip
        | some (parameters, after) => parseFunction owner access before parameters after

end Declaration

end TestSynth
