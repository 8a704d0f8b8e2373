import TestSynth.Declaration.Basic
/-!
Block heads: the text in front of an opening brace, which says what the block is.
-/
namespace TestSynth.Header

open Text

/-- What stands after `word` at the front of the text. -/
def after? (word : String) (cs : List Char) : Option (List Char) :=
  if word.toList.isPrefixOf cs then some (cs.drop word.length) else none

/-- What stands after one blank at least. -/
def afterBlanks? (cs : List Char) : Option (List Char) :=
  if cs.head?.any isBlank then some (trimStart cs) else none

/-- The name a namespace head opens; an unnamed one opens the empty name. -/
def namespaceName? (head : List Char) : Option String :=
  let head := (((after? "inline" head).bind afterBlanks?)).getD head
  (after? "namespace" head).bind fun rest =>
    let name := trim rest
    if name.isEmpty then some ""
    else if rest.head?.any isBlank && name.head?.any isWordStart &&
        name.all (fun c => isWordAnywhere c || c == ':') then some (String.ofList name)
    else none

/-- A linkage head: the word and one literal. -/
def isLinkage (head : List Char) : Bool :=
  match after? "extern" head with
  | none => false
  | some rest => match trimStart rest with
    | '"' :: literal =>
      literal.getLast? == some '"' && !literal.dropLast.contains '"'
    | _ => false

structure ClassHead where
  isStruct : Bool
  name : String
  bases : NameSet
deriving DecidableEq, Repr

/-- A capital word that marks an exported class: a letter in front and something before the
ending. -/
def isExportWord (w : List Char) : Bool :=
  w.head?.any Char.isUpper && w.all (fun c => c.isUpper || c.isDigit || c == '_') &&
    ["_API", "EXPORT", "_DLL"].any fun ending =>
      ending.length < w.length && endsWith ending.toList w

/-- What stands after one export word or alignment at the front, with the blanks behind it. -/
def afterMarker? (cs : List Char) : Option (List Char) :=
  let w := cs.takeWhile (!isBlank ·)
  if isExportWord w then afterBlanks? (cs.drop w.length)
  else (after? "alignas" cs).bind fun rest => match trimStart rest with
    | '(' :: inside => match inside.dropWhile (· != ')') with
      | _ :: after => afterBlanks? after
      | [] => none
    | _ => none

/-- Words of a base list that belong to no base. -/
def isInheritanceWord (w : List Char) : Bool :=
  ["public", "protected", "private", "virtual"].contains (String.ofList w)

def baseNames (cs : List Char) : NameSet :=
  let names := (splitTopLevel ',' cs).map fun base =>
    Declaration.tidyType (joinWith [' '] ((words base).filter (!isInheritanceWord ·)))
  NameSet.ofList ((names.filter (!·.isEmpty)).map String.ofList)

/-- The bases named after a class name, with `final` allowed in between; none when anything else
follows. -/
def afterName? (cs : List Char) : Option NameSet :=
  let rest := trimStart cs
  let rest := match after? "final" rest with
    | some r => if r.head?.any isWordAnywhere then rest else trimStart r
    | none => rest
  match rest with
  | [] => some .empty
  | ':' :: list => some (baseNames (trimStart list))
  | _ => none

/-- The class named at the front of the text. -/
def named? (isStruct : Bool) (cs : List Char) : Option ClassHead :=
  if cs.head?.any isWordStart then
    let name := cs.takeWhile isWordAnywhere
    (afterName? (cs.drop name.length)).map (⟨isStruct, String.ofList name, ·⟩)
  else none

/-- Passes over as many markers as leave a class name behind them, at most `count`. -/
def afterMarkers? (isStruct : Bool) : Nat → List Char → Option ClassHead
  | 0, cs => named? isStruct cs
  | count + 1, cs =>
    ((afterMarker? cs).bind (afterMarkers? isStruct count)).orElse fun _ => named? isStruct cs

/-- The class a head defines. The text is at least as long as the markers in it. -/
def classHead? (head : List Char) : Option ClassHead :=
  let ofKeyword (keyword : String) (isStruct : Bool) : Option ClassHead :=
    ((after? keyword head).bind afterBlanks?).bind (afterMarkers? isStruct head.length)
  (ofKeyword "class" false).orElse fun _ => ofKeyword "struct" true

end TestSynth.Header
