import TestSynth.Header.ClassBody
import TestSynth.Model.Table
import TestSynth.Text.Masking
/-!
The declarations of a header. The text at one level of braces is a sequence of statements and
blocks; namespaces and linkage blocks are looked into, class bodies become models, and anything
else that ends like a parameter list is a function with a body.
-/
namespace TestSynth.Header

open Text

/-- What a header holds at namespace level, with the namespace around it. -/
inductive Item where
  | classBody (scope : String) (head : ClassHead) (body : List Char)
  | statement (scope : String) (text : List Char)
deriving DecidableEq, Repr

def joinScopes (outer inner : String) : String :=
  if inner.isEmpty then outer else if outer.isEmpty then inner else outer ++ "::" ++ inner

def isMark (c : Char) : Bool := c == ';' || c == '{' || c == '}'

/-- What a block is, by its head. -/
inductive BlockKind where
  | scope (name : String)
  | linkage
  | definition (head : ClassHead)
  | function
  | other
deriving DecidableEq, Repr

def blockKind (head : List Char) : BlockKind :=
  match namespaceName? head with
  | some name => .scope name
  | none =>
    if isLinkage head then .linkage
    else match classHead? head with
      | some c => .definition c
      | none =>
        if endsWith [')'] head || containsText [')', ' '] head then .function else .other

/-- The items of a text in order. A brace that never closes ends the text; a closing one that was
never opened ends a statement. An empty class body declares nothing. -/
def items (scope : String) (cs : List Char) : List Item :=
  match _h : cs.dropWhile (!isMark ·) with
  | [] => []
  | mark :: after =>
    let statement := cs.takeWhile (!isMark ·)
    if mark == ';' then .statement scope statement :: items scope after
    else if mark == '{' then
      match _g : splitGroup '{' '}' 0 after with
      | none => []
      | some (inside, rest) =>
        (match blockKind (trim statement) with
          | .scope name => items (joinScopes scope name) inside
          | .linkage => items scope inside
          | .definition head =>
            if (trim inside).isEmpty then [] else [.classBody scope head inside]
          | .function => [.statement scope (trim statement)]
          | .other => []) ++ items scope rest
    else items scope after
termination_by cs.length
decreasing_by
  all_goals
    have hd := (List.dropWhile_suffix (!isMark ·) (l := cs)).length_le
    rw [_h] at hd
    simp only [List.length_cons] at hd
  · omega
  · have hg := splitGroup_length _g
    omega
  · have hg := splitGroup_length _g
    omega
  · have hg := splitGroup_length _g
    omega
  · omega

/-- How many functions outside classes a header may contribute. -/
structure Limits where
  functionsPerHeader : Nat := 20
  includeFunctions : Bool := true
deriving DecidableEq, Repr

/-- A name in capitals reads as a macro. -/
def isMacroName (name : String) : Bool :=
  1 < name.toList.length && name.toList.any Char.isAlpha &&
    name.toList.all fun c => c.isUpper || c.isDigit || c == '_'

/-- The function a statement declares, if it declares one. -/
def function? (header : SourceUnit) (scope : String) (statement : List Char) :
    Option FreeFunction :=
  let text := trim statement
  if !text.contains '(' then none
  else match Declaration.parse none .everyone text with
    | .method m =>
      if m.name == "main" || isMacroName m.name then none else some ⟨scope, m, header⟩
    | _ => none

def itemClass? (header : SourceUnit) : Item → Option ClassModel
  | .classBody scope head body => some (classModel head body scope header)
  | .statement .. => none

def itemFunction? (header : SourceUnit) : Item → Option FreeFunction
  | .classBody .. => none
  | .statement scope text => function? header scope text

/-- The table of the items of one header. -/
def ofItems (limits : Limits) (header : SourceUnit) (found : List Item) : ModelTable :=
  { (found.filterMap (itemClass? header)).foldl ModelTable.insert {} with
    functions :=
      if limits.includeFunctions then
        (found.filterMap (itemFunction? header)).take limits.functionsPerHeader
      else [] }

/-- The classes and functions that the text of a header declares. -/
def extract (limits : Limits) (header : SourceUnit) (text : String) : ModelTable :=
  ofItems limits header (items "" (sanitize text.toList))

end TestSynth.Header
