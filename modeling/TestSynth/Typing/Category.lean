import TestSynth.Text.Classes
/-!
Kinds of types, read off the text of a declared type.
-/
namespace TestSynth.Typing

open Text

/-- What decides how a value of a type is made and compared. -/
inductive Category where
  | void
  | pointer
  | nonConstReference
  | constReference
  | rvalueReference
  | integer
  | floating
  | boolean
  | text
  | custom
deriving DecidableEq, Repr, Inhabited

/-- Words of a declared type that do not belong to its bare type. -/
def qualifiers : List String :=
  ["const", "volatile", "struct", "class", "enum", "typename", "mutable"]

def integerWords : List String :=
  ["int", "long", "short", "unsigned", "signed", "char", "wchar_t"]

def integerAliases : List String :=
  ["size_t", "ssize_t", "ptrdiff_t", "intptr_t", "uintptr_t", "intmax_t", "uintmax_t", "char8_t",
    "char16_t", "char32_t", "int8_t", "int16_t", "int32_t", "int64_t", "uint8_t", "uint16_t",
    "uint32_t", "uint64_t", "byte"]

def textTypes : List String :=
  ["std::string", "string", "std::string_view", "string_view", "std::wstring", "wstring",
    "std::u16string", "std::u32string"]

/-- Spellings of a pointer to constant characters, without blanks. -/
def characterPointers : List String :=
  ["constchar*", "charconst*", "constwchar_t*", "constchar*const"]

def isDeclarator (c : Char) : Bool := c == '*' || c == '&'

/-- The declared type without qualifiers, pointers and references. -/
def bareType (declared : String) : String :=
  let spaced := declared.toList.map fun c => if isDeclarator c then ' ' else c
  let kept := (words spaced).filter fun w => !qualifiers.contains (String.ofList w)
  String.ofList (joinWith [' '] kept)

/-- The part of a qualified name after its last `::`. -/
def unqualified (name : String) : String :=
  match cutAtLast [':', ':'] name.toList with
  | some (_, after) => String.ofList after
  | none => name

def isCharacterPointer (declared : String) : Bool :=
  characterPointers.contains (String.ofList (words declared.toList).flatten)

/-- The kind of a type without pointers and references. -/
def valueCategory (base : String) : Category :=
  let base := trimString base
  let last := unqualified base
  if base.isEmpty || base == "void" then .void
  else if base == "bool" then .boolean
  else if base == "float" || base == "double" || base == "long double" then .floating
  else if textTypes.contains base then .text
  else if integerAliases.contains last && (base == last || "std::".toList.isPrefixOf base.toList) then
    .integer
  else if (words base.toList).all fun w => integerWords.contains (String.ofList w) then .integer
  else .custom

/-- The kind of a declared type. A reference outranks a pointer. -/
def classify (declared : String) : Category :=
  let declared := trimString declared
  let cs := declared.toList
  if isCharacterPointer declared then .text
  else if endsWith ['&', '&'] cs then .rvalueReference
  else if endsWith ['&'] cs then
    if (tokens cs).any (· == "const".toList) then .constReference else .nonConstReference
  else if cs.contains '*' then .pointer
  else valueCategory (bareType declared)

/-- The kind seen through references: a reference to a number is compared like the number. -/
def decayedCategory (declared : String) : Category :=
  match classify declared with
  | .constReference | .nonConstReference | .rvalueReference =>
    let inner := dropEndWhile (· == '&') (trim declared.toList)
    if inner.contains '*' then .pointer else valueCategory (bareType (String.ofList inner))
  | category => category

/-- Whether a test may compare two values for equality. -/
def Category.isComparable : Category → Bool
  | .integer | .floating | .boolean | .text | .pointer => true
  | _ => false

def Category.isNumeric : Category → Bool
  | .integer | .floating => true
  | _ => false

def Category.name : Category → String
  | .void => "void"
  | .pointer => "pointer"
  | .nonConstReference => "non_const_reference"
  | .constReference => "const_reference"
  | .rvalueReference => "rvalue_reference"
  | .integer => "integer"
  | .floating => "floating"
  | .boolean => "boolean"
  | .text => "text"
  | .custom => "custom"

def Category.all : List Category :=
  [.void, .pointer, .nonConstReference, .constReference, .rvalueReference, .integer, .floating,
    .boolean, .text, .custom]

def Category.ofName? (name : String) : Option Category := all.find? (·.name == name)

end TestSynth.Typing
