import Mathlib
import TestSynth.Header.Scan
import TestSynth.Proofs.Declaration.Functions
/-!
Headers as syntax trees: how they are written and what they declare.
-/
namespace TestSynth

/-- How a declaration is written, without the semicolon that ends it. -/
def Declaration.chars : Declaration → List Char
  | .method m => m.signature.toList
  | .variable declaredType name => declaredType.toList ++ ' ' :: name.toList
  | .deleted _ | .skip => []

namespace Header

open Text Declaration

/-- A member of the class `owner`. A method has another name than its class. -/
inductive Member (owner : Name) where
  | field (d : Declared)
  | constructor (parameters : List Declared)
  | destructor (parameters : List Declared)
  | method (isStatic isConst : Bool) (d : Declared) (parameters : List Declared)
      (other : d.name.text ≠ owner.text)

namespace Member

variable {owner : Name}

/-- What a member declares in a section of the given access. -/
@[simp] def declaration (access : Access) : Member owner → Declaration
  | .field d => .variable d.type.text d.name.text
  | .constructor ps =>
    .method
      { name := owner.text, returnType := "", parameters := ps.map Declared.parameter, access
        flags := { isConstructor := true } }
  | .destructor ps =>
    .method
      { name := "~" ++ owner.text, returnType := "", parameters := ps.map Declared.parameter, access
        flags := { isDestructor := true } }
  | .method isStatic isConst d ps _ => .method (d.function isStatic isConst access ps)

@[simp] def method? (access : Access) (m : Member owner) : Option Method :=
  match m.declaration access with
  | .method m => some m
  | _ => none

@[simp] def field? : Member owner → Option (String × String)
  | .field d => some (d.type.text, d.name.text)
  | _ => none

/-- The parameters of a constructor. -/
@[simp] def constructor? : Member owner → Option (List Declared)
  | .constructor ps => some ps
  | _ => none

@[simp] def isDestructor : Member owner → Bool
  | .destructor _ => true
  | _ => false

end Member

/-- The members behind one access label. -/
structure Section (owner : Name) where
  access : Access
  members : List (Member owner)

def Section.chars {owner : Name} (s : Section owner) : List Char :=
  s.members.flatMap fun m => ' ' :: (m.declaration s.access).chars ++ [';']

/-- A public base in the list of a class. -/
def baseChars (b : TypeSyntax .qualified) : List Char := "public ".toList ++ b.chars

def baseListChars : List (TypeSyntax .qualified) → List Char
  | [] => []
  | b :: bs => " : ".toList ++ joinWith [',', ' '] ((b :: bs).map baseChars)

/-- A class with public bases. Its body is not empty. -/
structure ClassSyntax where
  name : Name
  bases : List (TypeSyntax .qualified)
  sections : List (Section name)
  nonempty : sections ≠ []

namespace ClassSyntax

def headChars (c : ClassSyntax) : List Char :=
  "class ".toList ++ c.name.text.toList ++ baseListChars c.bases

/-- What the head declares. -/
def head (c : ClassSyntax) : ClassHead :=
  ⟨false, c.name.text, .ofList (c.bases.map TypeSyntax.text)⟩

def bodyChars (c : ClassSyntax) : List Char :=
  (c.sections.flatMap fun s => ' ' :: s.access.keyword.toList ++ ':' :: s.chars) ++ [' ']

def chars (c : ClassSyntax) : List Char :=
  c.headChars ++ ' ' :: '{' :: c.bodyChars ++ ['}', ';']

/-- The members in order, each with its access. -/
def members (c : ClassSyntax) : List (Access × Member c.name) :=
  c.sections.flatMap fun s => s.members.map (s.access, ·)

def constructors (c : ClassSyntax) : List (List Declared) :=
  c.members.filterMap fun (_, m) => m.constructor?

/-- What the class declares. A class without constructors has an implicit one. -/
def model (c : ClassSyntax) (scope : String) (header : SourceUnit) : ClassModel where
  name := c.name.text
  scope
  bases := .ofList (c.bases.map TypeSyntax.text)
  methods := c.members.filterMap fun (access, m) => m.method? access
  memberVariables := c.members.filterMap fun (_, m) => m.field?
  hasDefaultConstructor := c.constructors.isEmpty || c.constructors.any (·.isEmpty)
  isAbstract := false
  header
  isStruct := false
  hasNonPublicDestructor := c.members.any fun (access, m) => m.isDestructor && access != .everyone
  declaredConstructors := c.constructors.length

end ClassSyntax

/-- A function outside classes. Its name is neither that of a program nor of a macro. -/
structure FunctionSyntax where
  declared : Declared
  parameters : List Declared
  library : declared.name.text ≠ "main"
  ordinary : isMacroName declared.name.text = false

namespace FunctionSyntax

def method (f : FunctionSyntax) : Method := f.declared.function false false .everyone f.parameters

def chars (f : FunctionSyntax) : List Char := f.method.signature.toList ++ [';']

def model (f : FunctionSyntax) (scope : String) (header : SourceUnit) : FreeFunction :=
  ⟨scope, f.method, header⟩

end FunctionSyntax

inductive Entry where
  | definition (c : ClassSyntax)
  | function (f : FunctionSyntax)

namespace Entry

def chars : Entry → List Char
  | .definition c => c.chars
  | .function f => f.chars

def class? : Entry → Option ClassSyntax
  | .definition c => some c
  | .function _ => none

def function? : Entry → Option FunctionSyntax
  | .definition _ => none
  | .function f => some f

end Entry

/-- A header: classes of different names and functions, all in one namespace, which is the outermost
one when the path is empty. -/
structure HeaderSyntax where
  path : List Word
  entries : List Entry
  distinct : ((entries.filterMap Entry.class?).map (·.name.text)).Nodup

namespace HeaderSyntax

def scope (h : HeaderSyntax) : String := String.intercalate "::" (h.path.map Word.text)

def classes (h : HeaderSyntax) : List ClassSyntax := h.entries.filterMap Entry.class?

def functions (h : HeaderSyntax) : List FunctionSyntax := h.entries.filterMap Entry.function?

def bodyChars (h : HeaderSyntax) : List Char := h.entries.flatMap fun e => ' ' :: e.chars

def chars (h : HeaderSyntax) : List Char :=
  if h.path.isEmpty then h.bodyChars
  else "namespace ".toList ++ h.scope.toList ++ ' ' :: '{' :: h.bodyChars ++ [' ', '}']

end HeaderSyntax

end Header

end TestSynth
