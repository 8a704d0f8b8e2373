import TestSynth.NameSet
import TestSynth.Path
import TestSynth.Typing.Category
/-!
What a header declares: parameters, methods, classes and free functions, and the file they come
from.
-/
namespace TestSynth

/-- Who may use a member: everyone, derived classes, or the class alone. -/
inductive Access where
  | everyone
  | derived
  | owner
deriving DecidableEq, Repr, Inhabited

def Access.keyword : Access → String
  | .everyone => "public"
  | .derived => "protected"
  | .owner => "private"

def Access.ofKeyword? (word : String) : Option Access :=
  [Access.everyone, .derived, .owner].find? (·.keyword == word)

structure Parameter where
  declaredType : String
  name : String
  hasDefault : Bool := false
deriving DecidableEq, Repr, Inhabited

structure MethodFlags where
  isConst : Bool := false
  isStatic : Bool := false
  isVirtual : Bool := false
  isPureVirtual : Bool := false
  isConstructor : Bool := false
  isDestructor : Bool := false
  isVariadic : Bool := false
deriving DecidableEq, Repr, Inhabited

/-- The signature of a method, constructor, destructor or free function. Constructors and
destructors have no return type. -/
structure Method where
  name : String
  returnType : String
  parameters : List Parameter
  flags : MethodFlags
  access : Access
deriving DecidableEq, Repr, Inhabited

namespace Method

def callableWithoutArguments (m : Method) : Bool := m.parameters.all (·.hasDefault)

def returnsVoid (m : Method) : Bool :=
  let returned := Text.trimString m.returnType
  returned.isEmpty || returned == "void"

/-- A constructor whose first parameter refers to its own class and whose others can be left
out. -/
def isCopyOrMoveOf (m : Method) (className : String) : Bool :=
  match m.parameters with
  | [] => false
  | first :: _ =>
    m.flags.isConstructor && (m.parameters.filter (!·.hasDefault)).length ≤ 1 &&
      first.declaredType.toList.contains '&' && Typing.bareType first.declaredType == className

end Method

inductive SourceRole where
  | header
  | source
deriving DecidableEq, Repr, Inhabited

/-- A file of the project under test. -/
structure SourceUnit where
  path : Path
  role : SourceRole
deriving DecidableEq, Repr, Inhabited

namespace SourceUnit

def isHeader (u : SourceUnit) : Bool := u.role == .header

def stem (u : SourceUnit) : String := u.path.stem

/-- The path an include directive names: relative to `root` where the file lies below it. -/
def includePath (u : SourceUnit) (root : Path) : String :=
  let path := (u.path.relativeTo? root).getD u.path
  String.ofList (path.text.toList.map fun c => if c == '\\' then '/' else c)

/-- By place, headers before sources. -/
def order (u v : SourceUnit) : Ordering :=
  (u.path.order v.path).then (compare u.role.ctorIdx v.role.ctorIdx)

def sameFile (u v : SourceUnit) : Bool := u.path.samePlace v.path && u.role == v.role

end SourceUnit

/-- A name in the namespace that encloses it. -/
def qualify (scope name : String) : String :=
  if scope.isEmpty then name else scope ++ "::" ++ name

structure ClassModel where
  name : String
  scope : String
  bases : NameSet
  methods : List Method
  memberVariables : List (String × String)
  hasDefaultConstructor : Bool
  isAbstract : Bool
  header : SourceUnit
  isStruct : Bool
  hasNonPublicDestructor : Bool := false
  declaredConstructors : Nat := 0
deriving DecidableEq, Repr, Inhabited

namespace ClassModel

def qualifiedName (c : ClassModel) : String := qualify c.scope c.name

def constructors (c : ClassModel) : List Method := c.methods.filter (·.flags.isConstructor)

def publicConstructors (c : ClassModel) : List Method :=
  c.constructors.filter (·.access == .everyone)

/-- Public methods that neither construct nor destroy. -/
def publicMethods (c : ClassModel) : List Method :=
  c.methods.filter fun m =>
    m.access == .everyone && !m.flags.isConstructor && !m.flags.isDestructor

/-- A class without declared constructors has an implicit one. -/
def hasPublicDefaultConstructor (c : ClassModel) : Bool :=
  c.declaredConstructors == 0 || c.publicConstructors.any (·.callableWithoutArguments)

/-- Two definitions of one class as one; the first keeps its names and its header. -/
def merge (c other : ClassModel) : ClassModel :=
  { c with
    bases := c.bases.union other.bases
    methods := c.methods ++ other.methods
    memberVariables := c.memberVariables ++ other.memberVariables
    hasDefaultConstructor := c.hasDefaultConstructor || other.hasDefaultConstructor
    isAbstract := c.isAbstract || other.isAbstract
    isStruct := c.isStruct || other.isStruct
    hasNonPublicDestructor := c.hasNonPublicDestructor || other.hasNonPublicDestructor
    declaredConstructors := c.declaredConstructors + other.declaredConstructors }

end ClassModel

/-- A function declared outside classes. -/
structure FreeFunction where
  scope : String
  signature : Method
  header : SourceUnit
deriving DecidableEq, Repr, Inhabited

/-- The same declaration in the same file, however the paths to it are written. -/
def FreeFunction.sameAs (f g : FreeFunction) : Bool :=
  f.scope == g.scope && f.signature == g.signature && f.header.sameFile g.header

def FreeFunction.qualifiedName (f : FreeFunction) : String := qualify f.scope f.signature.name

end TestSynth
