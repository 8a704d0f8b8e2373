import TestSynth.Artifact.Basic
import TestSynth.Artifact.TranslationUnit
/-!
Stand-in types: a subtype with a default constructor and empty overrides, whose only job is to
exist where a dependency is needed.
-/
namespace TestSynth

open Typing (bareType classify valueCategory)
open Artifact (leftBrace rightBrace safeName lineBlock)

structure StandIn where
  name : String
  /-- The qualified name of the class it replaces. -/
  base : String
  headerFile : String
  headerText : String
  /-- Names of the methods it overrides. -/
  overridden : List String
deriving DecidableEq, Repr, Inhabited

namespace StandIn

/-- A value to pass to the base class. A reference that may be changed needs an object that
outlives the call. -/
def zeroValue (declared : String) : String :=
  let base := bareType declared
  let ofValue := match valueCategory base with
    | .integer => "0"
    | .floating => "0.0"
    | .boolean => "false"
    | .text => "\"\""
    | _ => base ++ "()"
  match classify declared with
  | .pointer => "nullptr"
  | .text => if declared.toList.contains '*' then "\"\"" else ofValue
  | .nonConstReference => "*new " ++ base ++ leftBrace ++ rightBrace
  | _ => ofValue

def zeroReturn (returned : String) : String :=
  match classify returned with
  | .void => ""
  | .pointer => "return nullptr;"
  | .nonConstReference | .constReference | .rvalueReference =>
    "static " ++ bareType returned ++ " value" ++ leftBrace ++ rightBrace ++ "; return value;"
  | .boolean => "return false;"
  | .integer | .floating => "return 0;"
  | _ => "return " ++ leftBrace ++ rightBrace ++ ";"

def overrideDefinition (m : Method) : String :=
  let returned := Text.trimString m.returnType
  returned ++ " " ++ m.name ++ "(" ++
    String.intercalate ", " (m.parameters.map (·.declaredType)) ++ ")" ++
    (if m.flags.isConst then " const" else "") ++ " override " ++ leftBrace ++ " " ++
    zeroReturn returned ++ " " ++ rightBrace

/-- The first element with the least measure. -/
def leastBy {α : Type} (measure : α → Nat) : List α → Option α
  | [] => none
  | x :: xs => match leastBy measure xs with
    | none => some x
    | some y => if measure x ≤ measure y then some x else some y

def requiredParameters (m : Method) : List Parameter := m.parameters.filter (!·.hasDefault)

def pureMethods (c : ClassModel) : List Method := c.methods.filter (·.flags.isPureVirtual)

/-- Methods worth overriding once the pure ones are. -/
def isOptionalOverride (m : Method) : Bool :=
  m.flags.isVirtual && !m.flags.isPureVirtual && !m.flags.isDestructor && !m.flags.isVariadic &&
    m.access == .everyone

/-- The constructor a subtype calls: the one that requires the fewest arguments of those it may
use. -/
def baseConstructor? (c : ClassModel) : Option Method :=
  leastBy (fun m => (requiredParameters m).length)
    (c.constructors.filter fun m => m.access != .owner && !m.isCopyOrMoveOf c.name)

/-- The text of the header that defines a stand-in. -/
def headerLines (name base headerInclude : String) (constructor : Option Method)
    (overrides : List Method) : List String :=
  let guard := "COVFORGE_" ++ String.ofList (name.toList.map Char.toUpper) ++ "_H"
  let constructorLine := match constructor with
    | some m =>
      "    " ++ name ++ "() : " ++ base ++ "(" ++
        String.intercalate ", " ((requiredParameters m).map fun p => zeroValue p.declaredType) ++
        ") " ++ leftBrace ++ rightBrace
    | none => "    " ++ name ++ "() = default;"
  ["#ifndef " ++ guard, "#define " ++ guard, "", "#include <string>",
    "#include \"" ++ headerInclude ++ "\"", "",
    "class " ++ name ++ " : public " ++ base ++ " " ++ leftBrace, "public:", constructorLine] ++
  overrides.map (fun m => "    " ++ overrideDefinition m) ++
  [rightBrace ++ ";", "", "#endif  // " ++ guard]

/-- The type name of a stand-in for a class. -/
def typeName (c : ClassModel) : String := "Stub" ++ safeName c.qualifiedName

/-- A stand-in for a class; none when it has no constructor a subtype may call, or when its pure
methods cannot all be overridden within the budget. -/
def build? (maxOverrides : Nat) (c : ClassModel) (headerInclude : String) : Option StandIn :=
  let pureOnes := pureMethods c
  if maxOverrides < pureOnes.length || pureOnes.any (·.flags.isVariadic) then none
  else
    let optional := c.methods.filter isOptionalOverride
    let overrides := pureOnes ++ optional.take (maxOverrides - pureOnes.length)
    let withConstructor (constructor : Option Method) : StandIn :=
      { name := typeName c
        base := c.qualifiedName
        headerFile := "stub_" ++ safeName c.qualifiedName ++ ".h"
        headerText :=
          lineBlock (headerLines (typeName c) c.qualifiedName headerInclude constructor overrides)
        overridden := overrides.map (·.name) }
    if c.declaredConstructors == 0 then some (withConstructor none)
    else (baseConstructor? c).map fun m => withConstructor (some m)

end StandIn

end TestSynth
