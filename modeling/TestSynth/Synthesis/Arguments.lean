import TestSynth.Model.Basic
import TestSynth.OrderedMap
/-!
Arguments for a call: one expression per parameter and the declarations those expressions need.
A parameter that needs a local gets one named after its slot, so that locals never clash.
-/
namespace TestSynth

open Typing (bareType classify valueCategory unqualified Category)

/-- Which values a test passes. -/
inductive Flavour where
  | plain
  | edgeCase
  | boundary
deriving DecidableEq, Repr, Inhabited

namespace Flavour

def name : Flavour → String
  | .plain => "default"
  | .edgeCase => "edge_case"
  | .boundary => "boundary"

def ofName? (text : String) : Option Flavour :=
  [Flavour.plain, .edgeCase, .boundary].find? (·.name == text)

end Flavour

namespace Synthesis

/-- Stand-in type names by the class they replace, under its bare and its qualified name. -/
abbrev StandInNames := OrderedMap String String

/-- The stand-in for a type, looked up as it is spelt and then without its scope. -/
def standInFor? (names : StandInNames) (base : String) : Option String :=
  (names.find? base).orElse fun _ => names.find? (unqualified base)

structure Arguments where
  declarations : List String := []
  expressions : List String := []
  standIns : NameSet := {}
deriving DecidableEq, Repr, Inhabited

def Arguments.callList (a : Arguments) : String := String.intercalate ", " a.expressions

/-- Length of the text passed at the boundary. -/
def longTextLength : Nat := 256

def quote : String := "\""

def textLiteral : Flavour → String
  | .boundary => quote ++ String.ofList (List.replicate longTextLength 'x') ++ quote
  | _ => quote ++ quote

/-- Empty braces, which initialise with zero. -/
def braces : String := "\x7b\x7d"

/-- A value written in place. At the boundary, even parameters take the largest value and odd ones
the smallest. -/
def valueExpression (base : String) (category : Category) (flavour : Flavour) (index : Nat) :
    String :=
  let even := index % 2 == 0
  match category with
  | .integer => match flavour with
    | .boundary =>
      "std::numeric_limits<" ++ base ++ ">::" ++ (if even then "max" else "min") ++ "()"
    | _ => "0"
  | .floating => match flavour with
    | .boundary =>
      if base == "float" then if even then "1.0e30f" else "1.0e-30f"
      else if even then "1.0e300" else "1.0e-300"
    | _ => if base == "float" then "0.0f" else "0.0"
  | .boolean => if flavour == .edgeCase then "false" else "true"
  | .text => textLiteral flavour
  | .pointer => "nullptr"
  | _ => base ++ "()"

/-- The declaration of a local of the bare type. One that may be changed starts from zero unless
the plain flavour asks for a value. -/
def localDeclaration (base name : String) (flavour : Flavour) (index : Nat) (isConst : Bool) :
    String :=
  let qualifier := if isConst then "const " else ""
  let category := valueCategory base
  if category == .custom && flavour == .plain && !isConst then base ++ " " ++ name ++ ";"
  else if category == .custom || category == .void then
    qualifier ++ base ++ " " ++ name ++ braces ++ ";"
  else if flavour != .plain && !isConst then base ++ " " ++ name ++ braces ++ ";"
  else
    qualifier ++ base ++ " " ++ name ++ " = " ++ valueExpression base category flavour index ++ ";"

/-- What one parameter contributes: a declaration if it needs a local, its expression, and the
stand-in it uses. -/
structure Contribution where
  declaration : Option String := none
  expression : String
  standIn : Option String := none
deriving DecidableEq, Repr, Inhabited

/-- A local of a stand-in type, or else one declared for the flavour. -/
def viaLocal (standIn : Option String) (name : String) (otherwise : String) : Contribution :=
  match standIn with
  | some stub => ⟨some (stub ++ " " ++ name ++ ";"), name, some stub⟩
  | none => ⟨some otherwise, name, none⟩

def viaValue (standIn : Option String) (otherwise : String) : Contribution :=
  match standIn with
  | some stub => ⟨none, stub ++ "()", some stub⟩
  | none => ⟨none, otherwise, none⟩

/-- The contribution of the parameter at `index`, whose local would be numbered `slot`. -/
def contribution (names : StandInNames) (parameter : Parameter) (flavour : Flavour)
    (index slot : Nat) : Contribution :=
  let declared := Text.trimString parameter.declaredType
  let base := bareType declared
  let standIn := standInFor? names base
  match classify declared with
  | .pointer => match standIn with
    | some stub =>
      let name := "param" ++ toString slot
      ⟨some (stub ++ " " ++ name ++ ";"), "&" ++ name, some stub⟩
    | none => ⟨none, "nullptr", none⟩
  | .nonConstReference =>
    let name := "arg" ++ toString slot
    viaLocal standIn name (localDeclaration base name flavour index false)
  | .constReference =>
    let name := "param" ++ toString slot
    viaLocal standIn name (localDeclaration base name flavour index true)
  | .rvalueReference =>
    viaValue standIn (valueExpression base (valueCategory base) flavour index)
  | .text =>
    ⟨none, if declared.toList.contains '*' then textLiteral flavour
      else valueExpression base .text flavour index, none⟩
  | .custom => viaValue standIn (valueExpression base .custom flavour index)
  | category => ⟨none, valueExpression base category flavour index, none⟩

def Arguments.add (a : Arguments) (c : Contribution) : Arguments :=
  { declarations := a.declarations ++ c.declaration.toList
    expressions := a.expressions ++ [c.expression]
    standIns := c.standIn.toList.foldl NameSet.insert a.standIns }

/-- Arguments for a parameter list, with locals numbered from `firstSlot` so that two lists can
share a body. -/
def arguments (names : StandInNames) (parameters : List Parameter) (flavour : Flavour)
    (firstSlot : Nat) : Arguments :=
  parameters.zipIdx.foldl
    (fun a (p, index) => a.add (contribution names p flavour index (firstSlot + index))) {}

/-- The same, unless the number of a local would need more than 64 bits. -/
def arguments? (names : StandInNames) (parameters : List Parameter) (flavour : Flavour)
    (firstSlot : Nat) : Option Arguments :=
  if parameters.isEmpty || firstSlot + parameters.length ≤ UInt64.size then
    some (arguments names parameters flavour firstSlot)
  else none

end Synthesis

end TestSynth
