import TestSynth.Model.Table
import TestSynth.Plan.StandIn
import TestSynth.Settings.Basic
/-!
How a test can get hold of an instance of each class, and which stand-ins that takes.
-/
namespace TestSynth

open Typing (bareType classify unqualified)

/-- Why no instance can be had. -/
inductive Infeasibility where
  | abstractClass
  | noPublicConstructor
  | tooManyParameters (count ceiling : Nat)
  | selfReferential
  | unresolvableDependency (typeName : String)
deriving DecidableEq, Repr, Inhabited

def Infeasibility.message : Infeasibility → String
  | .abstractClass => "abstract class"
  | .noPublicConstructor => "no public constructor"
  | .tooManyParameters count ceiling =>
    "constructor takes " ++ toString count ++ " parameters (ceiling " ++ toString ceiling ++ ")"
  | .selfReferential => "only copy/move constructors"
  | .unresolvableDependency typeName => "dependency " ++ typeName ++ " cannot be constructed"

/-- A constructor parameter that a stand-in takes. -/
structure Substitution where
  index : Nat
  dependency : String
  standIn : String
deriving DecidableEq, Repr, Inhabited

inductive Construction where
  | byDefault
  | byConstructor (constructor : Method) (substitutions : List Substitution)
  | byStandIn (name : String)
  | infeasible (reason : Infeasibility)
deriving DecidableEq, Repr, Inhabited

namespace Construction

def isFeasible : Construction → Bool
  | .infeasible _ => false
  | _ => true

def label : Construction → String
  | .byDefault => "default"
  | .byConstructor .. => "parameterized_constructor"
  | .byStandIn _ => "substitute"
  | .infeasible _ => "infeasible"

end Construction

structure Plan where
  model : ClassModel
  construction : Construction
deriving DecidableEq, Repr, Inhabited

/-- The plans of a table by qualified class name, and the stand-ins they rely on by name. -/
structure Plans where
  byClass : OrderedMap String Plan := .empty
  standIns : OrderedMap String StandIn := .empty
deriving DecidableEq, Repr, Inhabited

namespace Plans

/-- Which stand-in replaces a class, under its qualified name and, unless another class has taken
it, under its bare one. -/
def standInNames (p : Plans) : Synthesis.StandInNames :=
  p.standIns.values.foldl
    (fun names s => (names.insert s.base s.name).insertNew (unqualified s.base) s.name) .empty

def feasibleCount (p : Plans) : Nat := (p.byClass.values.filter (·.construction.isFeasible)).length

end Plans

/-- What planning goes by. -/
structure Planner where
  table : ModelTable
  ceiling : Nat
  substitutionClasses : List String
  maxOverrides : Nat
  root : Path
deriving DecidableEq, Repr, Inhabited

namespace Planner

def ofSettings (table : ModelTable) (s : SynthesisSettings) (root : Path) : Planner :=
  { table
    ceiling := s.constructorParamCeiling
    substitutionClasses := s.substitutionClasses
    maxOverrides := s.maxSubstituteOverrides
    root }

/-- Whether a test cannot simply make one. -/
def needsStandIn (c : ClassModel) : Bool := c.isAbstract || !c.hasPublicDefaultConstructor

def maySubstitute (p : Planner) (c : ClassModel) : Bool :=
  p.substitutionClasses.contains c.name || p.substitutionClasses.contains c.qualifiedName

def standInFor? (p : Planner) (c : ClassModel) : Option StandIn :=
  if p.maySubstitute c then StandIn.build? p.maxOverrides c (c.header.includePath p.root) else none

/-- What a constructor parameter asks for: nothing, a stand-in for a class of the table, or
something that cannot be had. A pointer without a stand-in is passed as null. -/
def dependency (p : Planner) (c : ClassModel) (parameter : Parameter) :
    Except Infeasibility (Option (ClassModel × StandIn)) :=
  let base := bareType parameter.declaredType
  if base == c.name || base == c.qualifiedName then .error .selfReferential
  else match p.table.findClass? base with
    | none => .ok none
    | some needed =>
      if !needsStandIn needed then .ok none
      else match p.standInFor? needed with
        | some standIn => .ok (some (needed, standIn))
        | none =>
          if classify parameter.declaredType == .pointer then .ok none
          else .error (.unresolvableDependency base)

/-- The dependencies of a parameter list, with their places; the first that cannot be had ends
it. -/
def dependencies (p : Planner) (c : ClassModel) :
    List (Parameter × Nat) → Except Infeasibility (List (Nat × ClassModel × StandIn))
  | [] => .ok []
  | (parameter, index) :: rest => do
    let found ← p.dependency c parameter
    let others ← p.dependencies c rest
    return (found.toList.map fun (needed, standIn) => (index, needed, standIn)) ++ others

/-- The public constructor with the fewest parameters, apart from copying and moving ones. -/
def chosenConstructor? (c : ClassModel) : Option Method :=
  StandIn.leastBy (·.parameters.length)
    (c.publicConstructors.filter (!·.isCopyOrMoveOf c.name))

/-- Construction through a declared constructor, with the stand-ins it takes. -/
def viaConstructor (p : Planner) (c : ClassModel) :
    Except Infeasibility (Construction × List StandIn) :=
  if c.publicConstructors.isEmpty then .error .noPublicConstructor
  else match chosenConstructor? c with
    | none => .error .selfReferential
    | some m =>
      if p.ceiling < m.parameters.length then
        .error (.tooManyParameters m.parameters.length p.ceiling)
      else do
        let found ← p.dependencies c m.parameters.zipIdx
        return (.byConstructor m (found.map fun (index, needed, standIn) =>
          ⟨index, needed.qualifiedName, standIn.name⟩), found.map (·.2.2))

/-- The construction of a class and the stand-ins it takes. -/
def construct (p : Planner) (c : ClassModel) : Construction × List StandIn :=
  if c.isAbstract then (.infeasible .abstractClass, [])
  else if c.hasPublicDefaultConstructor then (.byDefault, [])
  else match p.viaConstructor c with
    | .ok result => result
    | .error reason => match p.standInFor? c with
      | some standIn => (.byStandIn standIn.name, [standIn])
      | none => (.infeasible reason, [])

def plan (p : Planner) (c : ClassModel) : Plan := ⟨c, (p.construct c).1⟩

/-- Plans one class after others. -/
def planInto (p : Planner) (plans : Plans) (c : ClassModel) : Plans :=
  let (construction, standIns) := p.construct c
  { byClass := plans.byClass.insert c.qualifiedName ⟨c, construction⟩
    standIns := standIns.foldl (fun known s => known.insert s.name s) plans.standIns }

/-- Makes a stand-in known for a class that needs one, for methods that take such a dependency. -/
def registerStandIn (p : Planner) (known : OrderedMap String StandIn) (c : ClassModel) :
    OrderedMap String StandIn :=
  if needsStandIn c then
    match p.standInFor? c with
    | some standIn => known.insertNew standIn.name standIn
    | none => known
  else known

/-- The plans of every class of the table. -/
def planAll (p : Planner) : Plans :=
  let plans := p.table.models.foldl p.planInto {}
  { plans with standIns := p.table.models.foldl p.registerStandIn plans.standIns }

end Planner

end TestSynth
