import TestSynth.Plan.Basic
import TestSynth.Settings.Basic
/-!
Which scenarios exist for a declaration, which of them are wanted, and tests for the declarations of
a table, from their plans. Each test of a scenario is rendered from a request; an allocator keeps
the names of a set of tests apart.
-/
namespace TestSynth

open Artifact (TranslationUnit callBody constructionBody safeName)
open Typing (decayedCategory unqualified)

/-- The kinds for a method of an object. -/
def instanceKinds (m : Method) : List ScenarioKind :=
  [.basicUsage, .multipleInvocations] ++
    (if m.parameters.isEmpty then [] else [.edgeCases]) ++
    (if (decayedCategory m.returnType).isNumeric then [.boundaryCheck] else []) ++
    (if m.returnsVoid then [] else [.consistency]) ++ [.noThrow]

/-- The kinds for what is called without an object. -/
def staticKinds (m : Method) : List ScenarioKind :=
  (if m.returnsVoid then [] else [.returnValue]) ++ [.noThrow, .multipleInvocations] ++
    (if m.returnsVoid then [] else [.consistentResults])

def constructorKinds (m : Method) : List ScenarioKind :=
  [.basicConstruction] ++ (if m.parameters.isEmpty then [.multipleInstances] else []) ++
    [.stackAllocation]

/-- The wanted scenarios. -/
structure Catalogue where
  /-- In the order of the kinds, each at most once. -/
  kinds : List ScenarioKind
  includeFreeFunctions : Bool
  useCompletion : Bool
  constructorParamCeiling : Nat
deriving DecidableEq, Repr, Inhabited

namespace Catalogue

def ofSettings (synthesis : SynthesisSettings) (completion : CompletionSettings) : Catalogue :=
  { kinds := ScenarioKind.all.filter fun kind =>
      if synthesis.scenarioKinds.isEmpty then kind != .generated
      else synthesis.scenarioKinds.contains kind
    includeFreeFunctions := synthesis.includeFreeFunctions
    useCompletion := completion.enabled
    constructorParamCeiling := synthesis.constructorParamCeiling }

/-- Bodies from the completion collaborator are always welcome. -/
def enables (c : Catalogue) (kind : ScenarioKind) : Bool :=
  kind == .generated || c.kinds.contains kind

def filter (c : Catalogue) (kinds : List ScenarioKind) : List ScenarioKind :=
  kinds.filter c.enables

end Catalogue

/-- What tests are made from. -/
structure Generator where
  table : ModelTable
  plans : Plans
  catalogue : Catalogue
  root : Path
deriving DecidableEq, Repr, Inhabited

/-- All that decides one test apart from the declaration. -/
structure Request where
  target : TargetRef
  kind : ScenarioKind
  flavour : Flavour
  id : String
  minimal : Bool := false
  originId : Option String := none
  generation : Nat := 0
  parentId : Option String := none
  iteration : Nat := 0
  notes : List String := []
deriving DecidableEq, Repr, Inhabited

def ScenarioKind.defaultFlavour : ScenarioKind → Flavour
  | .edgeCases => .edgeCase
  | .boundaryCheck => .boundary
  | _ => .plain

def Request.initial (target : TargetRef) (kind : ScenarioKind) (id : String) : Request :=
  { target, kind, flavour := kind.defaultFlavour, id }

/-- The parts of a test before they become one text. -/
structure Draft where
  className : String
  methodName : String
  header : String
  suite : String
  body : List String
  standIns : NameSet
deriving DecidableEq, Repr, Inhabited

/-- The declarations that bring an object about, and the stand-ins they use. -/
structure ObjectSetup where
  declarations : List String
  standIns : NameSet
deriving DecidableEq, Repr, Inhabited

/-- The first of the name, the name with `_2`, `_3` and so on that is not taken. One of the first
`used.length + 1` is free. -/
def freshId (used : List String) (id : String) : String :=
  if used.contains id then
    let candidates := (List.range (used.length + 1)).map fun k => id ++ "_" ++ toString (k + 2)
    (candidates.find? (!used.contains ·)).getD id
  else id

def TestArtifact.renamed (a : TestArtifact) (id : String) : TestArtifact :=
  if id == a.id then a
  else { a with
    id
    filePath := sourceFile id
    recipe := a.recipe.map fun r => { r with originId := id } }

/-- Gives each test a name that none before it in the list has. -/
def assignIds (used : List String) : List TestArtifact → List TestArtifact
  | [] => []
  | a :: rest =>
    let id := freshId used a.id
    a.renamed id :: assignIds (id :: used) rest

def memberId (c : ClassModel) (m : Method) (kind : ScenarioKind) : String :=
  safeName (c.qualifiedName ++ "_" ++ m.name ++ "_" ++ kind.name)

namespace Generator

def standInNames (g : Generator) : Synthesis.StandInNames := g.plans.standInNames

/-- The class of that qualified name, or else the first of that bare name. -/
def classNamed? (g : Generator) (name : String) : Option ClassModel :=
  (g.table.models.find? (·.qualifiedName == name)).orElse fun _ => g.table.findClass? name

def planOf? (g : Generator) (c : ClassModel) : Option Plan := g.plans.byClass.find? c.qualifiedName

/-- Whether the object under test would be a stand-in that overrides the method. -/
def isOverridden (g : Generator) (plan : Plan) (m : Method) : Bool :=
  match plan.construction with
  | .byStandIn name => (g.plans.standIns.find? name).any (·.overridden.contains m.name)
  | _ => false

/-- Whether a test may call the method. -/
def memberEligible (g : Generator) (c : ClassModel) (m : Method) (plan : Plan) : Bool :=
  m.access == .everyone && !m.flags.isConstructor && !m.flags.isDestructor &&
    !m.flags.isVariadic &&
    (m.flags.isStatic ||
      plan.construction.isFeasible && !g.isOverridden plan m &&
        (!c.hasNonPublicDestructor || plan.construction.label == "substitute"))

/-- Whether a test may call the constructor. -/
def constructorEligible (g : Generator) (c : ClassModel) (m : Method) : Bool :=
  m.flags.isConstructor && m.access == .everyone && !m.flags.isVariadic &&
    !m.isCopyOrMoveOf c.name && !c.isAbstract && !c.hasNonPublicDestructor &&
    m.parameters.length ≤ g.catalogue.constructorParamCeiling

/-- The wanted kinds for a method that is no constructor. -/
def memberKinds (g : Generator) (m : Method) : List ScenarioKind :=
  g.catalogue.filter (if m.flags.isStatic then staticKinds m else instanceKinds m)

def objectSetup? (g : Generator) (c : ClassModel) (plan : Plan) (firstSlot : Nat) :
    Option ObjectSetup :=
  match plan.construction with
  | .byDefault => some ⟨[c.qualifiedName ++ " obj" ++ Synthesis.braces ++ ";"], {}⟩
  | .byConstructor m _ =>
    let args := Synthesis.arguments g.standInNames m.parameters .plain firstSlot
    some ⟨args.declarations ++ [c.qualifiedName ++ " obj(" ++ args.callList ++ ");"],
      args.standIns⟩
  | .byStandIn name => some ⟨[name ++ " obj;"], .ofList [name]⟩
  | .infeasible _ => none

/-- The finished test of a draft. -/
def finish (g : Generator) (d : Draft) (r : Request) : TestArtifact :=
  let support := (d.standIns.members.filterMap g.plans.standIns.find?).map fun s =>
    (s.headerFile, s.headerText)
  let target := if d.className.isEmpty then d.methodName else d.className ++ "::" ++ d.methodName
  let unit : TranslationUnit :=
    { header := d.header
      standInHeaders := support.map (·.1)
      notes := ("covforge: " ++ target ++ " " ++ r.kind.name) :: r.notes
      suite := d.suite
      name := safeName (unqualified d.methodName ++ "_" ++ r.kind.name)
      body := d.body }
  { id := r.id
    className := d.className
    methodName := d.methodName
    kind := r.kind
    sourceText := unit.render
    filePath := sourceFile r.id
    generation := r.generation
    parentId := r.parentId
    iteration := r.iteration
    supportFiles := support
    recipe := some ⟨r.target, r.flavour, r.minimal, r.originId.getD r.id⟩ }

/-- The body that calls a method, and the stand-ins of its object. -/
def memberCall? (g : Generator) (c : ClassModel) (m : Method) (plan : Option Plan)
    (args : Synthesis.Arguments) (kind : ScenarioKind) : Option (List String × NameSet) :=
  let category := decayedCategory m.returnType
  let comparable := category.isComparable && (m.flags.isConst || m.flags.isStatic)
  let call (expression : String) : List String :=
    args.declarations ++ callBody kind expression category comparable
  if m.flags.isStatic then
    some (call (c.qualifiedName ++ "::" ++ m.name ++ "(" ++ args.callList ++ ")"), {})
  else do
    let plan ← plan.orElse fun _ => g.planOf? c
    let setup ← g.objectSetup? c plan m.parameters.length
    return (setup.declarations ++ call ("obj." ++ m.name ++ "(" ++ args.callList ++ ")"),
      setup.standIns)

/-- The test of a request for the member at `index`; without a plan given, the known one of the
class counts. -/
def renderMember? (g : Generator) (c : ClassModel) (index : Nat) (plan : Option Plan)
    (r : Request) : Option TestArtifact := do
  let m ← c.methods[index]?
  let args := Synthesis.arguments g.standInNames m.parameters r.flavour 0
  let (body, standIns) ←
    if m.flags.isConstructor then
      some (args.declarations ++ constructionBody r.kind c.qualifiedName args.callList, {})
    else g.memberCall? c m plan args r.kind
  return g.finish
    { className := c.qualifiedName
      methodName := m.name
      header := c.header.includePath g.root
      suite := safeName c.qualifiedName
      body
      standIns := args.standIns.union standIns } r

/-- The test of a request for the function at `index` of the table. -/
def renderFunction? (g : Generator) (index : Nat) (r : Request) : Option TestArtifact := do
  let f ← g.table.functions[index]?
  let args := Synthesis.arguments g.standInNames f.signature.parameters r.flavour 0
  let category := decayedCategory f.signature.returnType
  return g.finish
    { className := ""
      methodName := f.qualifiedName
      header := f.header.includePath g.root
      suite := if f.scope.isEmpty then "FreeFunctions" else safeName f.scope
      body := args.declarations ++ callBody r.kind
        (f.qualifiedName ++ "(" ++ args.callList ++ ")") category category.isComparable
      standIns := args.standIns } r

/-- Tests that construct. -/
def forConstructor (g : Generator) (c : ClassModel) (m : Method) : List TestArtifact :=
  match c.methods.idxOf? m with
  | none => []
  | some index =>
    if g.constructorEligible c m then
      (g.catalogue.filter (constructorKinds m)).filterMap fun kind =>
        g.renderMember? c index none (.initial (.member index) kind (memberId c m kind))
    else []

/-- Tests for one method of a class under a plan. -/
def forMember (g : Generator) (c : ClassModel) (m : Method) (plan : Plan) : List TestArtifact :=
  match c.methods.idxOf? m with
  | none => []
  | some index =>
    if m.flags.isConstructor then g.forConstructor c m
    else if g.memberEligible c m plan then
      (g.memberKinds m).filterMap fun kind =>
        g.renderMember? c index (some plan) (.initial (.member index) kind (memberId c m kind))
    else []

/-- Tests for one function outside classes. -/
def forFunction (g : Generator) (f : FreeFunction) : List TestArtifact :=
  match g.table.functions.findIdx? (·.sameAs f) with
  | none => []
  | some index =>
    if f.signature.flags.isVariadic then []
    else (g.catalogue.filter (staticKinds f.signature)).filterMap fun kind =>
      g.renderFunction? index
        (.initial (.freeFunction index) kind (safeName (f.qualifiedName ++ "_" ++ kind.name)))

def forClass (g : Generator) (c : ClassModel) : List TestArtifact :=
  match g.planOf? c with
  | none => []
  | some plan => c.methods.flatMap fun m => g.forMember c m plan

/-- The first set of tests: classes in table order, then functions. -/
def forTable (g : Generator) : List TestArtifact :=
  assignIds [] (g.table.models.flatMap g.forClass ++
    if g.catalogue.includeFreeFunctions then g.table.functions.flatMap g.forFunction else [])

end Generator

end TestSynth
