import TestSynth.Project.Analysis
import TestSynth.Proofs.Scenario.Kinds
import TestSynth.Proofs.Scenario.Ladder
/-!
What a table is owed. Each declaration that tests may call has a role, and each role its scenarios,
of which those are played that fit the signature. The first tests for a table are these and no
others.
-/
namespace TestSynth

open Typing (decayedCategory)

/-- The generator for a table, with its plans, as settings want it. -/
def Generator.ofSettings (table : ModelTable) (synthesis : SynthesisSettings)
    (completion : CompletionSettings) (root : Path) : Generator :=
  { table
    plans := (Planner.ofSettings table synthesis root).planAll
    catalogue := .ofSettings synthesis completion
    root }

/-- Projects are analysed with such generators. -/
theorem Analysis.generator_prepare (s : Settings) (files : FileTree) : (prepare s files).generator =
    .ofSettings (prepare s files).table s.synthesis s.completion s.primaryRoot := rfl

/-- What a declaration is to tests: called of an object, called on its own, or made an object
with. -/
inductive Role where
  | ofObject
  | alone
  | making
deriving DecidableEq

namespace Role

def all : List Role := [.ofObject, .alone, .making]

/-- The scenarios of the role, in the order of their tests. -/
def kinds : Role → List ScenarioKind
  | .ofObject =>
    [.basicUsage, .multipleInvocations, .edgeCases, .boundaryCheck, .consistency, .noThrow]
  | .alone => [.returnValue, .noThrow, .multipleInvocations, .consistentResults]
  | .making => [.basicConstruction, .multipleInstances, .stackAllocation]

end Role

/-- Some scenarios ask for parameters, for none, for a number, or for any value at all. -/
def ScenarioKind.fits (m : Method) : ScenarioKind → Bool
  | .edgeCases => !m.parameters.isEmpty
  | .multipleInstances => m.parameters.isEmpty
  | .boundaryCheck => (decayedCategory m.returnType).isNumeric
  | .consistency | .returnValue | .consistentResults => !m.returnsVoid
  | .basicUsage | .multipleInvocations | .noThrow | .basicConstruction | .stackAllocation
  | .generated => true

namespace Generator

variable {g : Generator} {c : ClassModel} {m : Method} {plan : Plan} {index : Nat}

/-- A member that tests may call by its name. -/
structure Named (m : Method) : Prop where
  everyone : m.access = .everyone
  notConstructor : m.flags.isConstructor = false
  notDestructor : m.flags.isDestructor = false
  notVariadic : m.flags.isVariadic = false

/-- A member of the objects that the plan makes, which they do not override and which go away when
a test ends. -/
structure OfObject (g : Generator) (c : ClassModel) (plan : Plan) (m : Method) : Prop
    extends Named m where
  bound : m.flags.isStatic = false
  feasible : plan.construction.isFeasible
  kept : ∀ name, plan.construction = .byStandIn name →
    ∀ s, g.plans.standIns.find? name = some s → m.name ∉ s.overridden
  destructible : c.hasNonPublicDestructor = false ∨ ∃ name, plan.construction = .byStandIn name

/-- A member that takes no object. -/
structure Alone (m : Method) : Prop extends Named m where
  free : m.flags.isStatic

/-- A constructor that tests may call. -/
structure Making (g : Generator) (c : ClassModel) (m : Method) : Prop
    extends g.Constructs c m where
  constructs : m.flags.isConstructor
  everyone : m.access = .everyone
  notVariadic : m.flags.isVariadic = false

/-- Tests may call the member in that role. -/
def Eligible (g : Generator) (c : ClassModel) (plan : Plan) (m : Method) : Role → Prop
  | .ofObject => g.OfObject c plan m
  | .alone => Alone m
  | .making => g.Making c m

theorem label_eq_substitute_iff {k : Construction} :
    k.label = "substitute" ↔ ∃ name, k = .byStandIn name := by
  cases k <;> simp [Construction.label]

theorem ofObject_iff : g.OfObject c plan m ↔
    g.memberEligible c m plan ∧ m.flags.isStatic = false := by
  have hkept : g.isOverridden plan m = false ↔ ∀ name, plan.construction = .byStandIn name →
      ∀ s, g.plans.standIns.find? name = some s → m.name ∉ s.overridden := by
    unfold isOverridden
    cases plan.construction with
    | byStandIn name => cases hfound : g.plans.standIns.find? name <;> simp [hfound]
    | byDefault | byConstructor | infeasible => simp
  constructor
  · intro h
    refine ⟨?_, h.bound⟩
    have hdestructible := h.destructible.imp_right label_eq_substitute_iff.2
    simp [memberEligible, h.everyone, h.notConstructor, h.notDestructor, h.notVariadic, h.feasible,
      hkept.2 h.kept, hdestructible]
  · rintro ⟨h, hstatic⟩
    simp only [memberEligible, hstatic, Bool.and_eq_true, Bool.not_eq_true', beq_iff_eq,
      Bool.false_or, Bool.or_eq_true] at h
    obtain ⟨⟨⟨⟨heveryone, hconstructor⟩, hdestructor⟩, hvariadic⟩, ⟨hfeasible, hoverridden⟩,
      hdestructible⟩ := h
    exact ⟨⟨heveryone, hconstructor, hdestructor, hvariadic⟩, hstatic, hfeasible,
      hkept.1 hoverridden, hdestructible.imp_right label_eq_substitute_iff.1⟩

theorem alone_iff : Alone m ↔ g.memberEligible c m plan ∧ m.flags.isStatic := by
  constructor
  · intro h
    refine ⟨?_, h.free⟩
    simp [memberEligible, h.everyone, h.notConstructor, h.notDestructor, h.notVariadic, h.free]
  · rintro ⟨h, hstatic⟩
    simp only [memberEligible, hstatic, Bool.and_eq_true, Bool.not_eq_true', beq_iff_eq] at h
    obtain ⟨⟨⟨⟨heveryone, hconstructor⟩, hdestructor⟩, hvariadic⟩, -⟩ := h
    exact ⟨⟨heveryone, hconstructor, hdestructor, hvariadic⟩, hstatic⟩

theorem making_iff : g.Making c m ↔ g.constructorEligible c m := by
  simp only [constructorEligible, Bool.and_eq_true, Bool.not_eq_true', beq_iff_eq,
    decide_eq_true_eq]
  constructor
  · intro h
    exact ⟨⟨⟨⟨⟨⟨h.constructs, h.everyone⟩, h.notVariadic⟩, h.original⟩, h.concrete⟩,
      h.destructible⟩, h.short⟩
  · rintro ⟨⟨⟨⟨⟨⟨hconstructs, heveryone⟩, hvariadic⟩, horiginal⟩, hconcrete⟩, hdestructible⟩,
      hshort⟩
    exact ⟨⟨hconcrete, hdestructible, horiginal, hshort⟩, hconstructs, heveryone, hvariadic⟩

instance : DecidablePred (g.Eligible c plan m)
  | .ofObject => decidable_of_iff _ ofObject_iff.symm
  | .alone => decidable_of_iff (g.memberEligible c m plan ∧ m.flags.isStatic) alone_iff.symm
  | .making => decidable_of_iff _ making_iff.symm

end Generator

/-- A declaration that is to be tested, and its role. -/
structure Duty where
  className : String
  methodName : String
  target : TargetRef
  signature : Method
  role : Role

/-- What one test is for. -/
structure Task where
  className : String
  methodName : String
  target : TargetRef
  kind : ScenarioKind
deriving DecidableEq

namespace Duty

/-- The scenarios of the role that fit. -/
def kinds (d : Duty) : List ScenarioKind := d.role.kinds.filter (·.fits d.signature)

def tasks (d : Duty) : List Task :=
  d.kinds.map fun kind => ⟨d.className, d.methodName, d.target, kind⟩

end Duty

theorem FreeFunction.sameAs_refl (f : FreeFunction) : f.sameAs f := by
  simp [sameAs, SourceUnit.sameFile, Path.samePlace]

/-- Of the functions like one there is a first, and it has the same name. -/
theorem FreeFunction.exists_first {f : FreeFunction} {functions : List FreeFunction}
    (h : f ∈ functions) : ∃ first,
      functions.findIdx? (·.sameAs f) = some (functions.findIdx (·.sameAs f)) ∧
      functions[functions.findIdx (·.sameAs f)]? = some first ∧
      first.qualifiedName = f.qualifiedName := by
  have hindex : functions.findIdx? (·.sameAs f) = some (functions.findIdx (·.sameAs f)) :=
    List.findIdx?_eq_some_of_exists ⟨f, h, f.sameAs_refl⟩
  obtain ⟨hlength, hsame, -⟩ := List.findIdx?_eq_some_iff_getElem.1 hindex
  refine ⟨_, hindex, List.getElem?_eq_getElem hlength, ?_⟩
  rw [sameAs, Bool.and_eq_true, Bool.and_eq_true, beq_iff_eq, beq_iff_eq] at hsame
  rw [qualifiedName, qualifiedName, hsame.1.1, hsame.1.2]

def TestArtifact.task? (a : TestArtifact) : Option Task :=
  a.recipe.map fun r => ⟨a.className, a.methodName, r.target, a.kind⟩

/-- Other names change nothing about what tests are for. -/
theorem TestArtifact.task?_renamed (a : TestArtifact) (id : String) :
    (a.renamed id).task? = a.task? := by
  unfold renamed
  split
  · rfl
  · rw [task?, task?, Option.map_map]
    rfl

theorem map_task?_assignIds (used : List String) (tests : List TestArtifact) :
    (assignIds used tests).map (·.task?) = tests.map (·.task?) := by
  induction tests generalizing used with
  | nil => rfl
  | cons a rest ih => rw [assignIds, List.map_cons, List.map_cons, a.task?_renamed, ih]

namespace Generator

/-- The duties towards a member, which is known by the first one like it. -/
def memberDuties (g : Generator) (c : ClassModel) (plan : Plan) (m : Method) : List Duty :=
  (Role.all.filter (g.Eligible c plan m ·)).map fun role =>
    { className := c.qualifiedName
      methodName := m.name
      target := .member (c.methods.idxOf m)
      signature := m
      role }

/-- The duties towards a class, by the known plan of that name. -/
def classDuties (g : Generator) (c : ClassModel) : List Duty :=
  (g.planOf? c).toList.flatMap fun plan => c.methods.flatMap (g.memberDuties c plan)

/-- The duties towards a function, which is known by the first one like it. -/
def functionDuties (g : Generator) (f : FreeFunction) : List Duty :=
  if f.signature.flags.isVariadic then []
  else
    [{ className := ""
       methodName := f.qualifiedName
       target := .freeFunction (g.table.functions.findIdx (·.sameAs f))
       signature := f.signature
       role := .alone }]

/-- The duties towards a table: those towards its classes, then towards its functions if they are
wanted. -/
def duties (g : Generator) : List Duty :=
  g.table.models.flatMap g.classDuties ++
    if g.catalogue.includeFreeFunctions then g.table.functions.flatMap g.functionDuties else []

section Catalogue
variable {m : Method}

theorem instanceKinds_eq (m : Method) :
    instanceKinds m = Role.ofObject.kinds.filter (·.fits m) := by
  cases hparameters : m.parameters.isEmpty <;>
  cases hnumeric : (decayedCategory m.returnType).isNumeric <;>
  cases hvoid : m.returnsVoid <;>
    simp [instanceKinds, Role.kinds, ScenarioKind.fits, hparameters, hnumeric, hvoid]

theorem staticKinds_eq (m : Method) : staticKinds m = Role.alone.kinds.filter (·.fits m) := by
  cases hvoid : m.returnsVoid <;>
    simp [staticKinds, Role.kinds, ScenarioKind.fits, hvoid]

theorem constructorKinds_eq (m : Method) :
    constructorKinds m = Role.making.kinds.filter (·.fits m) := by
  cases hparameters : m.parameters.isEmpty <;>
    simp [constructorKinds, Role.kinds, ScenarioKind.fits, hparameters]

theorem memberKinds_eq (g : Generator) (m : Method) : g.memberKinds m = g.catalogue.filter
    ((if m.flags.isStatic then Role.alone else .ofObject).kinds.filter (·.fits m)) := by
  rw [memberKinds, instanceKinds_eq, staticKinds_eq]
  split <;> rfl

/-- Settings that name no kind want every kind. -/
theorem enables_ofSettings {synthesis : SynthesisSettings} (h : synthesis.scenarioKinds = [])
    (completion : CompletionSettings) (kind : ScenarioKind) :
    (Catalogue.ofSettings synthesis completion).enables kind := by
  unfold Catalogue.enables Catalogue.ofSettings
  rw [h]
  cases kind <;> rfl

/-- A catalogue of every kind leaves nothing out. -/
theorem filter_of_enables {c : Catalogue} (h : ∀ kind, c.enables kind)
    (kinds : List ScenarioKind) : c.filter kinds = kinds :=
  List.filter_eq_self.2 fun kind _ => h kind

end Catalogue

section Members
variable {g : Generator} {c : ClassModel} {m : Method} {plan : Plan} {index : Nat}

theorem roles_constructor (h : m.flags.isConstructor) : Role.all.filter (g.Eligible c plan m ·) =
    if g.constructorEligible c m then [.making] else [] := by
  have hnamed : ¬Named m := fun hnamed => absurd (h.symm.trans hnamed.notConstructor) (by decide)
  have hofObject : ¬g.Eligible c plan m .ofObject := fun hm => hnamed hm.toNamed
  have halone : ¬g.Eligible c plan m .alone := fun hm => hnamed hm.toNamed
  have hmaking : g.Eligible c plan m .making ↔ g.constructorEligible c m := making_iff
  simp [Role.all, List.filter_cons, hofObject, halone, hmaking]

theorem roles_member (h : m.flags.isConstructor = false) :
    Role.all.filter (g.Eligible c plan m ·) =
      if g.memberEligible c m plan then [if m.flags.isStatic then .alone else .ofObject]
      else [] := by
  have hmaking : ¬g.Eligible c plan m .making := fun hm =>
    absurd (hm.constructs.symm.trans h) (by decide)
  have hofObject : g.Eligible c plan m .ofObject ↔
      g.memberEligible c m plan ∧ m.flags.isStatic = false := ofObject_iff
  have halone : g.Eligible c plan m .alone ↔ g.memberEligible c m plan ∧ m.flags.isStatic :=
    alone_iff
  cases heligible : g.memberEligible c m plan <;> cases hstatic : m.flags.isStatic <;>
    simp [Role.all, hmaking, hofObject, halone, heligible, hstatic]

/-- The known plan of a class counts whether it is given or not. -/
theorem renderMember?_given (h : g.planOf? c = some plan) (q : Request) :
    g.renderMember? c index (some plan) q = g.renderMember? c index none q := by
  have hcall : ∀ m args kind,
      g.memberCall? c m (some plan) args kind = g.memberCall? c m none args kind := by
    intro m args kind
    rw [memberCall?, memberCall?, h]
    rfl
  simp only [renderMember?, hcall]

/-- Every scenario of a member that can be called is rendered. -/
theorem map_task?_renderMember (hm : c.methods[index]? = some m) (h : g.Callable c m)
    (kinds : List ScenarioKind) :
    (kinds.filterMap fun kind => g.renderMember? c index none
      (.initial (.member index) kind (memberId c m kind))).map (·.task?) =
      kinds.map fun kind => some ⟨c.qualifiedName, m.name, .member index, kind⟩ := by
  rw [List.map_filterMap, ← List.filterMap_eq_map]
  refine List.filterMap_congr fun kind _ => ?_
  obtain ⟨a, ha⟩ :=
    exists_renderMember? hm h (.initial (.member index) kind (memberId c m kind))
  obtain ⟨d, m', rfl, hm', hclassName, hmethodName⟩ := renderMember?_eq_some ha
  obtain rfl := Option.some.inj (hm.symm.trans hm')
  rw [ha, Option.map_some, ← hclassName, ← hmethodName]
  rfl

theorem idxOf?_of_mem (h : m ∈ c.methods) : c.methods.idxOf? m = some (c.methods.idxOf m) := by
  obtain ⟨index, hindex⟩ := Option.isSome_iff_exists.1 (List.isSome_idxOf?.2 h)
  rw [List.idxOf_eq_getD_idxOf?, hindex, Option.getD_some]

/-- The tests for a member are those that it is owed. -/
theorem map_task?_forMember (hall : ∀ kind, g.catalogue.enables kind)
    (hplan : g.planOf? c = some plan) (hmem : m ∈ c.methods) :
    (g.forMember c m plan).map (·.task?) =
      ((g.memberDuties c plan m).flatMap (·.tasks)).map some := by
  have hm : c.methods[c.methods.idxOf m]? = some m := List.getElem?_idxOf hmem
  unfold forMember memberDuties
  rw [idxOf?_of_mem hmem]
  dsimp only
  cases hconstructor : m.flags.isConstructor with
  | true =>
    rw [if_pos rfl, roles_constructor hconstructor, forConstructor, idxOf?_of_mem hmem]
    dsimp only
    split
    · next heligible =>
      rw [filter_of_enables hall, constructorKinds_eq,
        map_task?_renderMember hm (callable_of_constructorEligible heligible)]
      simp [Duty.tasks, Duty.kinds]
    · rfl
  | false =>
    rw [if_neg Bool.false_ne_true, roles_member hconstructor]
    split
    · next heligible =>
      have hcallable := callable_of_memberEligible hplan heligible
      simp only [renderMember?_given hplan]
      rw [memberKinds_eq, filter_of_enables hall, map_task?_renderMember hm hcallable]
      simp [Duty.tasks, Duty.kinds]
    · rfl

/-- The tests for a class are those that it is owed. -/
theorem map_task?_forClass (hall : ∀ kind, g.catalogue.enables kind) (c : ClassModel) :
    (g.forClass c).map (·.task?) = ((g.classDuties c).flatMap (·.tasks)).map some := by
  unfold forClass classDuties
  cases hplan : g.planOf? c with
  | none => rfl
  | some plan =>
    simp only [Option.toList_some, List.flatMap_singleton, List.flatMap_assoc, List.map_flatMap]
    refine List.flatMap_congr fun m hmem => ?_
    rw [map_task?_forMember hall hplan hmem, List.map_flatMap]

end Members

section Functions
variable {g : Generator} {f : FreeFunction}

/-- The tests for a function are those that it is owed. -/
theorem map_task?_forFunction (hall : ∀ kind, g.catalogue.enables kind)
    (hmem : f ∈ g.table.functions) : (g.forFunction f).map (·.task?) =
      ((g.functionDuties f).flatMap (·.tasks)).map some := by
  obtain ⟨first, hindex, hfound, hname⟩ := FreeFunction.exists_first hmem
  unfold forFunction functionDuties
  rw [hindex]
  dsimp only
  split
  · rfl
  · rw [filter_of_enables hall, staticKinds_eq, List.flatMap_singleton, Duty.tasks, List.map_map,
      List.map_filterMap, ← List.filterMap_eq_map]
    refine List.filterMap_congr fun kind _ => ?_
    obtain ⟨a, ha⟩ := exists_renderFunction? hfound (.initial (.freeFunction _) kind
      (Artifact.safeName (f.qualifiedName ++ "_" ++ kind.name)))
    obtain ⟨d, f', rfl, hf', hclassName, hmethodName⟩ := renderFunction?_eq_some ha
    obtain rfl := Option.some.inj (hfound.symm.trans hf')
    rw [ha, Option.map_some, Function.comp_apply, Function.comp_apply, ← hname, ← hclassName,
      ← hmethodName]
    rfl

end Functions

section Whole
variable {g : Generator}

/-- The tests for a table are those that it is owed, one after the other. -/
theorem map_task?_forTable (hall : ∀ kind, g.catalogue.enables kind) :
    g.forTable.map (·.task?) = (g.duties.flatMap (·.tasks)).map some := by
  have hclasses : (g.table.models.flatMap g.forClass).map (·.task?) =
      ((g.table.models.flatMap g.classDuties).flatMap (·.tasks)).map some := by
    rw [List.map_flatMap, List.flatMap_assoc, List.map_flatMap]
    exact List.flatMap_congr fun c _ => map_task?_forClass hall c
  have hfunctions : (g.table.functions.flatMap g.forFunction).map (·.task?) =
      ((g.table.functions.flatMap g.functionDuties).flatMap (·.tasks)).map some := by
    rw [List.map_flatMap, List.flatMap_assoc, List.map_flatMap]
    exact List.flatMap_congr fun f hf => map_task?_forFunction hall hf
  rw [forTable_eq, map_task?_assignIds, drafts, List.map_append, hclasses, duties, List.flatMap_append,
    List.map_append]
  split
  · rw [hfunctions]
  · rfl

/-- A class that tests can make and get rid of, with something to call, is owed a test of that. -/
theorem exists_duty {c : ClassModel} {plan : Plan} {m : Method} (hc : c ∈ g.table.models)
    (hplan : g.planOf? c = some plan) (hfeasible : plan.construction.isFeasible)
    (hitself : ∀ name, plan.construction ≠ .byStandIn name)
    (hdestructible : c.hasNonPublicDestructor = false) (hm : m ∈ c.publicMethods)
    (hvariadic : m.flags.isVariadic = false) :
    ∃ d ∈ g.duties, d.className = c.qualifiedName ∧ d.methodName = m.name ∧
      ScenarioKind.noThrow ∈ d.kinds := by
  obtain ⟨hmem, hpublic⟩ := List.mem_filter.1 hm
  rw [Bool.and_eq_true, Bool.and_eq_true, beq_iff_eq, Bool.not_eq_true', Bool.not_eq_true']
    at hpublic
  have hnamed : Named m := ⟨hpublic.1.1, hpublic.1.2, hpublic.2, hvariadic⟩
  -- That nothing is thrown can be tested whatever the signature.
  have hrole : ∃ role, g.Eligible c plan m role ∧ .noThrow ∈ role.kinds := by
    cases hstatic : m.flags.isStatic with
    | true => exact ⟨.alone, ⟨hnamed, hstatic⟩, by decide⟩
    | false =>
      refine ⟨.ofObject, ⟨hnamed, hstatic, hfeasible, ?_, .inl hdestructible⟩, by decide⟩
      exact fun name hname => absurd hname (hitself name)
  obtain ⟨role, heligible, hkind⟩ := hrole
  have hall : role ∈ Role.all := by cases role <;> decide
  refine ⟨⟨c.qualifiedName, m.name, .member (c.methods.idxOf m), m, role⟩, ?_, rfl, rfl,
    List.mem_filter.2 ⟨hkind, rfl⟩⟩
  refine List.mem_append_left _ (List.mem_flatMap.2 ⟨c, hc, ?_⟩)
  refine List.mem_flatMap.2 ⟨plan, by simp [hplan], List.mem_flatMap.2 ⟨m, hmem, ?_⟩⟩
  exact List.mem_map.2 ⟨role, List.mem_filter.2 ⟨hall, decide_eq_true heligible⟩, rfl⟩

/-- Every class of the table has a plan under its name. -/
theorem exists_planOf? {table : ModelTable} {c : ClassModel} (hc : c ∈ table.models)
    (synthesis : SynthesisSettings) (completion : CompletionSettings) (root : Path) :
    ∃ plan, (ofSettings table synthesis completion root).planOf? c = some plan := by
  obtain ⟨d, -, hfound, -⟩ := exists_find?_of_mem (q := fun d => d.qualifiedName = c.qualifiedName)
    (List.mem_reverse.2 hc) (by simp)
  have hplan := (Planner.ofSettings table synthesis root).find?_byClass c.qualifiedName
  exact ⟨_, hplan.trans (congrArg _ hfound)⟩

/-- Where settings name no kind, the tests for a table are all that it is owed and nothing else, in
the order of its declarations: as many as there are scenarios for them, and at least one for every
class that can be made as it is, goes away and has something to call. -/
theorem forTable_complete (table : ModelTable) (synthesis : SynthesisSettings)
    (completion : CompletionSettings) (root : Path) (h : synthesis.scenarioKinds = []) :
    let g := ofSettings table synthesis completion root
    g.forTable.map (·.task?) = (g.duties.flatMap (·.tasks)).map some ∧
    g.forTable.length = (g.duties.map (·.kinds.length)).sum ∧
    ∀ c ∈ table.models, ∃ plan, g.planOf? c = some plan ∧
      (c.isAbstract = false → plan.construction.isFeasible →
        (∀ name, plan.construction ≠ .byStandIn name) → c.hasNonPublicDestructor = false →
        ∀ m ∈ c.publicMethods, m.flags.isVariadic = false →
          ∃ a ∈ g.forTable, a.className = c.qualifiedName ∧ a.methodName = m.name) := by
  intro g
  have htasks := map_task?_forTable (g := g) (enables_ofSettings h completion)
  refine ⟨htasks, ?_, fun c hc => ?_⟩
  · have hlength := congrArg List.length htasks
    rw [List.length_map, List.length_map, List.length_flatMap] at hlength
    simpa only [Duty.tasks, List.length_map] using hlength
  · obtain ⟨plan, hplan⟩ := exists_planOf? hc synthesis completion root
    refine ⟨plan, hplan, fun _ hfeasible hitself hdestructible m hm hvariadic => ?_⟩
    obtain ⟨d, hd, hclassName, hmethodName, hkind⟩ :=
      exists_duty (g := g) hc hplan hfeasible hitself hdestructible hm hvariadic
    have htask : some (⟨d.className, d.methodName, d.target, .noThrow⟩ : Task) ∈
        g.forTable.map (·.task?) := by
      rw [htasks]
      exact List.mem_map_of_mem (List.mem_flatMap.2 ⟨d, hd, List.mem_map_of_mem hkind⟩)
    obtain ⟨a, ha, htask⟩ := List.mem_map.1 htask
    obtain ⟨r, -, hr⟩ := Option.map_eq_some_iff.1 htask
    obtain ⟨hclass, hmethod, -⟩ := Task.mk.inj hr
    exact ⟨a, ha, hclass.trans hclassName, hmethod.trans hmethodName⟩

/-- The tests for a class with a constructor and a method that returns a number. -/
theorem forTable_complete_gauge :
    ({} : SynthesisSettings).scenarioKinds = [] ∧
      (ofSettings gauge.table {} {} ⟨"/p"⟩).forTable.map (·.task?) =
        ([⟨"Gauge", "Gauge", .member 0, .basicConstruction⟩,
          ⟨"Gauge", "Gauge", .member 0, .stackAllocation⟩,
          ⟨"Gauge", "at", .member 1, .basicUsage⟩,
          ⟨"Gauge", "at", .member 1, .multipleInvocations⟩,
          ⟨"Gauge", "at", .member 1, .boundaryCheck⟩,
          ⟨"Gauge", "at", .member 1, .consistency⟩,
          ⟨"Gauge", "at", .member 1, .noThrow⟩] : List Task).map some := by
  refine ⟨rfl, (forTable_complete gauge.table {} {} ⟨"/p"⟩ rfl).1.trans ?_⟩
  decide +kernel

end Whole

end Generator

end TestSynth
