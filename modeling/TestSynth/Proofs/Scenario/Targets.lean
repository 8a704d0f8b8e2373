import Mathlib
import TestSynth.Proofs.Header.WellFormed
import TestSynth.Proofs.Plan.References
import TestSynth.Proofs.Scenario.Lineage
/-!
What tests exercise. Whatever way a test came about, what it was made from leads to the declaration
that it is named after, and that declaration may be tested; a replacement is never checked for this,
and has it from the test that it replaces.
-/
namespace TestSynth

/-- A table that names its classes apart, and in which nothing both constructs and destroys. -/
structure ModelTable.Sound (t : ModelTable) : Prop where
  names : (t.models.map (·.qualifiedName)).Nodup
  kinds : ∀ c ∈ t.models, ∀ m ∈ c.methods, m.flags.isConstructor → m.flags.isDestructor = false

/-- All tables that are read from headers are such. -/
theorem ModelTable.sound_readHeaders (limits : Header.Limits)
    (headers : List (SourceUnit × String)) : (readHeaders limits headers).Sound where
  names := by
    rw [models, List.map_map]
    exact (wellFormed_readHeaders limits headers).nodup
  kinds := by
    have hclasses := List.forall_mem_map.2 (wellFormed_readHeaders limits headers).classes
    intro c hc m hm hconstructor
    have hwell := (hclasses c hc).methods m hm
    cases hdestructor : m.flags.isDestructor with
    | false => rfl
    | true =>
      have hname : c.name = "~" ++ c.name :=
        (hwell.constructor_iff.1 hconstructor).symm.trans (hwell.destructor_iff.1 hdestructor)
      have hlength := congrArg (·.toList.length) hname
      simp [String.toList_append] at hlength

namespace Generator

variable {g : Generator} {p : Planner} {c : ClassModel} {m : Method} {index : Nat}
  {q : Request} {a b : TestArtifact}

/-- The generator goes by the plans of a table. -/
structure Follows (g : Generator) (p : Planner) : Prop where
  table : g.table = p.table
  plans : g.plans = p.planAll
  sound : p.table.Sound

/-- The object that a test makes of a class has the method of that class: it can be made, goes away
when the test ends, and is no stand-in that overrides the method. -/
structure Calls (g : Generator) (c : ClassModel) (m : Method) (plan : Plan) : Prop where
  planned : g.plans.byClass.find? c.qualifiedName = some plan
  model : plan.model = c
  feasible : plan.construction.isFeasible
  concrete : c.isAbstract = false
  kept : ∀ name, plan.construction = .byStandIn name →
    ∃ s, g.plans.standIns.find? name = some s ∧ m.name ∉ s.overridden
  destructible : c.hasNonPublicDestructor = false ∨ ∃ name, plan.construction = .byStandIn name

/-- A constructor that a test may call. -/
structure Constructs (g : Generator) (c : ClassModel) (m : Method) : Prop where
  concrete : c.isAbstract = false
  destructible : c.hasNonPublicDestructor = false
  original : m.isCopyOrMoveOf c.name = false
  short : m.parameters.length ≤ g.catalogue.constructorParamCeiling

/-- A member that a test may call. -/
structure Admits (g : Generator) (c : ClassModel) (m : Method) : Prop where
  everyone : m.access = .everyone
  notDestructor : m.flags.isDestructor = false
  notVariadic : m.flags.isVariadic = false
  constructs : m.flags.isConstructor → g.Constructs c m
  calls : m.flags.isConstructor = false → m.flags.isStatic = false → ∃ plan, g.Calls c m plan

/-- What the test was made from leads to the declaration that it is named after, which a test may
call. -/
inductive Exercises (g : Generator) (a : TestArtifact) : Prop
  | member (r : Recipe) (index : Nat) (c : ClassModel) (m : Method)
      (hrecipe : a.recipe = some r) (htarget : r.target = .member index)
      (hmem : c ∈ g.table.models) (hclass : g.classNamed? a.className = some c)
      (hclassName : a.className = c.qualifiedName) (hmethod : c.methods[index]? = some m)
      (hmethodName : a.methodName = m.name) (hadmits : g.Admits c m)
  | function (r : Recipe) (index : Nat) (f : FreeFunction)
      (hrecipe : a.recipe = some r) (htarget : r.target = .freeFunction index)
      (hfunction : g.table.functions[index]? = some f)
      (hclassName : a.className = "") (hmethodName : a.methodName = f.qualifiedName)
      (hvariadic : f.signature.flags.isVariadic = false)

section Eligibility

/-- Classes are found by name in a table that names them apart. -/
theorem classNamed?_of_mem (hnames : (g.table.models.map (·.qualifiedName)).Nodup)
    (hc : c ∈ g.table.models) : g.classNamed? c.qualifiedName = some c := by
  have hfound : g.table.models.find? (·.qualifiedName == c.qualifiedName) = some c :=
    find?_of_nodup_map hnames hc
  rw [Generator.classNamed?, hfound]
  rfl

theorem mem_of_classNamed? {name : String} (h : g.classNamed? name = some c) :
    c ∈ g.table.models := by
  unfold Generator.classNamed? at h
  cases hfound : g.table.models.find? (·.qualifiedName == name) with
  | some d =>
    rw [hfound] at h
    cases h
    exact List.mem_of_find?_eq_some hfound
  | none =>
    rw [hfound] at h
    exact List.mem_of_find?_eq_some h

theorem Follows.classNamed? (h : g.Follows p) (hc : c ∈ g.table.models) :
    g.classNamed? c.qualifiedName = some c := by
  have hnames := h.sound.names
  rw [← h.table] at hnames
  exact classNamed?_of_mem hnames hc

theorem Follows.planOf? (h : g.Follows p) (hc : c ∈ g.table.models) :
    g.planOf? c = some (p.plan c) := by
  rw [h.table] at hc
  rw [Generator.planOf?, h.plans]
  exact Planner.find?_byClass_of_mem h.sound.names hc

theorem Follows.admits_constructor (h : g.Follows p) (hc : c ∈ g.table.models)
    (hm : m ∈ c.methods) (heligible : g.constructorEligible c m) : g.Admits c m := by
  simp only [constructorEligible, Bool.and_eq_true, Bool.not_eq_true', beq_iff_eq,
    decide_eq_true_eq] at heligible
  obtain ⟨⟨⟨⟨⟨⟨hconstructor, heveryone⟩, hvariadic⟩, horiginal⟩, hconcrete⟩, hdestructible⟩,
    hshort⟩ := heligible
  rw [h.table] at hc
  exact
    { everyone := heveryone
      notDestructor := h.sound.kinds c hc m hm hconstructor
      notVariadic := hvariadic
      constructs := fun _ => ⟨hconcrete, hdestructible, horiginal, hshort⟩
      calls := fun hnot => absurd (hconstructor.symm.trans hnot) (by decide) }

theorem Follows.admits_member (h : g.Follows p) (hc : c ∈ g.table.models) {plan : Plan}
    (hplan : g.planOf? c = some plan) (heligible : g.memberEligible c m plan) : g.Admits c m := by
  obtain rfl : plan = p.plan c := Option.some.inj (hplan.symm.trans (h.planOf? hc))
  simp only [memberEligible, Bool.and_eq_true, Bool.or_eq_true, Bool.not_eq_true', beq_iff_eq]
    at heligible
  obtain ⟨⟨⟨⟨heveryone, hconstructor⟩, hdestructor⟩, hvariadic⟩, hcall⟩ := heligible
  refine ⟨heveryone, hdestructor, hvariadic, fun hnot => ?_, fun _ hstatic => ⟨p.plan c, ?_⟩⟩
  · exact absurd (hnot.symm.trans hconstructor) (by decide)
  · obtain ⟨⟨hfeasible, hoverridden⟩, hdestructible⟩ :=
      hcall.resolve_left fun hnot => absurd (hnot.symm.trans hstatic) (by decide)
    constructor
    · exact hplan
    · rfl
    · exact hfeasible
    · exact Planner.concrete_of_isFeasible hfeasible
    · intro name hname
      obtain ⟨s, hs⟩ := Planner.find?_of_byStandIn (h.table ▸ hc) hname
      rw [← h.plans] at hs
      refine ⟨s, hs, ?_⟩
      simpa [isOverridden, hname, hs] using hoverridden
    · refine hdestructible.imp_right fun hlabel => ?_
      cases hconstruction : (p.plan c).construction with
      | byStandIn name => exact ⟨name, rfl⟩
      | byDefault | byConstructor | infeasible =>
        rw [hconstruction] at hlabel
        exact absurd hlabel (by simp [Construction.label])

end Eligibility

section Producers

theorem Follows.exercises_renderMember? (h : g.Follows p) (hc : c ∈ g.table.models)
    (hm : c.methods[index]? = some m) (hadmits : g.Admits c m) {plan : Option Plan}
    (hq : q.target = .member index) (hrender : g.renderMember? c index plan q = some a) :
    g.Exercises a := by
  obtain ⟨d, m', rfl, hm', hclassName, hmethodName⟩ := renderMember?_eq_some hrender
  obtain rfl := Option.some.inj (hm.symm.trans hm')
  refine .member _ index c m rfl hq hc ?_ hclassName hm hmethodName hadmits
  rw [finish, hclassName]
  exact h.classNamed? hc

theorem exercises_renderFunction? {f : FreeFunction} (hf : g.table.functions[index]? = some f)
    (hvariadic : f.signature.flags.isVariadic = false) (hq : q.target = .freeFunction index)
    (hrender : g.renderFunction? index q = some a) : g.Exercises a := by
  obtain ⟨d, f', rfl, hf', hclassName, hmethodName⟩ := renderFunction?_eq_some hrender
  obtain rfl := Option.some.inj (hf.symm.trans hf')
  exact .function _ index f rfl hq hf hclassName hmethodName hvariadic

theorem Follows.exercises_forMember (h : g.Follows p) (hc : c ∈ g.table.models) {plan : Plan}
    (hplan : g.planOf? c = some plan) (ha : a ∈ g.forMember c m plan) : g.Exercises a := by
  obtain ⟨_, _, _, hmethod, heligible, _, hrender⟩ := mem_forMember ha
  have hadmits : g.Admits c m := by
    rcases heligible with heligible | heligible
    · exact h.admits_constructor hc (List.mem_of_getElem? hmethod) heligible
    · exact h.admits_member hc hplan heligible
  exact h.exercises_renderMember? hc hmethod hadmits rfl hrender

theorem exercises_forFunction {f : FreeFunction} (ha : a ∈ g.forFunction f) : g.Exercises a := by
  obtain ⟨_, _, _, hf, hvariadic, hrender⟩ := mem_forFunction ha
  exact exercises_renderFunction? hf hvariadic rfl hrender

/-- Other names change nothing about what tests exercise. -/
theorem Exercises.renamed (h : g.Exercises a) (id : String) : g.Exercises (a.renamed id) := by
  unfold TestArtifact.renamed
  split
  · exact h
  · cases h with
    | member r index c m hrecipe htarget hmem hclass hclassName hmethod hmethodName hadmits =>
      exact .member { r with originId := id } index c m (by simp [hrecipe]) htarget hmem hclass
        hclassName hmethod hmethodName hadmits
    | function r index f hrecipe htarget hfunction hclassName hmethodName hvariadic =>
      exact .function { r with originId := id } index f (by simp [hrecipe]) htarget hfunction
        hclassName hmethodName hvariadic

theorem Follows.exercises_forTable (h : g.Follows p) (ha : a ∈ g.forTable) : g.Exercises a := by
  obtain ⟨b, used, rfl, ⟨c, hc, m, plan, hplan, hb⟩ | ⟨f, hb⟩⟩ := mem_forTable ha
  · exact (h.exercises_forMember hc hplan hb).renamed _
  · exact (exercises_forFunction hb).renamed _

theorem Follows.exercises_refineClass (h : g.Follows p) (hc : c ∈ g.table.models)
    {wanted : List (ScenarioKind × Flavour)} {iteration : Nat}
    (ha : a ∈ g.refineClass wanted iteration c) : g.Exercises a := by
  obtain ⟨_, _, _, _, _, hplan, hmethod, heligible, _, hrender⟩ := mem_refineClass ha
  exact h.exercises_renderMember? hc hmethod (h.admits_member hc hplan heligible) rfl hrender

theorem exercises_refineFunctions {wanted : List (ScenarioKind × Flavour)} {stems : List String}
    {iteration : Nat} (ha : a ∈ g.refineFunctions wanted stems iteration) : g.Exercises a := by
  obtain ⟨_, _, _, _, hf, hvariadic, _, hrender⟩ := mem_refineFunctions ha
  exact exercises_renderFunction? hf hvariadic rfl hrender

theorem mem_focusClasses {s : Snapshot} (hc : c ∈ g.focusClasses s) : c ∈ g.table.models := by
  unfold focusClasses at hc
  dsimp only at hc
  split at hc
  · exact hc
  · exact List.mem_of_mem_filter hc

theorem Follows.exercises_refine (h : g.Follows p) {s : Snapshot} {iteration : Nat}
    (ha : a ∈ (g.refine s iteration).artifacts) : g.Exercises a := by
  obtain ⟨b, used, rfl, ⟨c, hc, hb⟩ | hb⟩ := mem_refine ha
  · exact (h.exercises_refineClass (mem_focusClasses hc) hb).renamed _
  · exact (exercises_refineFunctions hb).renamed _

/-- What is offered for completion is a method that tests may call. -/
theorem mem_completionTargets {s : Snapshot} {limit : Nat} {t : CompletionTarget}
    (h : t ∈ g.completionTargets s limit) : ∃ plan m, t.model ∈ g.table.models ∧
      g.planOf? t.model = some plan ∧ t.method? = some m ∧
      g.memberEligible t.model m plan = true := by
  obtain ⟨c, hc, h⟩ := List.mem_flatMap.1 (List.mem_of_mem_take h)
  split at h
  · cases h
  · next plan hplan =>
    obtain ⟨⟨m, index⟩, hm, h⟩ := List.mem_filterMap.1 h
    dsimp only at h
    split at h
    · next heligible =>
      cases h
      exact ⟨plan, m, mem_focusClasses hc, hplan, List.mem_zipIdx_iff_getElem?.1 hm, heligible⟩
    · cases h

theorem Follows.exercises_artifact? (h : g.Follows p) {s : Snapshot} {limit iteration : Nat}
    {t : CompletionTarget} (ht : t ∈ g.completionTargets s limit) {body : String}
    (ha : t.artifact? body iteration = some a) : g.Exercises a := by
  obtain ⟨plan, m, hc, hplan, hm, heligible⟩ := mem_completionTargets ht
  obtain ⟨m', hm', rfl⟩ := Option.map_eq_some_iff.1 ha
  obtain rfl := Option.some.inj (hm.symm.trans hm')
  exact .member _ t.methodIndex t.model m rfl rfl hc (h.classNamed? hc) rfl hm rfl
    (h.admits_member hc hplan heligible)

/-- A replacement is made for the declaration of the test that it replaces, and nothing else is
asked of it. -/
theorem Follows.exercises_regenerate? (h : g.Follows p) (ha : g.Exercises a)
    {diagnostics : String} {attempt : Nat} (hb : g.regenerate? a diagnostics attempt = some b) :
    g.Exercises b := by
  obtain ⟨-, r, rung, hr, -, hb⟩ := regenerate?_eq_some_iff.1 hb
  cases ha with
  | member r' index c m hrecipe htarget hmem hclass hclassName hmethod hmethodName hadmits =>
    obtain rfl := Option.some.inj (hr.symm.trans hrecipe)
    cases hb with
    | member index' c' htarget' hclass' hrender =>
      obtain rfl := TargetRef.member.inj (htarget.symm.trans htarget')
      obtain rfl := Option.some.inj (hclass.symm.trans hclass')
      exact h.exercises_renderMember? hmem hmethod hadmits htarget' hrender
    | function index' htarget' => cases htarget.symm.trans htarget'
  | function r' index f hrecipe htarget hfunction hclassName hmethodName hvariadic =>
    obtain rfl := Option.some.inj (hr.symm.trans hrecipe)
    cases hb with
    | member index' c' htarget' => cases htarget.symm.trans htarget'
    | function index' htarget' hrender =>
      obtain rfl := TargetRef.freeFunction.inj (htarget.symm.trans htarget')
      exact exercises_renderFunction? hfunction hvariadic htarget' hrender

end Producers

/-- The tests that a generator brings about. -/
inductive Emits (g : Generator) : TestArtifact → Prop
  | first {a : TestArtifact} (h : a ∈ g.forTable) : Emits g a
  | refined {a : TestArtifact} (s : Snapshot) (iteration : Nat)
      (h : a ∈ (g.refine s iteration).artifacts) : Emits g a
  | completed {a : TestArtifact} (s : Snapshot) (limit : Nat) (t : CompletionTarget) (body : String)
      (iteration : Nat) (ht : t ∈ g.completionTargets s limit)
      (h : t.artifact? body iteration = some a) : Emits g a
  | regenerated {a b : TestArtifact} (ha : Emits g a) (diagnostics : String) (attempt : Nat)
      (h : g.regenerate? a diagnostics attempt = some b) : Emits g b

/-- Every test exercises a declaration that tests may call, however it came about; and all tables
that are read from headers are such that this holds. -/
theorem emits_exercises :
    (∀ limits headers, (ModelTable.readHeaders limits headers).Sound) ∧
      ∀ (g : Generator) (p : Planner), g.Follows p → ∀ a, g.Emits a → g.Exercises a := by
  refine ⟨ModelTable.sound_readHeaders, fun g p h a ha => ?_⟩
  induction ha with
  | first ha => exact h.exercises_forTable ha
  | refined s iteration ha => exact h.exercises_refine ha
  | completed s limit t body iteration ht ha => exact h.exercises_artifact? ht ha
  | regenerated _ diagnostics attempt hb ih => exact h.exercises_regenerate? ih hb

/-- A class with a constructor, and a generator for it. -/
def gauge : Planner :=
  .ofSettings (ModelTable.readHeaders {} [(⟨⟨"/p/gauge.h"⟩, .header⟩,
    "struct Gauge \x7b explicit Gauge(int least); int at() const; \x7d;\n")]) {} ⟨"/p"⟩

def gaugeTests : Generator :=
  { table := gauge.table, plans := gauge.planAll, catalogue := .ofSettings {} {}, root := ⟨"/p"⟩ }

/-- The replacement of its first test. -/
theorem emits_exercises_gauge :
    gaugeTests.Follows gauge ∧
      ∃ a b, a ∈ gaugeTests.forTable ∧ gaugeTests.regenerate? a "error: no" 1 = some b ∧
        gaugeTests.Emits b ∧ gaugeTests.Exercises b := by
  have hfollows : gaugeTests.Follows gauge := ⟨rfl, rfl, emits_exercises.1 _ _⟩
  have hsome : (gaugeTests.forTable.head?.bind
      (gaugeTests.regenerate? · "error: no" 1)).isSome := by decide +kernel
  obtain ⟨b, hb⟩ := Option.isSome_iff_exists.1 hsome
  obtain ⟨a, ha, hb⟩ := Option.bind_eq_some_iff.1 hb
  have ha := List.mem_of_head? ha
  have hemits : gaugeTests.Emits b := .regenerated (.first ha) _ _ hb
  exact ⟨hfollows, a, b, ha, hb, hemits, emits_exercises.2 gaugeTests gauge hfollows b hemits⟩

end Generator

end TestSynth
