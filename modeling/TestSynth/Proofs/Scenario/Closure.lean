import TestSynth.Proofs.Plan.References
import TestSynth.Proofs.Scenario.Scene
import TestSynth.Proofs.Scenario.Targets
/-!
Tests bring along the stand-ins they use. The stand-in types of the scene that a test plays are
those whose definitions go with the test, each once, and whose headers it includes.
-/
namespace TestSynth

open Artifact (TranslationUnit)

namespace Generator

variable {g : Generator} {p : Planner} {c : ClassModel} {m : Method} {plan : Plan}
  {index : Nat} {q : Request} {a : TestArtifact} {scene : Scene}

section Lookups
variable {parameters : List Parameter} {flavour : Flavour} {firstSlot : Nat} {name : String}

/-- What is passed for a parameter is known to the plans. -/
theorem known_of_passings (hplans : g.plans = p.planAll)
    (h : name ∈ (g.passings parameters flavour firstSlot).filterMap (·.type?)) :
    ∃ s, p.planAll.standIns.find? name = some s := by
  obtain ⟨passing, hpassing, htype⟩ := List.mem_filterMap.1 h
  obtain ⟨⟨parameter, index⟩, -, rfl⟩ := List.mem_map.1 hpassing
  have hfound := Synthesis.standInFor?_of_passing htype
  rw [standInNames, hplans] at hfound
  obtain ⟨s, hs, rfl, -, -⟩ := standInFor?_eq_some hfound
  exact ⟨s, Planner.find?_of_mem_values hs⟩

/-- So is what the object under test is made with, or is. -/
theorem known_of_subject? {subject : Subject} (hplans : g.plans = p.planAll)
    (hplan : g.planOf? c = some plan) (h : g.subject? c plan firstSlot = some subject)
    (hname : name ∈ subject.types) : ∃ s, p.planAll.standIns.find? name = some s := by
  unfold subject? at h
  cases hconstruction : plan.construction with
  | byDefault =>
    rw [hconstruction] at h
    cases h
    cases hname
  | byConstructor m substitutions =>
    rw [hconstruction] at h
    cases h
    exact known_of_passings hplans hname
  | byStandIn standIn =>
    rw [hconstruction] at h
    cases h
    obtain rfl := List.mem_singleton.1 hname
    rw [planOf?, hplans] at hplan
    obtain ⟨c', hc', -, rfl⟩ := Planner.of_find?_byClass hplan
    exact Planner.find?_of_byStandIn hc' hconstruction
  | infeasible reason =>
    rw [hconstruction] at h
    cases h

theorem known_of_memberScene? (hplans : g.plans = p.planAll)
    (h : g.memberScene? c m flavour = some scene) (hname : name ∈ scene.types) :
    ∃ s, p.planAll.standIns.find? name = some s := by
  unfold memberScene? at h
  dsimp only at h
  split at h
  · cases h
    exact known_of_passings hplans ((List.mem_append.1 hname).resolve_right List.not_mem_nil)
  · split at h
    · cases h
      exact known_of_passings hplans ((List.mem_append.1 hname).resolve_right List.not_mem_nil)
    · obtain ⟨plan, hplan, h⟩ := Option.bind_eq_some_iff.1 h
      obtain ⟨subject, hsubject, h⟩ := Option.bind_eq_some_iff.1 h
      cases h
      rcases List.mem_append.1 hname with hname | hname
      · exact known_of_passings hplans hname
      · exact known_of_subject? hplans hplan hsubject hname

theorem known_of_functionScene {f : FreeFunction} (hplans : g.plans = p.planAll)
    (hname : name ∈ (g.functionScene f flavour).types) :
    ∃ s, p.planAll.standIns.find? name = some s :=
  known_of_passings hplans ((List.mem_append.1 hname).resolve_right List.not_mem_nil)

end Lookups

/-- The definitions that go with a test are those of the stand-ins it uses, each once. -/
structure Supplies (plans : Plans) (a : TestArtifact) (types : List String)
    (standIns : List StandIn) : Prop where
  known : ∀ s ∈ standIns, plans.standIns.find? s.name = some s
  used : ∀ name, name ∈ types ↔ ∃ s ∈ standIns, s.name = name
  files : a.supportFiles = standIns.map fun s => (s.headerFile, s.headerText)
  once : (a.supportFiles.map (·.1)).Nodup

section Supplies

/-- Each name of a set is looked up, when all of them are known. -/
theorem map_name_filterMap {names : List String}
    (hknown : ∀ name ∈ names, ∃ s, p.planAll.standIns.find? name = some s) :
    (names.filterMap p.planAll.standIns.find?).map (·.name) = names := by
  induction names with
  | nil => rfl
  | cons name names ih =>
    obtain ⟨⟨s, hs⟩, hrest⟩ := List.forall_mem_cons.1 hknown
    rw [List.filterMap_cons_some hs, List.map_cons, ih hrest,
      (Planner.replaces_of_find?_standIns hs).1]

theorem headers_nodup {standIns : List StandIn} (hnames : (standIns.map (·.name)).Nodup)
    (hknown : ∀ s ∈ standIns, p.planAll.standIns.find? s.name = some s) :
    (standIns.map (·.headerFile)).Nodup := by
  refine List.Nodup.map_on ?_ (List.Nodup.of_map _ hnames)
  intro s hs t ht hheader
  obtain ⟨-, d, hd⟩ := Planner.replaces_of_find?_standIns (hknown s hs)
  obtain ⟨-, e, he⟩ := Planner.replaces_of_find?_standIns (hknown t ht)
  have hname := (hd.headerFile_eq_iff he).1 hheader
  have hfound := hknown s hs
  rw [hname, hknown t ht] at hfound
  exact (Option.some.inj hfound).symm

theorem supplies_finish {d : Draft} {kind : ScenarioKind} (hplans : g.plans = p.planAll)
    (hd : Drafts d scene kind)
    (hknown : ∀ name ∈ scene.types, ∃ s, p.planAll.standIns.find? name = some s)
    (q : Request) : ∃ standIns, Supplies p.planAll (g.finish d q) scene.types standIns := by
  have hnames := map_name_filterMap (p := p) fun name hname => hknown name ((hd.types name).1 hname)
  refine ⟨d.standIns.members.filterMap p.planAll.standIns.find?, ?_⟩
  generalize hstandIns : d.standIns.members.filterMap p.planAll.standIns.find? = standIns
    at hnames
  have hfound : ∀ s ∈ standIns, p.planAll.standIns.find? s.name = some s := by
    intro s hs
    rw [← hstandIns] at hs
    obtain ⟨name, -, hs⟩ := List.mem_filterMap.1 hs
    rwa [(Planner.replaces_of_find?_standIns hs).1]
  have hfiles : (g.finish d q).supportFiles =
      standIns.map fun s => (s.headerFile, s.headerText) := by
    rw [← hstandIns, finish, hplans]
  constructor
  · exact hfound
  · intro name
    rw [← hd.types, ← hnames, List.mem_map]
  · exact hfiles
  · rw [hfiles, List.map_map]
    exact headers_nodup (hnames ▸ hd.ordered.imp ne_of_lt) hfound

end Supplies

/-- The tests that are rendered from declarations: those for a table, variants of a round, and all
replacements. -/
inductive Renders (g : Generator) (a : TestArtifact) : Prop
  | first (h : a ∈ g.forTable)
  | refined (s : Snapshot) (iteration : Nat) (h : a ∈ (g.refine s iteration).artifacts)
  | renewed (b : TestArtifact) (diagnostics : String) (attempt : Nat)
      (h : g.regenerate? b diagnostics attempt = some a)

/-- The test plays the scene of the declaration that it was made from, which stands in that
header. -/
inductive Plays (g : Generator) (a : TestArtifact) (scene : Scene) (header : String) : Prop
  | member (r : Recipe) (index : Nat) (c : ClassModel) (m : Method)
      (hrecipe : a.recipe = some r) (htarget : r.target = .member index)
      (hmem : c ∈ g.table.models) (hclassName : a.className = c.qualifiedName)
      (hmethod : c.methods[index]? = some m) (hmethodName : a.methodName = m.name)
      (hheader : header = c.header.includePath g.root)
      (hscene : g.memberScene? c m r.flavour = some scene)
  | function (r : Recipe) (index : Nat) (f : FreeFunction)
      (hrecipe : a.recipe = some r) (htarget : r.target = .freeFunction index)
      (hfunction : g.table.functions[index]? = some f)
      (hclassName : a.className = "") (hmethodName : a.methodName = f.qualifiedName)
      (hheader : header = f.header.includePath g.root)
      (hscene : scene = g.functionScene f r.flavour)

/-- The text of the test is that of its scene, behind the header of the project and those of the
stand-ins that the scene uses; these go with the test. -/
structure Encloses (g : Generator) (a : TestArtifact) (scene : Scene) (unit : TranslationUnit)
    (standIns : List StandIn) : Prop where
  plays : g.Plays a scene unit.header
  source : a.sourceText = unit.render
  body : unit.body = scene.body a.kind
  occurs : ∀ type ∈ scene.types, ∃ line ∈ unit.body, Occurs type line
  includes : unit.standInHeaders = a.supportFiles.map (·.1)
  supplies : Supplies g.plans a scene.types standIns

section Enclosing
variable {given : Option Plan} {unit : TranslationUnit} {standIns : List StandIn}

/-- A test that is drafted from a scene encloses what the scene uses, if that is known. -/
theorem encloses_finish {d : Draft} (hplans : g.plans = p.planAll) (hd : Drafts d scene q.kind)
    (hknown : ∀ name ∈ scene.types, ∃ s, p.planAll.standIns.find? name = some s)
    (hplays : g.Plays (g.finish d q) scene d.header) :
    ∃ scene unit standIns, g.Encloses (g.finish d q) scene unit standIns := by
  obtain ⟨standIns, hsupplies⟩ := supplies_finish hplans hd hknown q
  have hoccurs : ∀ type ∈ scene.types, ∃ line ∈ d.body, Occurs type line := by
    intro type htype
    rw [hd.body]
    exact Scene.occurs htype q.kind
  exact ⟨scene, _, standIns, hplays, rfl, hd.body, hoccurs, rfl, hplans ▸ hsupplies⟩

theorem encloses_renderMember? (hplans : g.plans = p.planAll) (hmem : c ∈ g.table.models)
    (hplan : ∀ plan ∈ given, g.planOf? c = some plan) (hm : c.methods[index]? = some m)
    (hq : q.target = .member index) (h : g.renderMember? c index given q = some a) :
    ∃ scene unit standIns, g.Encloses a scene unit standIns := by
  obtain ⟨d, scene, rfl, hscene, hd, hheader, hclassName, hmethodName⟩ :=
    renderMember?_eq_finish hplan hm h
  refine encloses_finish hplans hd (fun name => known_of_memberScene? hplans hscene) ?_
  exact .member _ index c m rfl hq hmem hclassName hm hmethodName hheader hscene

theorem encloses_renderFunction? {f : FreeFunction} (hplans : g.plans = p.planAll)
    (hf : g.table.functions[index]? = some f) (hq : q.target = .freeFunction index)
    (h : g.renderFunction? index q = some a) :
    ∃ scene unit standIns, g.Encloses a scene unit standIns := by
  obtain ⟨d, rfl, hd, hheader, hclassName, hmethodName⟩ := renderFunction?_eq_finish hf h
  refine encloses_finish hplans hd (fun name => known_of_functionScene hplans) ?_
  exact .function _ index f rfl hq hf hclassName hmethodName hheader rfl

theorem Plays.renamed {header : String} (h : g.Plays a scene header) (id : String) :
    g.Plays (a.renamed id) scene header := by
  unfold TestArtifact.renamed
  split
  · exact h
  · cases h with
    | member r index c m hrecipe htarget hmem hclassName hmethod hmethodName hheader hscene =>
      exact .member { r with originId := id } index c m (by simp [hrecipe]) htarget hmem hclassName
        hmethod hmethodName hheader hscene
    | function r index f hrecipe htarget hfunction hclassName hmethodName hheader hscene =>
      exact .function { r with originId := id } index f (by simp [hrecipe]) htarget hfunction
        hclassName hmethodName hheader hscene

/-- Other names leave the text of a test and what goes with it. -/
theorem Encloses.renamed (h : g.Encloses a scene unit standIns) (id : String) :
    g.Encloses (a.renamed id) scene unit standIns := by
  have hplays := h.plays.renamed id
  by_cases hid : id == a.id
  · rwa [TestArtifact.renamed, if_pos hid]
  · rw [TestArtifact.renamed, if_neg hid] at hplays ⊢
    obtain ⟨hknown, hused, hfiles, honce⟩ := h.supplies
    exact ⟨hplays, h.source, h.body, h.occurs, h.includes, ⟨hknown, hused, hfiles, honce⟩⟩

theorem encloses_forTable (hplans : g.plans = p.planAll) (h : a ∈ g.forTable) :
    ∃ scene unit standIns, g.Encloses a scene unit standIns := by
  obtain ⟨b, used, rfl, ⟨c, hmem, m, plan, hplan, hb⟩ | ⟨f, hb⟩⟩ := mem_forTable h
  · obtain ⟨index, kind, given, hm, _, hgiven, hrender⟩ := mem_forMember hb
    have hplan : ∀ known ∈ given, g.planOf? c = some known := by
      intro known hknown
      rw [hgiven known hknown]
      exact hplan
    obtain ⟨scene, unit, standIns, henclosed⟩ :=
      encloses_renderMember? hplans hmem hplan hm rfl hrender
    exact ⟨scene, unit, standIns, henclosed.renamed _⟩
  · obtain ⟨f', index, kind, hf, _, hrender⟩ := mem_forFunction hb
    obtain ⟨scene, unit, standIns, henclosed⟩ := encloses_renderFunction? hplans hf rfl hrender
    exact ⟨scene, unit, standIns, henclosed.renamed _⟩

theorem encloses_refine (hplans : g.plans = p.planAll) {s : Snapshot} {iteration : Nat}
    (h : a ∈ (g.refine s iteration).artifacts) :
    ∃ scene unit standIns, g.Encloses a scene unit standIns := by
  obtain ⟨b, used, rfl, ⟨c, hmem, hb⟩ | hb⟩ := mem_refine h
  · obtain ⟨plan, m, index, kind, flavour, hplan, hm, _, _, hrender⟩ := mem_refineClass hb
    have hplan : ∀ known ∈ some plan, g.planOf? c = some known := by
      rintro known ⟨⟩
      exact hplan
    obtain ⟨scene, unit, standIns, henclosed⟩ :=
      encloses_renderMember? hplans (mem_focusClasses hmem) hplan hm rfl hrender
    exact ⟨scene, unit, standIns, henclosed.renamed _⟩
  · obtain ⟨f, index, kind, flavour, hf, _, _, hrender⟩ := mem_refineFunctions hb
    obtain ⟨scene, unit, standIns, henclosed⟩ := encloses_renderFunction? hplans hf rfl hrender
    exact ⟨scene, unit, standIns, henclosed.renamed _⟩

theorem encloses_regenerate? (hplans : g.plans = p.planAll) {b : TestArtifact}
    {diagnostics : String} {attempt : Nat} (h : g.regenerate? b diagnostics attempt = some a) :
    ∃ scene unit standIns, g.Encloses a scene unit standIns := by
  obtain ⟨-, r, rung, -, -, h⟩ := regenerate?_eq_some_iff.1 h
  cases h with
  | member index c htarget hclass hrender =>
    obtain ⟨_, m, _, hm, _⟩ := renderMember?_eq_some hrender
    exact encloses_renderMember? hplans (mem_of_classNamed? hclass) (by simp) hm htarget hrender
  | function index htarget hrender =>
    obtain ⟨_, f, _, hf, _⟩ := renderFunction?_eq_some hrender
    exact encloses_renderFunction? hplans hf htarget hrender

end Enclosing

/-- Every test that is rendered under the plans of a table encloses the stand-ins it uses. The body
is that of the scene of the declaration that it was made from. All stand-in types in it are known to
the plans; their headers and texts go with the test, each once and nothing else; and the text
includes their headers after that of the project. -/
theorem renders_encloses (p : Planner) (g : Generator) (hplans : g.plans = p.planAll)
    (a : TestArtifact) (h : g.Renders a) :
    ∃ scene unit standIns, g.Encloses a scene unit standIns := by
  cases h with
  | first h => exact encloses_forTable hplans h
  | refined s iteration h => exact encloses_refine hplans h
  | renewed b diagnostics attempt h => exact encloses_regenerate? hplans h

/-- A class that only a subtype can make, with a method that takes a stand-in twice. -/
def pools : Planner :=
  .ofSettings (ModelTable.readHeaders {} [(⟨⟨"/p/pool.h"⟩, .header⟩,
    "class Store \x7b public: Store(int cap); \x7d;\n" ++
      "class Pool \x7b protected: Pool(); public: int take(Store& from, Store spare); \x7d;\n")])
    { substitutionClasses := ["Store", "Pool"] } ⟨"/p"⟩

def poolTests : Generator :=
  { table := pools.table, plans := pools.planAll, catalogue := .ofSettings {} {}, root := ⟨"/p"⟩ }

/-- Its first test uses one as the object, one as a local and one that is made in place. -/
theorem renders_encloses_pool :
    poolTests.plans = pools.planAll ∧ ∃ a, poolTests.Renders a ∧
      a.supportFiles.map (·.1) = ["stub_Pool.h", "stub_Store.h"] ∧
      ∃ scene unit standIns, poolTests.Encloses a scene unit standIns := by
  have hfiles : (poolTests.forTable.head?.map fun a => a.supportFiles.map (·.1)) =
      some ["stub_Pool.h", "stub_Store.h"] := by decide +kernel
  obtain ⟨a, ha, hfiles⟩ := Option.map_eq_some_iff.1 hfiles
  have hrenders : poolTests.Renders a := .first (List.mem_of_head? ha)
  exact ⟨rfl, a, hrenders, hfiles, renders_encloses pools poolTests rfl a hrenders⟩

end Generator

end TestSynth
