import TestSynth.Proofs.Model.Filling
import TestSynth.Proofs.Scenario.Targets
import TestSynth.Proofs.Text.Nesting
/-!
The ladder of replacements. Whatever a test was made for, it is replaced by the same scenario with
the least arguments, then by a minimal test, and then no more; a test that has the least arguments
already, or was completed, by the minimal one at once.
-/
namespace TestSynth

open ScenarioKind (lowered)

/-- One of the phrases that tell the target is out of reach stands in the diagnostics, in letters
of any case. -/
def Hopeless (diagnostics : String) : Prop :=
  ∃ phrase ∈ unrecoverablePhrases, ∃ w, w <:+: diagnostics.toList ∧ lowered w = phrase.toList

theorem isUnrecoverable_iff {diagnostics : String} :
    isUnrecoverable diagnostics ↔ Hopeless diagnostics := by
  have hphrase : ∀ phrase : String,
      Text.containsText phrase.toList (lowered diagnostics.toList) ↔
        ∃ w, w <:+: diagnostics.toList ∧ lowered w = phrase.toList := by
    intro phrase
    rw [Text.containsText_iff, lowered, List.infix_map_iff]
    exact exists_congr fun w => and_congr_right fun _ => eq_comm
  rw [isUnrecoverable, List.any_eq_true]
  exact exists_congr fun phrase => and_congr_right fun _ => hphrase phrase

/-- What a test of a line plays: its scenario, the flavour of its arguments, and whether it is the
minimal one. -/
structure Rung where
  kind : ScenarioKind
  flavour : Flavour
  minimal : Bool
deriving DecidableEq, Repr

def TestArtifact.rung? (a : TestArtifact) : Option Rung :=
  a.recipe.map fun r => ⟨a.kind, r.flavour, r.minimal⟩

namespace Rung

variable {constructs : Bool} {rung next : Rung} {rest : List Rung}

/-- The minimal test: a construction, or a call that must not throw. -/
def least (constructs : Bool) : Rung :=
  ⟨if constructs then .basicConstruction else .noThrow, .plain, true⟩

/-- The rungs that a test of a scenario descends, unless it is minimal. -/
def ladder (constructs : Bool) (kind : ScenarioKind) (flavour : Flavour) : List Rung :=
  if flavour ≠ .edgeCase ∧ kind ≠ .generated then [⟨kind, .edgeCase, false⟩, least constructs]
  else [least constructs]

/-- The rungs below one, in the order they are tried. -/
def below (constructs : Bool) (rung : Rung) : List Rung :=
  if rung.minimal then [] else ladder constructs rung.kind rung.flavour

theorem length_below_le (constructs : Bool) (rung : Rung) : (below constructs rung).length ≤ 2 := by
  unfold below ladder
  split
  · exact Nat.zero_le 2
  · split
    · exact Nat.le_refl 2
    · exact Nat.le_succ 1

/-- Below the next rung are those that come after it. -/
theorem below_next (h : below constructs rung = next :: rest) : below constructs next = rest := by
  unfold below ladder at h
  split at h
  · cases h
  · split at h <;>
    · cases h
      rfl

end Rung

/-- What a replacement has from the test it replaces. -/
structure TestArtifact.Renews (b a : TestArtifact) (attempt : Nat) : Prop where
  target : b.recipe.map (·.target) = a.recipe.map (·.target)
  origin : b.recipe.map (·.originId) = a.recipe.map (·.originId)
  className : b.className = a.className
  methodName : b.methodName = a.methodName
  iteration : b.iteration = a.iteration
  generation : b.generation = attempt
  parent : b.parentId = some a.id

namespace Generator

variable {g : Generator} {a b : TestArtifact} {c : ClassModel} {m : Method} {plan : Plan}
  {index attempt : Nat} {q : Request} {r : Recipe} {diagnostics : String} {constructs : Bool}
  {rung next : Rung} {rest : List Rung}

/-- A test of the member can be rendered: it takes no object, or one can be had. -/
inductive Callable (g : Generator) (c : ClassModel) (m : Method) : Prop
  | constructor (h : m.flags.isConstructor = true)
  | static (h : m.flags.isStatic = true)
  | planned (plan : Plan) (h : g.planOf? c = some plan) (hfeasible : plan.construction.isFeasible)

/-- The test was made for a declaration of the table, a constructor or not, and is named after it. -/
inductive Aims (g : Generator) (a : TestArtifact) (constructs : Bool) : Prop
  | member (r : Recipe) (index : Nat) (c : ClassModel) (m : Method)
      (hrecipe : a.recipe = some r) (htarget : r.target = .member index)
      (hmem : c ∈ g.table.models) (hclassName : a.className = c.qualifiedName)
      (hmethod : c.methods[index]? = some m) (hmethodName : a.methodName = m.name)
      (hconstructs : m.flags.isConstructor = constructs) (hcallable : g.Callable c m)
  | function (r : Recipe) (index : Nat) (f : FreeFunction)
      (hrecipe : a.recipe = some r) (htarget : r.target = .freeFunction index)
      (hfunction : g.table.functions[index]? = some f)
      (hclassName : a.className = "") (hmethodName : a.methodName = f.qualifiedName)
      (hconstructs : constructs = false)

section Rendering

theorem exists_objectSetup? (h : plan.construction.isFeasible) (firstSlot : Nat) :
    ∃ setup, g.objectSetup? c plan firstSlot = some setup := by
  unfold objectSetup?
  cases hc : plan.construction with
  | byDefault => exact ⟨_, rfl⟩
  | byConstructor => exact ⟨_, rfl⟩
  | byStandIn => exact ⟨_, rfl⟩
  | infeasible => rw [hc] at h; cases h

theorem exists_memberCall? (h : g.Callable c m) (hm : m.flags.isConstructor = false)
    (args : Synthesis.Arguments) (kind : ScenarioKind) :
    ∃ call, g.memberCall? c m none args kind = some call := by
  unfold memberCall?
  dsimp only
  split
  · exact ⟨_, rfl⟩
  · next hstatic =>
    cases h with
    | constructor h => exact absurd (h.symm.trans hm) (by decide)
    | static h => exact absurd h hstatic
    | planned plan h hfeasible =>
      obtain ⟨setup, hsetup⟩ := exists_objectSetup? (g := g) (c := c) hfeasible m.parameters.length
      exact ⟨_, by simp [h, hsetup]; rfl⟩

/-- A test of such a member is rendered for every request. -/
theorem exists_renderMember? (hm : c.methods[index]? = some m) (h : g.Callable c m) (q : Request) :
    ∃ a, g.renderMember? c index none q = some a := by
  unfold renderMember?
  rw [hm, Option.bind_eq_bind, Option.bind_some]
  dsimp only
  split
  · exact ⟨_, rfl⟩
  · next hconstructor =>
    obtain ⟨call, hcall⟩ := exists_memberCall? h (Bool.eq_false_iff.2 hconstructor)
      (Synthesis.arguments g.standInNames m.parameters q.flavour 0) q.kind
    rw [hcall]
    exact ⟨_, rfl⟩

theorem exists_renderFunction? {f : FreeFunction} (hf : g.table.functions[index]? = some f)
    (q : Request) : ∃ a, g.renderFunction? index q = some a := by
  unfold renderFunction?
  rw [hf]
  exact ⟨_, rfl⟩

theorem rung?_finish (d : Draft) (q : Request) :
    (g.finish d q).rung? = some ⟨q.kind, q.flavour, q.minimal⟩ := rfl

theorem aims_renderMember? (hmem : c ∈ g.table.models) (hm : c.methods[index]? = some m)
    (hcallable : g.Callable c m) {given : Option Plan} (hq : q.target = .member index)
    (hrender : g.renderMember? c index given q = some a) :
    g.Aims a m.flags.isConstructor ∧ a.rung? = some ⟨q.kind, q.flavour, q.minimal⟩ := by
  obtain ⟨d, m', rfl, hm', hclassName, hmethodName⟩ := renderMember?_eq_some hrender
  obtain rfl := Option.some.inj (hm.symm.trans hm')
  exact ⟨.member _ index c m rfl hq hmem hclassName hm hmethodName rfl hcallable, rung?_finish d q⟩

theorem aims_renderFunction? {f : FreeFunction} (hf : g.table.functions[index]? = some f)
    (hq : q.target = .freeFunction index) (hrender : g.renderFunction? index q = some a) :
    g.Aims a false ∧ a.rung? = some ⟨q.kind, q.flavour, q.minimal⟩ := by
  obtain ⟨d, f', rfl, hf', hclassName, hmethodName⟩ := renderFunction?_eq_some hrender
  obtain rfl := Option.some.inj (hf.symm.trans hf')
  exact ⟨.function _ index f rfl hq hf hclassName hmethodName rfl, rung?_finish d q⟩

end Rendering

section Step

/-- No rung mends what is out of reach. -/
theorem regenerate?_of_hopeless (h : Hopeless diagnostics) (a : TestArtifact) (attempt : Nat) :
    g.regenerate? a diagnostics attempt = none := by
  refine Option.eq_none_iff_forall_ne_some.2 fun b hb => ?_
  obtain ⟨hmendable, -⟩ := regenerate?_eq_some_iff.1 hb
  exact absurd ((isUnrecoverable_iff.2 h).symm.trans hmendable) (by decide)

/-- The next rung is the first of those below, when it is known whether the test constructs. -/
theorem map_nextRung? (h : g.targetsConstructor a r.target = constructs) :
    (g.nextRung? a r).map (fun p => Rung.mk p.1 p.2.1 p.2.2) =
      (Rung.below constructs ⟨a.kind, r.flavour, r.minimal⟩).head? := by
  unfold nextRung? Rung.below Rung.ladder Rung.least
  rw [h]
  cases r.minimal with
  | true => rfl
  | false =>
    by_cases hf : r.flavour = .edgeCase
    · cases constructs <;> simp [hf]
    · by_cases hk : a.kind = .generated
      · cases constructs <;> simp [hk]
      · simp [hf, hk]

theorem Aims.targetsConstructor (hnames : (g.table.models.map (·.qualifiedName)).Nodup)
    (h : g.Aims a constructs) (hr : a.recipe = some r) :
    g.targetsConstructor a r.target = constructs := by
  cases h with
  | member r' index c m hrecipe htarget hmem hclassName hmethod hmethodName hconstructs hcallable =>
    obtain rfl := Option.some.inj (hr.symm.trans hrecipe)
    unfold Generator.targetsConstructor
    rw [htarget, hclassName]
    simp [classNamed?_of_mem hnames hmem, hmethod, hconstructs]
  | function r' index f hrecipe htarget hfunction hclassName hmethodName hconstructs =>
    obtain rfl := Option.some.inj (hr.symm.trans hrecipe)
    rw [htarget, hconstructs]
    rfl

theorem renews_finish (hr : a.recipe = some r) {step : ScenarioKind × Flavour × Bool} (d : Draft)
    (hclassName : d.className = a.className) (hmethodName : d.methodName = a.methodName) :
    (g.finish d (renewal a r diagnostics attempt step)).Renews a attempt where
  target := by rw [hr]; rfl
  origin := by rw [hr]; rfl
  className := hclassName
  methodName := hmethodName
  iteration := rfl
  generation := rfl
  parent := rfl

/-- A test that has a rung below it is replaced by one on that rung. -/
theorem Aims.regenerate? (hnames : (g.table.models.map (·.qualifiedName)).Nodup)
    (ha : g.Aims a constructs) (hrung : a.rung? = some rung) (hd : ¬ Hopeless diagnostics)
    (hbelow : rung.below constructs = next :: rest) (attempt : Nat) :
    ∃ b, g.regenerate? a diagnostics attempt = some b ∧ g.Aims b constructs ∧
      b.rung? = some next ∧ b.Renews a attempt := by
  obtain ⟨r, hr, rfl⟩ := Option.map_eq_some_iff.1 hrung
  have hnext : (g.nextRung? a r).map (fun p => Rung.mk p.1 p.2.1 p.2.2) = some next := by
    rw [map_nextRung? (ha.targetsConstructor hnames hr), hbelow]
    rfl
  obtain ⟨step, hstep, rfl⟩ := Option.map_eq_some_iff.1 hnext
  have hmendable : isUnrecoverable diagnostics = false :=
    Bool.eq_false_iff.2 fun h => hd (isUnrecoverable_iff.1 h)
  have hreplaced : ∀ b, g.Remakes a (renewal a r diagnostics attempt step) b →
      g.regenerate? a diagnostics attempt = some b := fun b hb =>
    regenerate?_eq_some_iff.2 ⟨hmendable, r, step, hr, hstep, hb⟩
  cases ha with
  | member r' index c m hrecipe htarget hmem hclassName hmethod hmethodName hconstructs hcallable =>
    obtain rfl := Option.some.inj (hr.symm.trans hrecipe)
    have hclass := classNamed?_of_mem hnames hmem
    rw [← hclassName] at hclass
    obtain ⟨b, hb⟩ := exists_renderMember? hmethod hcallable (renewal a r diagnostics attempt step)
    obtain ⟨haims, hrung⟩ := aims_renderMember? hmem hmethod hcallable htarget hb
    refine ⟨b, hreplaced b (.member index c htarget hclass hb), hconstructs ▸ haims, hrung, ?_⟩
    obtain ⟨d, m', rfl, hm', hc', hn'⟩ := renderMember?_eq_some hb
    obtain rfl := Option.some.inj (hmethod.symm.trans hm')
    exact renews_finish hr d (hc'.trans hclassName.symm) (hn'.trans hmethodName.symm)
  | function r' index f hrecipe htarget hf hclassName hmethodName hconstructs =>
    obtain rfl := Option.some.inj (hr.symm.trans hrecipe)
    obtain ⟨b, hb⟩ := exists_renderFunction? hf (renewal a r diagnostics attempt step)
    obtain ⟨haims, hrung⟩ := aims_renderFunction? hf htarget hb
    refine ⟨b, hreplaced b (.function index htarget hb), hconstructs ▸ haims, hrung, ?_⟩
    obtain ⟨d, f', rfl, hf', hc', hn'⟩ := renderFunction?_eq_some hb
    obtain rfl := Option.some.inj (hf.symm.trans hf')
    exact renews_finish hr d (hc'.trans hclassName.symm) (hn'.trans hmethodName.symm)

/-- A test with no rung below it is not replaced. -/
theorem Aims.regenerate?_eq_none (hnames : (g.table.models.map (·.qualifiedName)).Nodup)
    (ha : g.Aims a constructs) (hrung : a.rung? = some rung) (hbelow : rung.below constructs = [])
    (diagnostics : String) (attempt : Nat) : g.regenerate? a diagnostics attempt = none := by
  obtain ⟨r, hr, rfl⟩ := Option.map_eq_some_iff.1 hrung
  have hnone : g.nextRung? a r = none := by
    have hmap := map_nextRung? (ha.targetsConstructor hnames hr)
    rw [hbelow] at hmap
    exact Option.map_eq_none_iff.1 hmap
  refine Option.eq_none_iff_forall_ne_some.2 fun b hb => ?_
  obtain ⟨-, r', step, hr', hstep, -⟩ := regenerate?_eq_some_iff.1 hb
  obtain rfl := Option.some.inj (hr.symm.trans hr')
  exact absurd (hnone.symm.trans hstep) nofun

end Step

/-- The answers to one attempt after another to replace a test, each made at the last test there
is. -/
def renewals (g : Generator) : TestArtifact → List (String × Nat) → List (Option TestArtifact)
  | _, [] => []
  | a, (diagnostics, attempt) :: calls =>
    g.regenerate? a diagnostics attempt ::
      g.renewals ((g.regenerate? a diagnostics attempt).getD a) calls

/-- The tests of a line, from the given one on. -/
inductive LineFrom (g : Generator) (a : TestArtifact) : TestArtifact → Prop
  | first : LineFrom g a a
  | next {b b' : TestArtifact} (hb : LineFrom g a b) (diagnostics : String) (attempt : Nat)
      (h : g.regenerate? b diagnostics attempt = some b') : LineFrom g a b'

/-- A test is replaced on those rungs, one after the other, and then no more. -/
structure Descends (g : Generator) (a : TestArtifact) (rungs : List Rung) : Prop where
  answers : ∀ calls : List (String × Nat), (∀ call ∈ calls, ¬ Hopeless call.1) →
    (g.renewals a calls).map (·.map TestArtifact.rung?) =
      (List.range calls.length).map fun i => rungs[i]?.map some
  few : ∀ calls : List (String × Nat), (g.renewals a calls).reduceOption.length ≤ 2
  last : ∀ b, g.LineFrom a b → (∃ rung, b.rung? = some rung ∧ rung.minimal = true) →
    ∀ diagnostics attempt, g.regenerate? b diagnostics attempt = none
  hopeless : ∀ b, g.LineFrom a b → ∀ diagnostics, Hopeless diagnostics →
    ∀ attempt, g.regenerate? b diagnostics attempt = none
  renews : ∀ b, g.LineFrom a b → ∀ diagnostics attempt b',
    g.regenerate? b diagnostics attempt = some b' → b'.Renews b attempt

section Runs
variable (hnames : (g.table.models.map (·.qualifiedName)).Nodup)
include hnames

/-- Whatever replaces a test stands on the first rung below it. -/
theorem Aims.of_regenerate? (ha : g.Aims a constructs) (hrung : a.rung? = some rung)
    (h : g.regenerate? a diagnostics attempt = some b) : ∃ next rest,
      rung.below constructs = next :: rest ∧ g.Aims b constructs ∧ b.rung? = some next ∧
      b.Renews a attempt := by
  have hd : ¬ Hopeless diagnostics := fun hd => by
    rw [regenerate?_of_hopeless hd] at h
    cases h
  cases hbelow : rung.below constructs with
  | nil =>
    rw [ha.regenerate?_eq_none hnames hrung hbelow] at h
    cases h
  | cons next rest =>
    obtain ⟨b', hb', haims, hrung', hrenews⟩ := ha.regenerate? hnames hrung hd hbelow attempt
    obtain rfl := Option.some.inj (h.symm.trans hb')
    exact ⟨next, rest, rfl, haims, hrung', hrenews⟩

theorem Aims.line (ha : g.Aims a constructs) (hrung : a.rung? = some rung) (h : g.LineFrom a b) :
    g.Aims b constructs ∧ ∃ rung', b.rung? = some rung' := by
  induction h with
  | first => exact ⟨ha, rung, hrung⟩
  | next _ diagnostics attempt h ih =>
    obtain ⟨hb, rung', hrung'⟩ := ih
    obtain ⟨next, _, _, hb', hnext, _⟩ := hb.of_regenerate? hnames hrung' h
    exact ⟨hb', next, hnext⟩

/-- The answers to attempts that are not hopeless are the rungs below, in their order. -/
theorem Aims.map_renewals (ha : g.Aims a constructs) (hrung : a.rung? = some rung)
    {calls : List (String × Nat)} (hcalls : ∀ call ∈ calls, ¬ Hopeless call.1) :
    (g.renewals a calls).map (·.map TestArtifact.rung?) =
      (List.range calls.length).map fun i => (rung.below constructs)[i]?.map some := by
  induction calls generalizing a rung with
  | nil => rfl
  | cons call calls ih =>
    obtain ⟨diagnostics, attempt⟩ := call
    rw [List.forall_mem_cons] at hcalls
    rw [renewals, List.map_cons, List.length_cons, List.range_succ_eq_map, List.map_cons,
      List.map_map]
    cases hbelow : rung.below constructs with
    | nil =>
      rw [ha.regenerate?_eq_none hnames hrung hbelow, Option.getD_none, ih ha hrung hcalls.2,
        hbelow]
      rfl
    | cons next rest =>
      obtain ⟨b, hb, haims, hnext, _⟩ := ha.regenerate? hnames hrung hcalls.1 hbelow attempt
      rw [hb, Option.getD_some, ih haims hnext hcalls.2, Rung.below_next hbelow, Option.map_some,
        hnext]
      rfl

/-- There are no more replacements than rungs below, whatever the attempts come to. -/
theorem Aims.length_renewals_le (ha : g.Aims a constructs) (hrung : a.rung? = some rung)
    (calls : List (String × Nat)) :
    (g.renewals a calls).reduceOption.length ≤ (rung.below constructs).length := by
  induction calls generalizing a rung with
  | nil => exact Nat.zero_le _
  | cons call calls ih =>
    obtain ⟨diagnostics, attempt⟩ := call
    rw [renewals]
    cases h : g.regenerate? a diagnostics attempt with
    | none => exact ih ha hrung
    | some b =>
      obtain ⟨next, rest, hbelow, haims, hnext, _⟩ := ha.of_regenerate? hnames hrung h
      have hrest := ih haims hnext
      rw [Rung.below_next hbelow] at hrest
      rw [hbelow]
      exact Nat.succ_le_succ hrest

theorem Aims.descends (ha : g.Aims a constructs) (hrung : a.rung? = some rung) :
    g.Descends a (rung.below constructs) where
  answers _ hcalls := ha.map_renewals hnames hrung hcalls
  few calls := (ha.length_renewals_le hnames hrung calls).trans (Rung.length_below_le _ _)
  last b hb := by
    rintro ⟨rung', hrung', hminimal⟩ diagnostics attempt
    have hbelow : rung'.below constructs = [] := if_pos hminimal
    exact (ha.line hnames hrung hb).1.regenerate?_eq_none hnames hrung' hbelow _ _
  hopeless b _ _ hd attempt := regenerate?_of_hopeless hd b attempt
  renews b hb diagnostics attempt b' h := by
    obtain ⟨hb, rung', hrung'⟩ := ha.line hnames hrung hb
    obtain ⟨_, _, _, _, _, hrenews⟩ := hb.of_regenerate? hnames hrung' h
    exact hrenews

end Runs

/-- The tests that lines start with: those for the table, variants of a round, and completed
ones. -/
inductive Starts (g : Generator) (a : TestArtifact) : Prop
  | first (h : a ∈ g.forTable)
  | refined (s : Snapshot) (iteration : Nat) (h : a ∈ (g.refine s iteration).artifacts)
  | completed (s : Snapshot) (limit : Nat) (t : CompletionTarget) (body : String)
      (iteration : Nat) (ht : t ∈ g.completionTargets s limit)
      (h : t.artifact? body iteration = some a)

/-- The test was made for a declaration of the table and is not the minimal one. -/
def Unreplaced (g : Generator) (a : TestArtifact) : Prop :=
  ∃ constructs rung, g.Aims a constructs ∧ a.rung? = some rung ∧ rung.minimal = false

section Starts
variable {iteration : Nat} {wanted : List (ScenarioKind × Flavour)}

theorem Aims.renamed (h : g.Aims a constructs) (id : String) :
    g.Aims (a.renamed id) constructs := by
  unfold TestArtifact.renamed
  split
  · exact h
  · cases h with
    | member r index c m hrecipe htarget hmem hclassName hmethod hmethodName hcon hcallable =>
      exact .member { r with originId := id } index c m (by simp [hrecipe]) htarget hmem hclassName
        hmethod hmethodName hcon hcallable
    | function r index f hrecipe htarget hfunction hclassName hmethodName hcon =>
      exact .function { r with originId := id } index f (by simp [hrecipe]) htarget hfunction
        hclassName hmethodName hcon

theorem rung?_renamed (a : TestArtifact) (id : String) : (a.renamed id).rung? = a.rung? := by
  unfold TestArtifact.renamed
  split
  · rfl
  · simp [TestArtifact.rung?, Function.comp_def]

theorem Unreplaced.renamed (h : g.Unreplaced a) (id : String) : g.Unreplaced (a.renamed id) := by
  obtain ⟨constructs, rung, ha, hrung, hminimal⟩ := h
  exact ⟨constructs, rung, ha.renamed id, (rung?_renamed a id).trans hrung, hminimal⟩

theorem callable_of_memberEligible (hplan : g.planOf? c = some plan)
    (h : g.memberEligible c m plan) : g.Callable c m := by
  simp only [memberEligible, Bool.and_eq_true, Bool.or_eq_true] at h
  rcases h.2 with hstatic | ⟨⟨hfeasible, _⟩, _⟩
  · exact .static hstatic
  · exact .planned plan hplan hfeasible

theorem callable_of_constructorEligible (h : g.constructorEligible c m) : g.Callable c m := by
  simp only [constructorEligible, Bool.and_eq_true] at h
  exact .constructor h.1.1.1.1.1.1

theorem unreplaced_forMember (hmem : c ∈ g.table.models) (hplan : g.planOf? c = some plan)
    (h : a ∈ g.forMember c m plan) : g.Unreplaced a := by
  obtain ⟨index, kind, given, hm, heligible, _, hrender⟩ := mem_forMember h
  have hcallable : g.Callable c m := by
    rcases heligible with heligible | heligible
    · exact callable_of_constructorEligible heligible
    · exact callable_of_memberEligible hplan heligible
  obtain ⟨haims, hrung⟩ := aims_renderMember? hmem hm hcallable rfl hrender
  exact ⟨_, _, haims, hrung, rfl⟩

theorem unreplaced_forFunction {f : FreeFunction} (h : a ∈ g.forFunction f) : g.Unreplaced a := by
  obtain ⟨f', index, kind, hf, _, hrender⟩ := mem_forFunction h
  obtain ⟨haims, hrung⟩ := aims_renderFunction? hf rfl hrender
  exact ⟨_, _, haims, hrung, rfl⟩

theorem unreplaced_refineClass (hmem : c ∈ g.table.models)
    (h : a ∈ g.refineClass wanted iteration c) : g.Unreplaced a := by
  obtain ⟨plan, m, index, kind, flavour, hplan, hm, heligible, _, hrender⟩ := mem_refineClass h
  have hcallable := callable_of_memberEligible hplan heligible
  obtain ⟨haims, hrung⟩ := aims_renderMember? hmem hm hcallable rfl hrender
  exact ⟨_, _, haims, hrung, rfl⟩

theorem unreplaced_refineFunctions {stems : List String}
    (h : a ∈ g.refineFunctions wanted stems iteration) : g.Unreplaced a := by
  obtain ⟨f, index, kind, flavour, hf, _, _, hrender⟩ := mem_refineFunctions h
  obtain ⟨haims, hrung⟩ := aims_renderFunction? hf rfl hrender
  exact ⟨_, _, haims, hrung, rfl⟩

theorem unreplaced_artifact? {s : Snapshot} {limit : Nat} {t : CompletionTarget} {body : String}
    (ht : t ∈ g.completionTargets s limit) (h : t.artifact? body iteration = some a) :
    g.Unreplaced a := by
  obtain ⟨plan, m, hmem, hplan, hm, heligible⟩ := mem_completionTargets ht
  obtain ⟨m', hm', rfl⟩ := Option.map_eq_some_iff.1 h
  obtain rfl := Option.some.inj (hm.symm.trans hm')
  have hcallable := callable_of_memberEligible hplan heligible
  exact ⟨m.flags.isConstructor, _,
    .member _ t.methodIndex t.model m rfl rfl hmem rfl hm rfl rfl hcallable, rfl, rfl⟩

theorem Starts.unreplaced (h : g.Starts a) : g.Unreplaced a := by
  cases h with
  | first h =>
    obtain ⟨b, used, rfl, ⟨c, hmem, m, plan, hplan, hb⟩ | ⟨f, hb⟩⟩ := mem_forTable h
    · exact (unreplaced_forMember hmem hplan hb).renamed _
    · exact (unreplaced_forFunction hb).renamed _
  | refined s iteration h =>
    obtain ⟨b, used, rfl, ⟨c, hmem, hb⟩ | hb⟩ := mem_refine h
    · exact (unreplaced_refineClass (mem_focusClasses hmem) hb).renamed _
    · exact (unreplaced_refineFunctions hb).renamed _
  | completed s limit t body iteration ht h => exact unreplaced_artifact? ht h

end Starts

/-- The first test of a line descends its ladder, whatever the attempts to replace it come to: the
same scenario with the least arguments, unless it has these already or was completed, then the
minimal test, and then none. All tables that are filled with definitions name their classes apart. -/
theorem starts_descends :
    (∀ additions t, ModelTable.fill? additions = some t →
      (t.models.map (·.qualifiedName)).Nodup) ∧
    ∀ g : Generator, (g.table.models.map (·.qualifiedName)).Nodup → ∀ a, g.Starts a →
      ∃ constructs r, g.Aims a constructs ∧ a.recipe = some r ∧
        g.Descends a (Rung.ladder constructs a.kind r.flavour) := by
  constructor
  · intro additions t h
    obtain ⟨rfl, _⟩ := (ModelTable.fill?_eq_some_iff additions).1 h
    have hnodup := (ModelTable.keyed_fill additions).nodup
    rwa [ModelTable.models, List.map_map]
  · intro g hnames a ha
    obtain ⟨constructs, rung, haims, hrung, hminimal⟩ := ha.unreplaced
    have hdescends := haims.descends hnames hrung
    rw [Rung.below, if_neg (Bool.eq_false_iff.1 hminimal)] at hdescends
    obtain ⟨r, hr, rfl⟩ := Option.map_eq_some_iff.1 hrung
    exact ⟨constructs, r, haims, hr, hdescends⟩

/-- The first test of a gauge constructs one: it is replaced twice, and asked for a third time it
is not. -/
theorem starts_descends_gauge :
    (gaugeTests.table.models.map (·.qualifiedName)).Nodup ∧
      ∃ a, gaugeTests.Starts a ∧
        (gaugeTests.renewals a [("error: no", 1), ("error: no", 2), ("error: no", 3)]).map
            (·.bind TestArtifact.rung?) =
          [some ⟨.basicConstruction, .edgeCase, false⟩, some ⟨.basicConstruction, .plain, true⟩,
            none] ∧
        ∃ constructs r, gaugeTests.Aims a constructs ∧ a.recipe = some r ∧
          gaugeTests.Descends a (Rung.ladder constructs a.kind r.flavour) := by
  have hnames : (gaugeTests.table.models.map (·.qualifiedName)).Nodup := by decide +kernel
  have hrun : (gaugeTests.forTable.head?.map fun a =>
      (gaugeTests.renewals a [("error: no", 1), ("error: no", 2), ("error: no", 3)]).map
        (·.bind TestArtifact.rung?)) =
      some [some ⟨.basicConstruction, .edgeCase, false⟩, some ⟨.basicConstruction, .plain, true⟩,
        none] := by decide +kernel
  obtain ⟨a, ha, hrun⟩ := Option.map_eq_some_iff.1 hrun
  have hstarts : gaugeTests.Starts a := .first (List.mem_of_head? ha)
  exact ⟨hnames, a, hstarts, hrun, starts_descends.2 gaugeTests hnames a hstarts⟩

end Generator

end TestSynth
