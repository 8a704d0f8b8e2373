import TestSynth.Proofs.Scenario.Completeness
/-!
What it does to name kinds in the settings: the tests for a table are those of the named kinds among
the tests of every kind, under the same names. The number that a name gets depends on the names of
one kind alone, as names tell the kinds that they were made for.
-/
namespace TestSynth

section Fresh
variable {used other : List String} {id : String} {kinds : List ScenarioKind} {kind : ScenarioKind}
  {tests : List TestArtifact}

/-- The name that a test gets depends on whether the names it might get are taken. -/
theorem freshId_congr (hself : id ∈ used ↔ id ∈ other)
    (hnumbered : ∀ n : Nat, id ++ "_" ++ toString n ∈ used ↔ id ++ "_" ++ toString n ∈ other) :
    freshId used id = freshId other id := by
  by_cases h : id ∈ used
  · obtain ⟨m, hm, hfree, hbelow⟩ := freshId_of_mem h
    obtain ⟨n, hn, hfree', hbelow'⟩ := freshId_of_mem (hself.1 h)
    -- Each is the least number that is free, in lists that have the same numbers.
    have hle : ¬m < n := fun hlt => hfree ((hnumbered _).2 (hbelow' m hlt))
    have hge : ¬n < m := fun hlt => hfree' ((hnumbered _).1 (hbelow n hlt))
    rw [hm, hn, le_antisymm (not_lt.1 hge) (not_lt.1 hle)]
  · rw [freshId_of_not_mem h, freshId_of_not_mem (mt hself.2 h)]

theorem EndsInMark.markedFor_freshId {m : Mark} (h : EndsInMark id m) (used : List String) :
    MarkedFor (freshId used id) m := by
  rcases freshId_cases used id with hid | ⟨n, hid⟩ <;> rw [hid]
  · exact h.markedFor
  · exact h.numbered n

/-- The same names of the kinds are in use. -/
def AgreeOn (kinds : List ScenarioKind) (used other : List String) : Prop :=
  ∀ kind ∈ kinds, ∀ id, MarkedFor id (.kind kind) → (id ∈ used ↔ id ∈ other)

namespace AgreeOn

theorem freshId (h : AgreeOn kinds used other) (hkind : kind ∈ kinds)
    (hid : EndsInMark id (.kind kind)) : freshId used id = freshId other id :=
  freshId_congr (h kind hkind _ hid.markedFor) fun n => h kind hkind _ (hid.numbered n)

theorem cons (h : AgreeOn kinds used other) (id : String) :
    AgreeOn kinds (id :: used) (id :: other) := by
  intro kind hkind name hname
  rw [List.mem_cons, List.mem_cons, h kind hkind name hname]

/-- A name of another kind changes nothing. -/
theorem cons_left (h : AgreeOn kinds used other) (hid : MarkedFor id (.kind kind))
    (hkind : kind ∉ kinds) : AgreeOn kinds (id :: used) other := by
  intro kind' hkind' name hname
  rw [List.mem_cons, h kind' hkind' name hname, or_iff_right]
  rintro rfl
  exact hkind (Mark.kind.inj (hid.unique hname) ▸ hkind')

end AgreeOn

/-- Tests of some kinds get the same names among tests of all kinds as among themselves. -/
theorem filter_assignIds (h : AgreeOn kinds used other)
    (hends : ∀ a ∈ tests, EndsInMark a.id (.kind a.kind)) :
    (assignIds used tests).filter (kinds.contains ·.kind) =
      assignIds other (tests.filter (kinds.contains ·.kind)) := by
  -- The names in use differ on the two sides, but only in names of kinds that are left out.
  induction tests generalizing used other with
  | nil => rfl
  | cons a rest ih =>
    obtain ⟨ha, hrest⟩ := List.forall_mem_cons.1 hends
    rw [assignIds, List.filter_cons, List.filter_cons, TestArtifact.renamed_kind]
    by_cases hkind : a.kind ∈ kinds
    · rw [if_pos (List.contains_iff_mem.2 hkind), if_pos (List.contains_iff_mem.2 hkind),
        assignIds, ← h.freshId hkind ha, ih (h.cons _) hrest]
    · have hcontains : ¬kinds.contains a.kind := fun hmem => hkind (List.contains_iff_mem.1 hmem)
      rw [if_neg hcontains, if_neg hcontains]
      exact ih (h.cons_left (ha.markedFor_freshId used) hkind) hrest

end Fresh

namespace Generator

/-- The generator that makes tests of those kinds only. -/
def restricted (g : Generator) (kinds : List ScenarioKind) : Generator :=
  { g with
    catalogue := { g.catalogue with kinds := ScenarioKind.all.filter (kinds.contains ·) } }

section Restriction
variable {g : Generator} {c : ClassModel} {m : Method} {plan : Plan} {f : FreeFunction}
  {kinds wanted : List ScenarioKind} {a : TestArtifact}

theorem ofSettings_restricted (table : ModelTable) (synthesis : SynthesisSettings)
    (completion : CompletionSettings) (root : Path) (h : kinds ≠ []) :
    ofSettings table { synthesis with scenarioKinds := kinds } completion root =
      (ofSettings table { synthesis with scenarioKinds := [] } completion root).restricted
        kinds := by
  have hsome : kinds.isEmpty = false := List.isEmpty_eq_false_iff.2 h
  have hkinds : (Catalogue.ofSettings { synthesis with scenarioKinds := kinds } completion).kinds =
      ScenarioKind.all.filter (kinds.contains ·) := by
    simp [Catalogue.ofSettings, hsome]
  rw [restricted, ← hkinds]
  rfl

theorem constructorEligible_restricted :
    (g.restricted kinds).constructorEligible c m = g.constructorEligible c m := rfl

theorem memberEligible_restricted :
    (g.restricted kinds).memberEligible c m plan = g.memberEligible c m plan := rfl

theorem renderMember?_restricted : (g.restricted kinds).renderMember? = g.renderMember? := rfl

theorem renderFunction?_restricted :
    (g.restricted kinds).renderFunction? = g.renderFunction? := rfl

/-- No role has completed tests. -/
theorem generated_not_mem (role : Role) (m : Method) :
    .generated ∉ role.kinds.filter (·.fits m) := by
  intro h
  have hmem := List.mem_of_mem_filter h
  cases role <;> exact absurd hmem (by decide)

theorem filter_restricted (h : .generated ∉ wanted) :
    (g.restricted kinds).catalogue.filter wanted = wanted.filter (kinds.contains ·) := by
  refine List.filter_congr fun kind hkind => ?_
  have hall : kind ∈ ScenarioKind.all := by cases kind <;> decide
  have hne : kind ≠ .generated := fun heq => h (heq ▸ hkind)
  rw [Bool.eq_iff_iff]
  simp [Catalogue.enables, restricted, hall, hne]

/-- Scenarios that are left out are those whose tests are left out. -/
theorem filterMap_restricted (hall : ∀ kind, g.catalogue.enables kind) (h : .generated ∉ wanted)
    {render : ScenarioKind → Option TestArtifact}
    (hrender : ∀ kind a, render kind = some a → a.kind = kind) :
    ((g.restricted kinds).catalogue.filter wanted).filterMap render =
      ((g.catalogue.filter wanted).filterMap render).filter (kinds.contains ·.kind) := by
  rw [filter_restricted h, filter_of_enables hall, List.filter_filterMap, List.filterMap_filter]
  refine List.filterMap_congr fun kind _ => ?_
  cases ha : render kind with
  | none => simp
  | some a => simp [Option.filter, hrender kind a ha]

theorem kind_renderMember? {index : Nat} {given : Option Plan} {q : Request}
    (h : g.renderMember? c index given q = some a) : a.kind = q.kind ∧ a.id = q.id := by
  obtain ⟨d, -, rfl, -⟩ := renderMember?_eq_some h
  exact ⟨rfl, rfl⟩

theorem kind_renderFunction? {index : Nat} {q : Request}
    (h : g.renderFunction? index q = some a) : a.kind = q.kind ∧ a.id = q.id := by
  obtain ⟨d, -, rfl, -⟩ := renderFunction?_eq_some h
  exact ⟨rfl, rfl⟩

theorem forConstructor_restricted (hall : ∀ kind, g.catalogue.enables kind) :
    (g.restricted kinds).forConstructor c m =
      (g.forConstructor c m).filter (kinds.contains ·.kind) := by
  unfold forConstructor
  rw [constructorEligible_restricted, renderMember?_restricted, constructorKinds_eq]
  cases c.methods.idxOf? m with
  | none => rfl
  | some index =>
    dsimp only
    split
    · exact filterMap_restricted hall (generated_not_mem _ m) fun kind a ha =>
        (kind_renderMember? ha).1
    · rfl

theorem forMember_restricted (hall : ∀ kind, g.catalogue.enables kind) :
    (g.restricted kinds).forMember c m plan =
      (g.forMember c m plan).filter (kinds.contains ·.kind) := by
  unfold forMember
  rw [memberEligible_restricted, renderMember?_restricted, forConstructor_restricted hall,
    memberKinds_eq, memberKinds_eq]
  cases c.methods.idxOf? m with
  | none => rfl
  | some index =>
    dsimp only
    split
    · rfl
    · split
      · exact filterMap_restricted hall (generated_not_mem _ m) fun kind a ha =>
          (kind_renderMember? ha).1
      · rfl

theorem forFunction_restricted (hall : ∀ kind, g.catalogue.enables kind) :
    (g.restricted kinds).forFunction f = (g.forFunction f).filter (kinds.contains ·.kind) := by
  have htable : (g.restricted kinds).table = g.table := rfl
  unfold forFunction
  rw [renderFunction?_restricted, htable, staticKinds_eq]
  cases g.table.functions.findIdx? (·.sameAs f) with
  | none => rfl
  | some index =>
    dsimp only
    split
    · rfl
    · exact filterMap_restricted hall (generated_not_mem _ f.signature) fun kind a ha =>
        (kind_renderFunction? ha).1

theorem forClass_restricted (hall : ∀ kind, g.catalogue.enables kind) :
    (g.restricted kinds).forClass c = (g.forClass c).filter (kinds.contains ·.kind) := by
  have hplan : (g.restricted kinds).planOf? c = g.planOf? c := rfl
  unfold forClass
  rw [hplan]
  cases g.planOf? c with
  | none => rfl
  | some plan =>
    dsimp only
    rw [List.filter_flatMap]
    exact List.flatMap_congr fun m _ => forMember_restricted hall

theorem drafts_restricted (hall : ∀ kind, g.catalogue.enables kind) :
    (g.restricted kinds).drafts = g.drafts.filter (kinds.contains ·.kind) := by
  have hclasses : g.table.models.flatMap (g.restricted kinds).forClass =
      (g.table.models.flatMap g.forClass).filter (kinds.contains ·.kind) := by
    rw [List.filter_flatMap]
    exact List.flatMap_congr fun c _ => forClass_restricted hall
  have hfunctions : g.table.functions.flatMap (g.restricted kinds).forFunction =
      (g.table.functions.flatMap g.forFunction).filter (kinds.contains ·.kind) := by
    rw [List.filter_flatMap]
    exact List.flatMap_congr fun f _ => forFunction_restricted hall
  have hrestricted : (g.restricted kinds).drafts =
      g.table.models.flatMap (g.restricted kinds).forClass ++
        if g.catalogue.includeFreeFunctions then
          g.table.functions.flatMap (g.restricted kinds).forFunction
        else [] := rfl
  rw [hrestricted, hclasses, hfunctions, drafts, List.filter_append]
  split <;> rfl

/-- The tests for a table are named for their kinds. -/
theorem endsInMark_drafts (h : a ∈ g.drafts) : EndsInMark a.id (.kind a.kind) := by
  rcases mem_drafts h with ⟨c, -, m, plan, -, ha⟩ | ⟨f, ha⟩
  · obtain ⟨index, kind, _, _, _, _, hrender⟩ := mem_forMember ha
    obtain ⟨hkind, hid⟩ := kind_renderMember? hrender
    rw [hkind, hid]
    exact memberId_ends c m kind
  · obtain ⟨_, _, kind, _, _, hrender⟩ := mem_forFunction ha
    obtain ⟨hkind, hid⟩ := kind_renderFunction? hrender
    rw [hkind, hid]
    exact kindName_ends f.qualifiedName kind

theorem forTable_filter (hall : ∀ kind, g.catalogue.enables kind) :
    (g.restricted kinds).forTable = g.forTable.filter (kinds.contains ·.kind) := by
  have hnone : AgreeOn kinds [] [] := fun _ _ _ _ => Iff.rfl
  rw [forTable_eq, forTable_eq, drafts_restricted hall]
  exact (filter_assignIds hnone fun a ha => endsInMark_drafts ha).symm

/-- To name kinds is to pick among the tests of every kind: those that are left are the same tests
in the same order, down to their names and texts. -/
theorem forTable_restricted (table : ModelTable) (synthesis : SynthesisSettings)
    (completion : CompletionSettings) (root : Path) (kinds : List ScenarioKind) (h : kinds ≠ []) :
    (ofSettings table { synthesis with scenarioKinds := kinds } completion root).forTable =
      (ofSettings table { synthesis with scenarioKinds := [] } completion root).forTable.filter
        (kinds.contains ·.kind) := by
  rw [ofSettings_restricted table synthesis completion root h]
  exact forTable_filter (enables_ofSettings rfl completion)

/-- A method of two signatures. -/
def dial : ModelTable :=
  .readHeaders {} [(⟨⟨"/p/dial.h"⟩, .header⟩,
    "struct Dial \x7b void turn(); void turn(int steps); \x7d;\n")]

/-- Its tests of one kind have the numbers that they have among all. -/
theorem forTable_restricted_dial :
    [ScenarioKind.noThrow] ≠ [] ∧
      (ofSettings dial { ({} : SynthesisSettings) with scenarioKinds := [.noThrow] } {}
        ⟨"/p"⟩).forTable.map (·.id) = ["Dial_turn_NoThrow", "Dial_turn_NoThrow_2"] := by
  refine ⟨by decide, ?_⟩
  rw [forTable_restricted dial {} {} ⟨"/p"⟩ [.noThrow] (by decide)]
  decide +kernel

end Restriction

end Generator

end TestSynth
