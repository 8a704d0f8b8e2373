import TestSynth.Proofs.Scenario.Identity
/-!
The first tests of lines: those for a table, the variants of a round and those from completion.
Each goes by its own name, which tells the kind or the round that it was made for.
-/
namespace TestSynth

/-- The first test of a line: the line goes by its name. -/
structure TestArtifact.First (a : TestArtifact) : Prop where
  origin : a.recipe.map (·.originId) = some a.id
  generation : a.generation = 0
  plain : PlainName a.id

/-- The first test of a line, with a name that was made for that. -/
structure TestArtifact.FirstFor (a : TestArtifact) (m : Mark) : Prop extends a.First where
  marked : MarkedFor a.id m

/-- The first test of a line, before names are kept apart. -/
structure TestArtifact.Drafted (a : TestArtifact) (m : Mark) : Prop extends a.First where
  ends : EndsInMark a.id m

namespace TestArtifact

variable {a : TestArtifact} {id : String}

@[simp] theorem renamed_id (a : TestArtifact) (id : String) : (a.renamed id).id = id := by
  unfold renamed
  split
  · next h => exact (eq_of_beq h).symm
  · rfl

theorem First.renamed (h : a.First) (hid : PlainName id) : (a.renamed id).First where
  origin := by
    rw [renamed_id]
    unfold TestArtifact.renamed
    split
    · next heq => rw [h.origin, eq_of_beq heq]
    · obtain ⟨recipe, hr, _⟩ := Option.map_eq_some_iff.1 h.origin
      simp [hr]
  generation := by
    unfold TestArtifact.renamed
    split <;> exact h.generation
  plain := by rwa [renamed_id]

end TestArtifact

section Names
variable {a b : TestArtifact} {m : Mark} {used : List String} {id : String}
  {tests : List TestArtifact}

/-- One of the numbered names is free, as there are more of them than names in use. -/
theorem exists_numbered_not_mem (used : List String) (id : String) :
    ∃ n ∈ List.range (used.length + 1), id ++ "_" ++ toString (n + 2) ∉ used := by
  by_contra hall
  push Not at hall
  have hsubset : ((List.range (used.length + 1)).map
      fun k => id ++ "_" ++ toString (k + 2)) ⊆ used := by
    intro candidate hmem
    obtain ⟨n, hn, rfl⟩ := List.mem_map.1 hmem
    exact hall n hn
  have hnodup : ((List.range (used.length + 1)).map
      fun k => id ++ "_" ++ toString (k + 2)).Nodup := by
    refine List.nodup_range.map fun i j hij => ?_
    have hlist := congrArg String.toList hij
    simp only [String.toList_append, toList_toString, List.append_cancel_left_eq] at hlist
    exact Nat.add_right_cancel (toDigits_inj hlist)
  have hlength := hnodup.length_le_of_subset hsubset
  rw [List.length_map, List.length_range] at hlength
  omega

theorem freshId_of_not_mem (h : id ∉ used) : freshId used id = id := by
  simp [freshId, h]

/-- A name that is taken gets the least number that makes a free one. -/
theorem freshId_of_mem (h : id ∈ used) : ∃ n, freshId used id = id ++ "_" ++ toString (n + 2) ∧
    id ++ "_" ++ toString (n + 2) ∉ used ∧ ∀ k < n, id ++ "_" ++ toString (k + 2) ∈ used := by
  have hunfold : freshId used id = (((List.range (used.length + 1)).map fun k =>
      id ++ "_" ++ toString (k + 2)).find? (!used.contains ·)).getD id :=
    if_pos (List.contains_iff_mem.2 h)
  rw [hunfold, List.find?_map]
  cases hfind : (List.range (used.length + 1)).find?
      ((!used.contains ·) ∘ fun k => id ++ "_" ++ toString (k + 2)) with
  | none =>
    obtain ⟨n, hn, hfree⟩ := exists_numbered_not_mem used id
    have htaken := List.find?_eq_none.1 hfind n hn
    exact absurd (by simpa using htaken) hfree
  | some n =>
    obtain ⟨hn, -, hbefore⟩ := List.find?_range_eq_some.1 hfind
    exact ⟨n, rfl, by simpa using hn, fun k hk => by simpa using hbefore k hk⟩

/-- A fresh name is the wanted one, or has a number at its end. -/
theorem freshId_cases (used : List String) (id : String) :
    freshId used id = id ∨ ∃ n : Nat, freshId used id = id ++ "_" ++ toString n := by
  by_cases h : id ∈ used
  · obtain ⟨n, hn, -⟩ := freshId_of_mem h
    exact .inr ⟨n + 2, hn⟩
  · exact .inl (freshId_of_not_mem h)

theorem freshId_not_mem (used : List String) (id : String) : freshId used id ∉ used := by
  by_cases h : id ∈ used
  · obtain ⟨n, hn, hfree, -⟩ := freshId_of_mem h
    rwa [hn]
  · rwa [freshId_of_not_mem h]

/-- Names that are kept apart are names of the tests themselves. -/
theorem mem_assignIds (h : b ∈ assignIds used tests) :
    ∃ a ∈ tests, ∃ used, b = a.renamed (freshId used a.id) := by
  induction tests generalizing used with
  | nil => cases h
  | cons a rest ih =>
    rcases List.mem_cons.1 h with rfl | h
    · exact ⟨a, List.mem_cons_self, used, rfl⟩
    · obtain ⟨a', ha', h⟩ := ih h
      exact ⟨a', List.mem_cons_of_mem a ha', h⟩

theorem not_mem_of_mem_assignIds (h : b ∈ assignIds used tests) : b.id ∉ used := by
  induction tests generalizing used with
  | nil => cases h
  | cons a rest ih =>
    rcases List.mem_cons.1 h with rfl | h
    · rw [TestArtifact.renamed_id]
      exact freshId_not_mem used a.id
    · exact fun hmem => ih h (List.mem_cons_of_mem _ hmem)

/-- Keeping names apart keeps them apart. -/
theorem assignIds_nodup (used : List String) (tests : List TestArtifact) :
    ((assignIds used tests).map (·.id)).Nodup := by
  induction tests generalizing used with
  | nil => exact .nil
  | cons a rest ih =>
    rw [assignIds, List.map_cons, List.nodup_cons]
    refine ⟨?_, ih _⟩
    intro hmem
    obtain ⟨b, hb, heq⟩ := List.mem_map.1 hmem
    refine not_mem_of_mem_assignIds hb ?_
    rw [heq, TestArtifact.renamed_id]
    exact List.mem_cons_self

/-- Numbers at the ends of names change nothing about what the tests were made for. -/
theorem TestArtifact.Drafted.renamed (h : a.Drafted m) (used : List String) :
    (a.renamed (freshId used a.id)).FirstFor m := by
  rcases freshId_cases used a.id with hid | ⟨n, hid⟩ <;> rw [hid]
  · exact ⟨h.toFirst.renamed h.plain, by rw [renamed_id]; exact h.ends.markedFor⟩
  · have hplain : PlainName (a.id ++ "_" ++ toString n) :=
      (h.plain.append .underscore).append (.number n)
    exact ⟨h.toFirst.renamed hplain, by rw [renamed_id]; exact h.ends.numbered n⟩

end Names

namespace Generator

variable {g : Generator} {c : ClassModel} {index iteration : Nat} {plan : Option Plan}
  {q : Request} {a b : TestArtifact} {m : Mark}

/-- The test of a member is named after it. -/
theorem renderMember?_eq_some (h : g.renderMember? c index plan q = some a) :
    ∃ d method, a = g.finish d q ∧ c.methods[index]? = some method ∧
      d.className = c.qualifiedName ∧ d.methodName = method.name := by
  obtain ⟨method, hmethod, h⟩ := Option.bind_eq_some_iff.1 h
  dsimp only at h
  split at h
  · exact ⟨_, method, (Option.some.inj h).symm, hmethod, rfl, rfl⟩
  · obtain ⟨body, _, h⟩ := Option.bind_eq_some_iff.1 h
    exact ⟨_, method, (Option.some.inj h).symm, hmethod, rfl, rfl⟩

/-- The test of a function is named after it, and after no class. -/
theorem renderFunction?_eq_some (h : g.renderFunction? index q = some a) :
    ∃ d f, a = g.finish d q ∧ g.table.functions[index]? = some f ∧
      d.className = "" ∧ d.methodName = f.qualifiedName := by
  obtain ⟨f, hf, h⟩ := Option.bind_eq_some_iff.1 h
  exact ⟨_, f, (Option.some.inj h).symm, hf, rfl, rfl⟩

/-- A request that names no origin asks for the first test of a line. -/
theorem drafted_finish (d : Draft) (ho : q.originId = none) (hg : q.generation = 0)
    (hp : PlainName q.id) (hm : EndsInMark q.id m) : (g.finish d q).Drafted m where
  origin := by simp [finish, ho]
  generation := hg
  plain := hp
  ends := hm

theorem drafted_renderMember? (h : g.renderMember? c index plan q = some a)
    (ho : q.originId = none) (hg : q.generation = 0) (hp : PlainName q.id)
    (hm : EndsInMark q.id m) : a.Drafted m := by
  obtain ⟨d, -, rfl, -⟩ := renderMember?_eq_some h
  exact drafted_finish d ho hg hp hm

theorem drafted_renderFunction? (h : g.renderFunction? index q = some a)
    (ho : q.originId = none) (hg : q.generation = 0) (hp : PlainName q.id)
    (hm : EndsInMark q.id m) : a.Drafted m := by
  obtain ⟨d, -, rfl, -⟩ := renderFunction?_eq_some h
  exact drafted_finish d ho hg hp hm

/-- A name that is made for a kind ends in it. -/
theorem kindName_ends (label : String) (kind : ScenarioKind) :
    EndsInMark (Artifact.safeName (label ++ "_" ++ kind.name)) (.kind kind) := by
  have h := EndsInMark.safeName label (.kind kind)
  rwa [Mark.text, String.ofList_toList] at h

theorem memberId_ends (c : ClassModel) (method : Method) (kind : ScenarioKind) :
    EndsInMark (memberId c method kind) (.kind kind) :=
  kindName_ends (c.qualifiedName ++ "_" ++ method.name) kind

section Table
variable {method : Method}

/-- A test that constructs is rendered for a constructor that tests may call. -/
theorem mem_forConstructor (h : a ∈ g.forConstructor c method) :
    ∃ index kind, c.methods[index]? = some method ∧ g.constructorEligible c method = true ∧
      g.renderMember? c index none (.initial (.member index) kind (memberId c method kind)) =
        some a := by
  unfold forConstructor at h
  split at h
  · cases h
  · next index hindex =>
    obtain ⟨hlength, hmethod, -⟩ := List.idxOf?_eq_some_iff.1 hindex
    split at h
    · next heligible =>
      obtain ⟨kind, _, hrender⟩ := List.mem_filterMap.1 h
      exact ⟨index, kind, List.getElem?_eq_some_iff.2 ⟨hlength, hmethod⟩, heligible, hrender⟩
    · cases h

/-- A test of a method is rendered for it, if tests may call it. -/
theorem mem_forMember {plan : Plan} (h : a ∈ g.forMember c method plan) :
    ∃ index kind given, c.methods[index]? = some method ∧
      (g.constructorEligible c method = true ∨ g.memberEligible c method plan = true) ∧
      (∀ known ∈ given, known = plan) ∧
      g.renderMember? c index given (.initial (.member index) kind (memberId c method kind)) =
        some a := by
  unfold forMember at h
  split at h
  · cases h
  · next index hindex =>
    obtain ⟨hlength, hmethod, -⟩ := List.idxOf?_eq_some_iff.1 hindex
    split at h
    · obtain ⟨index, kind, hmethod, heligible, hrender⟩ := mem_forConstructor h
      exact ⟨index, kind, none, hmethod, .inl heligible, by simp, hrender⟩
    · split at h
      · next heligible =>
        obtain ⟨kind, _, hrender⟩ := List.mem_filterMap.1 h
        exact ⟨index, kind, some plan, List.getElem?_eq_some_iff.2 ⟨hlength, hmethod⟩,
          .inr heligible, by simp, hrender⟩
      · cases h

/-- A test of a function is rendered for one of its signature, if tests may call it. -/
theorem mem_forFunction {f : FreeFunction} (h : a ∈ g.forFunction f) :
    ∃ f' index kind, g.table.functions[index]? = some f' ∧
      f'.signature.flags.isVariadic = false ∧
      g.renderFunction? index (.initial (.freeFunction index) kind
        (Artifact.safeName (f.qualifiedName ++ "_" ++ kind.name))) = some a := by
  unfold forFunction at h
  split at h
  · cases h
  · next index hindex =>
    obtain ⟨hlength, hsame, -⟩ := List.findIdx?_eq_some_iff_getElem.1 hindex
    split at h
    · cases h
    · next hvariadic =>
      obtain ⟨kind, _, hrender⟩ := List.mem_filterMap.1 h
      have hsignature : g.table.functions[index].signature = f.signature := by
        simp only [FreeFunction.sameAs, Bool.and_eq_true, beq_iff_eq] at hsame
        exact hsame.1.2
      refine ⟨_, index, kind, List.getElem?_eq_getElem hlength, ?_, hrender⟩
      rw [hsignature]
      simpa using hvariadic

/-- The tests for a table, before their names are kept apart. -/
def drafts (g : Generator) : List TestArtifact :=
  g.table.models.flatMap g.forClass ++
    if g.catalogue.includeFreeFunctions then g.table.functions.flatMap g.forFunction else []

theorem forTable_eq (g : Generator) : g.forTable = assignIds [] g.drafts := rfl

theorem mem_drafts (h : a ∈ g.drafts) :
    (∃ c ∈ g.table.models, ∃ method plan, g.planOf? c = some plan ∧
      a ∈ g.forMember c method plan) ∨ ∃ f, a ∈ g.forFunction f := by
  rcases List.mem_append.1 h with h | h
  · obtain ⟨c, hc, h⟩ := List.mem_flatMap.1 h
    unfold forClass at h
    split at h
    · cases h
    · next plan hplan =>
      obtain ⟨method, _, h⟩ := List.mem_flatMap.1 h
      exact .inl ⟨c, hc, method, plan, hplan, h⟩
  · split at h
    · obtain ⟨f, _, h⟩ := List.mem_flatMap.1 h
      exact .inr ⟨f, h⟩
    · cases h

/-- The tests for a table are those for its classes and functions, under names that are kept
apart. -/
theorem mem_forTable (h : b ∈ g.forTable) :
    ∃ a used, b = a.renamed (freshId used a.id) ∧
      ((∃ c ∈ g.table.models, ∃ method plan, g.planOf? c = some plan ∧
        a ∈ g.forMember c method plan) ∨ ∃ f, a ∈ g.forFunction f) := by
  obtain ⟨a, ha, used, rfl⟩ := mem_assignIds h
  exact ⟨a, used, rfl, mem_drafts ha⟩

theorem drafted_forMember {plan : Plan} (h : a ∈ g.forMember c method plan) :
    ∃ k, a.Drafted (.kind k) := by
  obtain ⟨_, kind, _, _, _, _, hrender⟩ := mem_forMember h
  exact ⟨kind, drafted_renderMember? hrender rfl rfl (.safeName _) (memberId_ends c method kind)⟩

theorem drafted_forFunction {f : FreeFunction} (h : a ∈ g.forFunction f) :
    ∃ k, a.Drafted (.kind k) := by
  obtain ⟨_, _, kind, _, _, hrender⟩ := mem_forFunction h
  exact ⟨kind, drafted_renderFunction? hrender rfl rfl (.safeName _) (kindName_ends _ kind)⟩

/-- The tests for a table are first tests of lines, each marked by its kind. -/
theorem firstFor_forTable (h : a ∈ g.forTable) : ∃ k, a.FirstFor (.kind k) := by
  obtain ⟨b, used, rfl, hb⟩ := mem_forTable h
  have hdrafted : ∃ k, b.Drafted (.kind k) := by
    rcases hb with ⟨_, _, _, _, _, hb⟩ | ⟨_, hb⟩
    · exact drafted_forMember hb
    · exact drafted_forFunction hb
  obtain ⟨k, hk⟩ := hdrafted
  exact ⟨k, hk.renamed used⟩

theorem forTable_nodup (g : Generator) : (g.forTable.map (·.id)).Nodup := assignIds_nodup _ _

end Table

/-- A name with the number of a round at its end. -/
theorem append_round (id : String) (iteration : Nat) : id ++ "_i" ++ toString iteration =
    id ++ "_" ++ String.ofList (Mark.round iteration).text := by
  refine String.toList_inj.1 ?_
  simp [String.toList_append, Mark.text]

section Refinement
variable {wanted : List (ScenarioKind × Flavour)}

/-- A variant of a class is rendered for a method that tests may call. -/
theorem mem_refineClass (h : a ∈ g.refineClass wanted iteration c) :
    ∃ plan method index kind flavour, g.planOf? c = some plan ∧
      c.methods[index]? = some method ∧ g.memberEligible c method plan = true ∧
      (kind, flavour) ∈ wanted ∧ g.renderMember? c index (some plan)
        { target := .member index, kind, flavour, iteration
          id := memberId c method kind ++ "_i" ++ toString iteration
          notes := ["refinement round " ++ toString iteration] } = some a := by
  unfold refineClass at h
  split at h
  · cases h
  · next plan hplan =>
    obtain ⟨⟨method, index⟩, hmethod, h⟩ := List.mem_flatMap.1 h
    dsimp only at h
    split at h
    · cases h
    · next heligible =>
      rw [Bool.or_eq_true, not_or, Bool.not_eq_true', Bool.not_eq_false] at heligible
      obtain ⟨⟨kind, flavour⟩, hkind, hrender⟩ := List.mem_filterMap.1 h
      exact ⟨plan, method, index, kind, flavour, hplan, List.mem_zipIdx_iff_getElem?.1 hmethod,
        heligible.2, hkind, hrender⟩

/-- A variant outside classes is rendered for a function that tests may call. -/
theorem mem_refineFunctions {stems : List String}
    (h : a ∈ g.refineFunctions wanted stems iteration) :
    ∃ f index kind flavour, g.table.functions[index]? = some f ∧
      f.signature.flags.isVariadic = false ∧ (kind, flavour) ∈ wanted ∧
      g.renderFunction? index
        { target := .freeFunction index, kind, flavour, iteration
          id := Artifact.safeName
            (f.qualifiedName ++ "_" ++ kind.name ++ "_i" ++ toString iteration) } =
        some a := by
  obtain ⟨⟨f, index⟩, hf, h⟩ := List.mem_flatMap.1 h
  dsimp only at h
  split at h
  · cases h
  · next heligible =>
    rw [Bool.or_eq_true, not_or, Bool.not_eq_true, Bool.not_eq_true] at heligible
    obtain ⟨⟨kind, flavour⟩, hkind, hrender⟩ := List.mem_filterMap.1 h
    exact ⟨f, index, kind, flavour, List.mem_zipIdx_iff_getElem?.1 hf, heligible.2, hkind, hrender⟩

/-- The variants of a round are those of the classes in focus and of functions, under names that
are kept apart. -/
theorem mem_refine {s : Snapshot} (h : b ∈ (g.refine s iteration).artifacts) :
    ∃ a used, b = a.renamed (freshId used a.id) ∧
      ((∃ c ∈ g.focusClasses s,
        a ∈ g.refineClass (g.variants (Gap.ofSample s.uncoveredLines)) iteration c) ∨
      a ∈ g.refineFunctions (g.variants (Gap.ofSample s.uncoveredLines)) (uncoveredStems s)
        iteration) := by
  obtain ⟨a, ha, used, rfl⟩ := mem_assignIds h
  refine ⟨a, used, rfl, ?_⟩
  rcases List.mem_append.1 ha with ha | ha
  · obtain ⟨c, hc, ha⟩ := List.mem_flatMap.1 ha
    exact .inl ⟨c, hc, ha⟩
  · split at ha
    · exact .inr ha
    · cases ha

theorem drafted_refineClass (h : a ∈ g.refineClass wanted iteration c) :
    a.Drafted (.round iteration) := by
  obtain ⟨_, _, _, _, _, _, _, _, _, hrender⟩ := mem_refineClass h
  refine drafted_renderMember? hrender rfl rfl ?_ ?_ <;> rw [append_round]
  · exact ((PlainName.safeName _).append .underscore).append (.mark (.round iteration))
  · exact .append _ _

theorem drafted_refineFunctions {stems : List String}
    (h : a ∈ g.refineFunctions wanted stems iteration) : a.Drafted (.round iteration) := by
  obtain ⟨_, _, _, _, _, _, _, hrender⟩ := mem_refineFunctions h
  refine drafted_renderFunction? hrender rfl rfl (.safeName _) ?_
  rw [append_round]
  exact .safeName _ _

/-- The variants of a round are first tests of lines, marked by the round. -/
theorem firstFor_refine {s : Snapshot} (h : a ∈ (g.refine s iteration).artifacts) :
    a.FirstFor (.round iteration) := by
  obtain ⟨a, used, rfl, ⟨c, _, ha⟩ | ha⟩ := mem_refine h
  · exact (drafted_refineClass ha).renamed used
  · exact (drafted_refineFunctions ha).renamed used

theorem refine_nodup (g : Generator) (s : Snapshot) (iteration : Nat) :
    ((g.refine s iteration).artifacts.map (·.id)).Nodup := assignIds_nodup _ _

end Refinement

end Generator

/-- A completed test is the first of a line, marked by its round. -/
theorem CompletionTarget.firstFor_artifact? {t : CompletionTarget} {body : String}
    {iteration : Nat} {a : TestArtifact} (h : t.artifact? body iteration = some a) :
    a.FirstFor (.round iteration) := by
  obtain ⟨method, _, rfl⟩ := Option.map_eq_some_iff.1 h
  have hends : EndsInMark (Artifact.safeName (t.model.qualifiedName ++ "_" ++ method.name ++ "_" ++
      ScenarioKind.generated.name ++ "_i" ++ toString iteration)) (.round iteration) := by
    rw [Generator.append_round]
    exact .safeName _ _
  exact ⟨⟨rfl, rfl, .safeName _⟩, hends.markedFor⟩

end TestSynth
