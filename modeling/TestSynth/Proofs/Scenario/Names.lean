import TestSynth.Convergence.RunDirectory
import TestSynth.Proofs.Header.WellFormed
import TestSynth.Proofs.Path
import TestSynth.Proofs.Scenario.FirstTests
/-!
The names of new tests. Each is an identifier that nothing else of the same table is named by: not
in the same set of tests, nor in the tests for the table, nor in another round.
-/
namespace TestSynth

open Artifact (isIdentifier_safeIdentifier isIdentifier_append)
open Text (isIdentifier)

/-- The test goes by an identifier, its file is called by that, and so is its line. -/
structure TestArtifact.Filed (a : TestArtifact) : Prop where
  identifier : isIdentifier a.id.toList
  file : a.filePath.text = a.id ++ ".cpp"
  origin : a.recipe.map (·.originId) = some a.id

/-- The directory that a test is built in is a place directly below that of the iteration. -/
theorem TestArtifact.Filed.components_artifactDir {a : TestArtifact} (h : a.Filed)
    (d : RunDirectory) (iteration : Nat) : (d.artifactDir iteration a.id).components =
      (d.iterationDir iteration).components ++ [.name a.id] :=
  Path.components_join h.identifier _

section Names
variable {id : String}

theorem isIdentifier_safeName (label : String) :
    isIdentifier (Artifact.safeName label).toList := by
  rw [Artifact.safeName, String.toList_ofList]
  exact isIdentifier_safeIdentifier label.toList

/-- Plain text at the end leaves an identifier one. -/
theorem isIdentifier_concat {s t : String} (hs : isIdentifier s.toList) (ht : PlainName t) :
    isIdentifier (s ++ t).toList := by
  rw [String.toList_append]
  exact isIdentifier_append hs ht

theorem isIdentifier_freshId (used : List String) (h : isIdentifier id.toList) :
    isIdentifier (freshId used id).toList := by
  rcases freshId_cases used id with hid | ⟨n, hid⟩ <;> rw [hid]
  · exact h
  · exact isIdentifier_concat (isIdentifier_concat h .underscore) (.number n)

end Names

namespace Generator

variable {g : Generator} {c : ClassModel} {index iteration : Nat} {plan : Option Plan}
  {q : Request} {a : TestArtifact}

/-- A test that is asked for under an identifier, of a line of its own. -/
theorem filed_finish (d : Draft) (hid : isIdentifier q.id.toList) (ho : q.originId = none) :
    (g.finish d q).Filed where
  identifier := hid
  file := rfl
  origin := by simp [finish, ho]

theorem filed_renderMember? (h : g.renderMember? c index plan q = some a)
    (hid : isIdentifier q.id.toList) (ho : q.originId = none) : a.Filed := by
  obtain ⟨d, -, rfl, -⟩ := renderMember?_eq_some h
  exact filed_finish d hid ho

theorem filed_renderFunction? (h : g.renderFunction? index q = some a)
    (hid : isIdentifier q.id.toList) (ho : q.originId = none) : a.Filed := by
  obtain ⟨d, -, rfl, -⟩ := renderFunction?_eq_some h
  exact filed_finish d hid ho

end Generator

/-- A test that gets another name is filed under that. -/
theorem TestArtifact.Filed.renamed {a : TestArtifact} (h : a.Filed) (used : List String) :
    (a.renamed (freshId used a.id)).Filed := by
  have hid := isIdentifier_freshId used h.identifier
  unfold TestArtifact.renamed
  split
  · exact h
  · obtain ⟨r, hr, _⟩ := Option.map_eq_some_iff.1 h.origin
    exact ⟨hid, rfl, by simp [hr]⟩

namespace Generator

variable {g : Generator} {c : ClassModel} {iteration : Nat} {a : TestArtifact}
  {wanted : List (ScenarioKind × Flavour)}

theorem filed_forMember {method : Method} {plan : Plan} (h : a ∈ g.forMember c method plan) :
    a.Filed := by
  obtain ⟨_, _, _, _, _, _, hrender⟩ := mem_forMember h
  exact filed_renderMember? hrender (isIdentifier_safeName _) rfl

theorem filed_forFunction {f : FreeFunction} (h : a ∈ g.forFunction f) : a.Filed := by
  obtain ⟨_, _, _, _, _, hrender⟩ := mem_forFunction h
  exact filed_renderFunction? hrender (isIdentifier_safeName _) rfl

theorem filed_refineClass (h : a ∈ g.refineClass wanted iteration c) : a.Filed := by
  obtain ⟨_, _, _, _, _, _, _, _, _, hrender⟩ := mem_refineClass h
  refine filed_renderMember? hrender ?_ rfl
  dsimp only
  rw [append_round]
  exact isIdentifier_concat (isIdentifier_concat (isIdentifier_safeName _) .underscore) (.mark _)

theorem filed_refineFunctions {stems : List String}
    (h : a ∈ g.refineFunctions wanted stems iteration) : a.Filed := by
  obtain ⟨_, _, _, _, _, _, _, hrender⟩ := mem_refineFunctions h
  exact filed_renderFunction? hrender (isIdentifier_safeName _) rfl

theorem filed_forTable (h : a ∈ g.forTable) : a.Filed := by
  obtain ⟨b, used, rfl, ⟨_, _, _, _, _, hb⟩ | ⟨_, hb⟩⟩ := mem_forTable h
  · exact (filed_forMember hb).renamed used
  · exact (filed_forFunction hb).renamed used

theorem filed_refine {s : Snapshot} (h : a ∈ (g.refine s iteration).artifacts) : a.Filed := by
  obtain ⟨b, used, rfl, ⟨_, _, hb⟩ | hb⟩ := mem_refine h
  · exact (filed_refineClass hb).renamed used
  · exact (filed_refineFunctions hb).renamed used

/-- No variant of a round is named like a test for the table. -/
theorem id_ne_of_forTable {b : TestArtifact} {s : Snapshot} (ha : a ∈ g.forTable)
    (hb : b ∈ (g.refine s iteration).artifacts) : a.id ≠ b.id := by
  intro hid
  obtain ⟨k, hk⟩ := firstFor_forTable ha
  have hround := (firstFor_refine hb).marked
  rw [← hid] at hround
  cases hk.marked.unique hround

/-- No variant is named like one of another round. -/
theorem id_ne_of_refine {b : TestArtifact} {s t : Snapshot} {i j : Nat} (hij : i ≠ j)
    (ha : a ∈ (g.refine s i).artifacts) (hb : b ∈ (g.refine t j).artifacts) : a.id ≠ b.id := by
  intro hid
  have hround := (firstFor_refine hb).marked
  rw [← hid] at hround
  cases (firstFor_refine ha).marked.unique hround
  exact hij rfl

/-- The variants of some rounds, each made for its own measurement. -/
def inRounds (g : Generator) (rounds : List (Nat × Snapshot)) : List TestArtifact :=
  rounds.flatMap fun r => (g.refine r.2 r.1).artifacts

theorem inRounds_nodup {rounds : List (Nat × Snapshot)} (h : (rounds.map (·.1)).Nodup) :
    ((g.inRounds rounds).map (·.id)).Nodup := by
  rw [inRounds, List.map_flatMap, List.nodup_flatMap]
  refine ⟨fun r _ => refine_nodup g r.2 r.1, ?_⟩
  refine (List.pairwise_map.1 h).imp fun {r r'} hne => ?_
  intro id hleft hright
  obtain ⟨a, ha, rfl⟩ := List.mem_map.1 hleft
  obtain ⟨b, hb, hid⟩ := List.mem_map.1 hright
  exact id_ne_of_refine hne ha hb hid.symm

/-- The tests for a table and those of rounds with different numbers all have different names,
whatever their classes, methods and functions are called. Each name is an identifier, the one that
the file of the test and its line have, and the directory that the test is built in is directly
below that of the iteration. -/
theorem new_tests_apart (g : Generator) (rounds : List (Nat × Snapshot))
    (h : (rounds.map (·.1)).Nodup) :
    ((g.forTable ++ g.inRounds rounds).map (·.id)).Nodup ∧
      ∀ a ∈ g.forTable ++ g.inRounds rounds, a.Filed ∧ ∀ (d : RunDirectory) (iteration : Nat),
        (d.artifactDir iteration a.id).components =
          (d.iterationDir iteration).components ++ [.name a.id] := by
  constructor
  · rw [List.map_append, List.nodup_append']
    refine ⟨forTable_nodup g, inRounds_nodup h, ?_⟩
    intro id hleft hright
    obtain ⟨a, ha, rfl⟩ := List.mem_map.1 hleft
    obtain ⟨b, hb, hid⟩ := List.mem_map.1 hright
    obtain ⟨r, _, hb⟩ := List.mem_flatMap.1 hb
    exact id_ne_of_forTable ha hb hid.symm
  · intro a ha
    have hfiled : a.Filed := by
      rcases List.mem_append.1 ha with ha | ha
      · exact filed_forTable ha
      · obtain ⟨r, _, ha⟩ := List.mem_flatMap.1 ha
        exact filed_refine ha
    exact ⟨hfiled, hfiled.components_artifactDir⟩

/-- Two methods of one name, and another class whose name looks the same when it is made safe. -/
def lookalikes : Planner :=
  .ofSettings (ModelTable.readHeaders {} [(⟨⟨"/p/a.h"⟩, .header⟩,
    "namespace a \x7b struct B \x7b void at(int); void at(double); \x7d; \x7d\n" ++
      "struct a_B \x7b void at(int); \x7d;\n")]) {} ⟨"/p"⟩

def lookalikeTests : Generator :=
  { table := lookalikes.table, plans := lookalikes.planAll, catalogue := .ofSettings {} {},
    root := ⟨"/p"⟩ }

/-- Their names in two rounds. -/
theorem new_tests_apart_lookalikes :
    (lookalikeTests.inRounds [(1, default), (2, default)]).map (·.id) =
        ["a_B_at_EdgeCases_i1", "a_B_at_EdgeCases_i1_2", "a_B_at_EdgeCases_i1_3",
          "a_B_at_EdgeCases_i2", "a_B_at_EdgeCases_i2_2", "a_B_at_EdgeCases_i2_3"] ∧
      ([(1, default), (2, default)].map fun r : Nat × Snapshot => r.1).Nodup ∧
      ((lookalikeTests.forTable ++
        lookalikeTests.inRounds [(1, default), (2, default)]).map (·.id)).Nodup := by
  have hrounds : ([(1, default), (2, default)].map fun r : Nat × Snapshot => r.1).Nodup := by
    simp
  exact ⟨by decide +kernel, hrounds, (new_tests_apart lookalikeTests _ hrounds).1⟩

end Generator

end TestSynth
