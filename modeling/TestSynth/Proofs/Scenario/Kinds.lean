import TestSynth.Proofs.Scenario.FirstTests
/-!
The kinds in the names of new tests. Before the mark of its round a new test is named for its kind,
which keeps the variants of a round apart from the tests that are completed in it.
-/
namespace TestSynth

open Artifact (EndsIn beforeStamp safeName safeIdentifier)

/-- A name that ends in a kind and the mark of a round. -/
def EndsInKind (id : String) (k : ScenarioKind) (iteration : Nat) : Prop :=
  ∃ x, EndsIn (Mark.kind k).text x ∧ id.toList = x ++ '_' :: (Mark.round iteration).text

/-- The test is named for its kind, whatever mark comes after that. -/
def TestArtifact.NamedForKind (a : TestArtifact) : Prop :=
  beforeStamp a.id.toList = (Mark.kind a.kind).text

namespace EndsInKind

variable {id : String} {k : ScenarioKind} {iteration : Nat}

theorem beforeStamp (h : EndsInKind id k iteration) :
    beforeStamp id.toList = (Mark.kind k).text := by
  obtain ⟨x, hx, hid⟩ := h
  have hround := Artifact.beforeStamp_append x (Mark.round iteration).underscore_not_mem_text
    (Mark.round iteration).not_all_isDigit_text
  rw [hid, hround, hx.lastPart (Mark.kind k).underscore_not_mem_text]

/-- A number at the end leaves the kind. -/
theorem numbered (h : EndsInKind id k iteration) (n : Nat) :
    Artifact.beforeStamp (id ++ "_" ++ toString n).toList = (Mark.kind k).text := by
  obtain ⟨x, hx, hid⟩ := h
  have hround := Artifact.beforeStamp_numbered x (Mark.round iteration).underscore_not_mem_text n
  rw [hx.lastPart (Mark.kind k).underscore_not_mem_text, ← hid] at hround
  simpa [String.toList_append, toList_toString] using hround

/-- The mark of a round after a name that ends in a kind. -/
theorem append (h : EndsInMark id (.kind k)) (iteration : Nat) :
    EndsInKind (id ++ "_i" ++ toString iteration) k iteration := by
  rw [Generator.append_round]
  exact ⟨_, h, toList_append_text id (.round iteration)⟩

/-- Making a name safe leaves the kind and the mark. -/
theorem safeName (label : String) (k : ScenarioKind) (iteration : Nat) :
    EndsInKind (safeName (label ++ "_" ++ k.name ++ "_i" ++ toString iteration)) k iteration := by
  have hkind := Artifact.safeIdentifier_endsIn (Mark.kind k).text_ne_nil
    (Mark.kind k).isAlphanum_text label.toList
  have hround := Artifact.safeIdentifier_append (Mark.kind k).text_ne_nil
    (Mark.kind k).isAlphanum_text label.toList (Mark.round iteration).text_ne_nil
    (Mark.round iteration).isAlphanum_text
  refine ⟨_, hkind, ?_⟩
  rw [← hround, Generator.append_round]
  simp [Artifact.safeName, String.toList_append, Mark.text]

end EndsInKind

namespace TestArtifact

variable {a b : TestArtifact} {iteration : Nat}

theorem renamed_kind (a : TestArtifact) (id : String) : (a.renamed id).kind = a.kind := by
  unfold renamed
  split <;> rfl

theorem namedForKind_renamed (h : EndsInKind a.id a.kind iteration) (used : List String) :
    (a.renamed (freshId used a.id)).NamedForKind := by
  rw [NamedForKind, renamed_id, renamed_kind]
  rcases freshId_cases used a.id with hid | ⟨n, hid⟩ <;> rw [hid]
  · exact h.beforeStamp
  · exact h.numbered n

/-- Tests of one name are of one kind. -/
theorem NamedForKind.kind_eq (ha : a.NamedForKind) (hb : b.NamedForKind) (h : a.id = b.id) :
    a.kind = b.kind := by
  rw [NamedForKind, h] at ha
  exact Mark.kind.inj (Mark.text_injective (ha.symm.trans hb))

end TestArtifact

namespace Generator

variable {g : Generator} {a : TestArtifact} {iteration : Nat}
  {wanted : List (ScenarioKind × Flavour)}

theorem endsInKind_refineClass {c : ClassModel} (h : a ∈ g.refineClass wanted iteration c) :
    EndsInKind a.id a.kind iteration ∧ ∃ v ∈ wanted, a.kind = v.1 := by
  obtain ⟨_, method, _, kind, _, _, _, _, hkind, hrender⟩ := mem_refineClass h
  obtain ⟨d, -, rfl, -⟩ := renderMember?_eq_some hrender
  exact ⟨.append (memberId_ends c method kind) iteration, _, hkind, rfl⟩

theorem endsInKind_refineFunctions {stems : List String}
    (h : a ∈ g.refineFunctions wanted stems iteration) :
    EndsInKind a.id a.kind iteration ∧ ∃ v ∈ wanted, a.kind = v.1 := by
  obtain ⟨f, _, kind, _, _, _, hkind, hrender⟩ := mem_refineFunctions h
  obtain ⟨d, -, rfl, -⟩ := renderFunction?_eq_some hrender
  exact ⟨.safeName f.qualifiedName kind iteration, _, hkind, rfl⟩

/-- No gap calls for a completed test. -/
theorem variants_ne_generated {gaps : List Gap} {v : ScenarioKind × Flavour}
    (h : v ∈ g.variants gaps) : v.1 ≠ .generated := by
  have hmem := List.mem_of_mem_filter h
  simp only [gapVariants, List.mem_append, List.mem_ite_nil_right, List.mem_singleton] at hmem
  rcases hmem with (rfl | ⟨_, rfl⟩) | ⟨_, rfl⟩ <;> decide

/-- The variants of a round are named for their kinds, and none is a completed test. -/
theorem namedForKind_refine {s : Snapshot} (h : a ∈ (g.refine s iteration).artifacts) :
    a.NamedForKind ∧ a.kind ≠ .generated := by
  obtain ⟨b, used, rfl, hb⟩ := mem_refine h
  have hends : EndsInKind b.id b.kind iteration ∧
      ∃ v ∈ g.variants (Gap.ofSample s.uncoveredLines), b.kind = v.1 := by
    rcases hb with ⟨c, _, hb⟩ | hb
    · exact endsInKind_refineClass hb
    · exact endsInKind_refineFunctions hb
  obtain ⟨hends, v, hv, hkind⟩ := hends
  refine ⟨TestArtifact.namedForKind_renamed hends used, ?_⟩
  rw [TestArtifact.renamed_kind, hkind]
  exact variants_ne_generated hv

end Generator

/-- A completed test is named for its method, its kind and its round. -/
theorem CompletionTarget.artifact?_eq_some {t : CompletionTarget} {body : String}
    {iteration : Nat} {a : TestArtifact} (h : t.artifact? body iteration = some a) :
    a.kind = .generated ∧ a.id = safeName (a.className ++ "_" ++ a.methodName ++ "_" ++
      ScenarioKind.generated.name ++ "_i" ++ toString iteration) := by
  obtain ⟨method, _, rfl⟩ := Option.map_eq_some_iff.1 h
  exact ⟨rfl, rfl⟩

theorem CompletionTarget.namedForKind_artifact? {t : CompletionTarget} {body : String}
    {iteration : Nat} {a : TestArtifact} (h : t.artifact? body iteration = some a) :
    a.NamedForKind := by
  obtain ⟨hkind, hid⟩ := artifact?_eq_some h
  rw [TestArtifact.NamedForKind, hkind, hid]
  exact (EndsInKind.safeName _ .generated iteration).beforeStamp

end TestSynth
