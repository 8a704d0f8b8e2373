import TestSynth.Proofs.Convergence.BuildDirectories
import TestSynth.Proofs.Scenario.Kinds
/-!
What passes from one round of a run to the next. Every survivor and every new variant is compiled
in the next round, and of the completed tests the first of each name.
-/
namespace TestSynth

open Artifact (safeName)

section Names
variable {known known' : List String} {a b : TestArtifact} {tests earlier : List TestArtifact}
  {iteration : Nat}

/-- Of the known names only those of the tests themselves matter. -/
theorem dropKnown_congr (h : ∀ a ∈ tests, a.id ∈ known ↔ a.id ∈ known') :
    dropKnown known tests = dropKnown known' tests := by
  induction tests generalizing known known' with
  | nil => rfl
  | cons a rest ih =>
    have ha := h a List.mem_cons_self
    have hrest : ∀ b ∈ rest, b.id ∈ known ↔ b.id ∈ known' := fun b hb =>
      h b (List.mem_cons_of_mem a hb)
    simp only [dropKnown, List.contains_iff_mem, ha]
    split
    · exact ih hrest
    · refine congrArg (a :: ·) (ih fun b hb => ?_)
      rw [List.mem_cons, List.mem_cons, hrest b hb]

/-- Tests with new names of their own are all kept, and nothing after them is taken for one of
them. -/
theorem dropKnown_append (hnodup : (earlier.map (·.id)).Nodup)
    (hnew : ∀ a ∈ earlier, a.id ∉ known)
    (hlater : ∀ b ∈ tests, b.id ∉ known ∧ ∀ a ∈ earlier, a.id ≠ b.id) :
    dropKnown known (earlier ++ tests) = earlier ++ dropKnown [] tests := by
  induction earlier generalizing known with
  | nil =>
    refine dropKnown_congr fun b hb => ?_
    simp [(hlater b hb).1]
  | cons a rest ih =>
    rw [List.map_cons, List.nodup_cons] at hnodup
    have hkept : known.contains a.id = false := by
      simpa using hnew a List.mem_cons_self
    rw [List.cons_append, dropKnown, hkept, if_neg Bool.false_ne_true]
    refine congrArg (a :: ·) (ih hnodup.2 ?_ ?_)
    · intro b hb
      rw [List.mem_cons, not_or]
      refine ⟨fun heq => hnodup.1 ?_, hnew b (List.mem_cons_of_mem a hb)⟩
      exact List.mem_map.2 ⟨b, hb, heq⟩
    · intro b hb
      obtain ⟨hb, hne⟩ := hlater b hb
      rw [List.mem_cons, not_or]
      exact ⟨⟨(hne a List.mem_cons_self).symm, hb⟩, fun a' ha' =>
        hne a' (List.mem_cons_of_mem a ha')⟩

/-- Nothing is left out exactly when names differ. -/
theorem dropKnown_nil_eq_self_iff : dropKnown [] tests = tests ↔ (tests.map (·.id)).Nodup := by
  constructor
  · intro h
    rw [← h]
    exact dropKnown_nodup [] tests
  · intro h
    have hkept : dropKnown [] (tests ++ []) = tests ++ dropKnown [] [] :=
      dropKnown_append h (by simp) (by simp)
    rwa [dropKnown, List.append_nil] at hkept

/-- A test that is left out has the name of a known or a kept one. -/
theorem exists_mem_dropKnown (ha : a ∈ tests) :
    a.id ∈ known ∨ ∃ b ∈ dropKnown known tests, b.id = a.id := by
  induction tests generalizing known with
  | nil => cases ha
  | cons c rest ih =>
    rw [dropKnown]
    split
    · next hc =>
      rcases List.mem_cons.1 ha with rfl | ha
      · exact .inl (List.contains_iff_mem.1 hc)
      · exact ih ha
    · rcases List.mem_cons.1 ha with rfl | ha
      · exact .inr ⟨a, List.mem_cons_self, rfl⟩
      · have hrest : a.id ∈ c.id :: known ∨ ∃ b ∈ dropKnown (c.id :: known) rest, b.id = a.id :=
          ih ha
        rcases hrest with hmem | ⟨b, hb, heq⟩
        · rcases List.mem_cons.1 hmem with heq | hmem
          · exact .inr ⟨c, List.mem_cons_self, heq.symm⟩
          · exact .inl hmem
        · exact .inr ⟨b, List.mem_cons_of_mem c hb, heq⟩

/-- The first test of a line of the next round is no test of a line that is there already. -/
theorem TestArtifact.InLine.id_ne (ha : a.InLine iteration)
    (hb : b.FirstFor (.round (iteration + 1))) : a.id ≠ b.id := by
  intro heq
  have hb' := hb.inLine (Nat.le_refl (iteration + 1))
  rw [ha.named, hb'.named, lineName_inj (ha.born.mono (Nat.le_succ _)) hb'.born] at heq
  obtain ⟨_, mark, hmark, hfor⟩ := ha.born
  rw [heq.1, hb.toFirst.origin_eq] at hfor
  rw [hfor.unique hb.marked] at hmark
  exact absurd hmark (Nat.not_succ_le_self _)

end Names

namespace Run

variable {σ : Type} {r : Run σ} {w w₁ w₂ w₃ : World σ} {iteration : Nat} {round next : Round}
  {earlier : List IterationRecord} {a b : TestArtifact} {m : Measurement}
  {record : IterationRecord} {s : Snapshot}

/-- A variant and a completed test are of different kinds, which their names tell. -/
theorem id_ne_of_complete (w : World σ)
    (ha : a ∈ (r.generator.refine s iteration).artifacts)
    (hb : b ∈ ((r.complete s iteration).run w).1) : a.id ≠ b.id := by
  intro heq
  obtain ⟨hnamed, hkind⟩ := Generator.namedForKind_refine ha
  obtain ⟨target, body, hmade⟩ := mem_complete w hb
  have hcompleted := CompletionTarget.namedForKind_artifact? hmade
  refine hkind ?_
  rw [hnamed.kind_eq hcompleted heq]
  exact (CompletionTarget.artifact?_eq_some hmade).1

/-- The new tests of a round: all variants, and the completed tests but for repeated names. -/
theorem fresh_eq (w : World σ) (h : Due iteration 1 m.survivors) :
    dropKnown (m.survivors.map (·.id)) ((r.generator.refine s (iteration + 1)).artifacts ++
        ((r.complete s (iteration + 1)).run w).1) =
      (r.generator.refine s (iteration + 1)).artifacts ++
        dropKnown [] ((r.complete s (iteration + 1)).run w).1 := by
  have hnew : ∀ b : TestArtifact, b.FirstFor (.round (iteration + 1)) →
      b.id ∉ m.survivors.map (·.id) := by
    intro b hb hmem
    obtain ⟨a, ha, heq⟩ := List.mem_map.1 hmem
    exact (h.inLine a ha).id_ne hb heq
  refine dropKnown_append (r.generator.refine_nodup s (iteration + 1)) ?_ ?_
  · intro a ha
    exact hnew a (Generator.firstFor_refine ha)
  · intro b hb
    exact ⟨hnew b (firstFor_complete w hb), fun a ha => id_ne_of_complete w ha hb⟩

/-- The first attempt of a round compiles its tests, each of them once. -/
theorem first_batch (r : Run σ) (iteration : Nat) {tests : List TestArtifact} (w : World σ)
    (h : tests ≠ []) : ∃ first later, r.batches iteration tests w = first :: later ∧
      (first.requests.map (·.artifact)).Perm tests := by
  have hattempts := r.batches_attempts iteration tests w
  generalize r.batches iteration tests w = batches at hattempts
  cases hattempts with
  | done => exact absurd rfl h
  | @batch _ _ first later _ now _ =>
    refine ⟨first, later, rfl, ?_⟩
    rw [Batch.requests, List.map_map]
    exact now.artifacts_perm

/-- As many tests compiled as survive. -/
theorem compiled_eq_length {tests : List TestArtifact}
    (h : (r.measure iteration tests).run.run w = (some m, w₁)) :
    m.compiled = m.survivors.length := by
  obtain ⟨hsurvivors, hcompiled⟩ := measure_eq_some h
  rw [hcompiled, hsurvivors, List.length_map]

/-- Of a run that starts from the tests for its table, a round that does not stop is followed by one
that compiles everything that compiled in it, all variants and the first completed test of each
name, all of them under names of their own and in the first attempt. Nothing at all is left out
exactly when the completed tests have different names, which tell class and method and no more, so
that tests completed for overloads have the same. -/
theorem nextRound_keeps (r : Run σ) (w : World σ) {iteration : Nat} {round : Round}
    {earlier : List IterationRecord} {w₁ w₂ w₃ : World σ} {m : Measurement}
    {record : IterationRecord} {next : Round}
    (hreached : r.Reaches r.generator.forTable w iteration round earlier w₁)
    (hobserved : (r.observe iteration round).run.run w₁ = (some (m, record), w₂))
    (hundecided : r.decision iteration m (earlier ++ [record]) = none)
    (hnext : (r.nextRound (iteration + 1) m).run w₂ = (next, w₃)) :
    let compiled := (BuildRound.ofBatches r.generator (r.batches iteration round.tests w₁)).compiled
    let refined := (r.generator.refine m.snapshot (iteration + 1)).artifacts
    let completed := ((r.complete m.snapshot (iteration + 1)).run w₂).1
    m.survivors.Perm (compiled.map (·.artifact)) ∧
      next.tests = m.survivors ++ refined ++ dropKnown [] completed ∧
      (next.tests.map (·.id)).Nodup ∧
      (∃ first later, r.batches (iteration + 1) next.tests w₃ = first :: later ∧
        (first.requests.map (·.artifact)).Perm next.tests) ∧
      (∀ a ∈ completed, a.id = safeName (a.className ++ "_" ++ a.methodName ++ "_" ++
        ScenarioKind.generated.name ++ "_i" ++ toString (iteration + 1)) ∧
          ∃ b ∈ next.tests, b.id = a.id) ∧
      (next.tests = m.survivors ++ refined ++ completed ↔ (completed.map (·.id)).Nodup) := by
  intro compiled refined completed
  obtain ⟨⟨_, hmeasured⟩, _⟩ := observe_eq_some hobserved
  have hsurvivors := due_survivors hreached.due hmeasured
  have htests : next.tests = m.survivors ++ refined ++ dropKnown [] completed := by
    have heq := r.tests_nextRound (iteration + 1) m w₂
    rw [hnext, fresh_eq w₂ hsurvivors, ← List.append_assoc] at heq
    exact heq
  have hsome : next.tests ≠ [] := by
    intro hnil
    rw [htests, List.append_eq_nil_iff, List.append_eq_nil_iff] at hnil
    have hcompiled : m.compiled = 0 := by
      rw [compiled_eq_length hmeasured, hnil.1.1]
      rfl
    rw [decision, if_pos hcompiled] at hundecided
    cases hundecided
  refine ⟨survivors_perm hmeasured, htests, (due_nextRound hsurvivors hnext).ids_nodup,
    r.first_batch (iteration + 1) w₃ hsome, ?_, ?_⟩
  · intro a ha
    obtain ⟨_, _, hmade⟩ := mem_complete w₂ ha
    refine ⟨(CompletionTarget.artifact?_eq_some hmade).2, ?_⟩
    have hkept : a.id ∈ [] ∨ ∃ b ∈ dropKnown [] completed, b.id = a.id := exists_mem_dropKnown ha
    obtain ⟨b, hb, heq⟩ := hkept.resolve_left List.not_mem_nil
    exact ⟨b, htests ▸ List.mem_append_right _ hb, heq⟩
  · rw [htests, List.append_cancel_left_eq]
    exact dropKnown_nil_eq_self_iff

/-- A method that opens a gate with a code. -/
def opening (codeType : String) (isStatic : Bool) : Method where
  name := "open"
  returnType := "void"
  parameters := [⟨codeType, "code", false⟩]
  flags := { isStatic }
  access := .everyone

/-- A gate that opens alone with one type of code, and with another like all gates. -/
def gate : ClassModel where
  name := "Gate"
  scope := ""
  bases := {}
  methods := [opening "int" false, opening "double" true]
  memberVariables := []
  hasDefaultConstructor := true
  isAbstract := false
  header := ⟨⟨"gate.h"⟩, .header⟩
  isStruct := false

/-- A run over a gate. All tests compile, and every prompt is answered with a test. -/
def gatekeeper : Run Unit where
  collaborators :=
    { compile := fun q => pure (.ok (.compiled q.buildDir))
      run := fun _ => pure (.ok { exitCode := some 0 })
      collect := fun _ => pure (.ok {})
      complete? := some fun _ => pure (.ok "TEST(Gate, Opens) \x7b\n\x7d\n") }
  settings := {}
  generator :=
    ⟨ModelTable.insert {} gate, { byClass := OrderedMap.empty.insert "Gate" ⟨gate, .byDefault⟩ },
      ⟨[.edgeCases], false, true, 0⟩, ⟨"."⟩⟩
  context := {}
  runId := "run"

/-- What the first round of that run comes to. -/
def gatekeeperFirst : Option (Measurement × IterationRecord) × World Unit :=
  (gatekeeper.observe 1 (.initial gatekeeper.generator.forTable)).run.run falteringStart

def gatekeeperMeasured : Measurement × IterationRecord := gatekeeperFirst.1.getD default

/-- The tests completed after it. -/
def gatekeeperCompleted : List TestArtifact :=
  ((gatekeeper.complete gatekeeperMeasured.1.snapshot 2).run gatekeeperFirst.2).1

/-- The second round, and the world in which it begins. -/
def gatekeeperSecond : Round × World Unit :=
  (gatekeeper.nextRound 2 gatekeeperMeasured.1).run gatekeeperFirst.2

/-- The first round of that run is not the last. -/
theorem gatekeeper_goes_on :
    gatekeeper.Reaches gatekeeper.generator.forTable ⟨{}, ()⟩ 1
        (.initial gatekeeper.generator.forTable) [] falteringStart ∧
      gatekeeperFirst = (some gatekeeperMeasured, gatekeeperFirst.2) ∧
      gatekeeper.decision 1 gatekeeperMeasured.1 ([] ++ [gatekeeperMeasured.2]) = none := by
  have hrun : gatekeeper.generator.forTable ≠ [] ∧ gatekeeperFirst.1.isSome ∧
      gatekeeper.decision 1 gatekeeperMeasured.1 ([] ++ [gatekeeperMeasured.2]) = none := by
    decide +kernel
  obtain ⟨hsome, hends, hundecided⟩ := hrun
  obtain ⟨observed, hobserved⟩ := Option.isSome_iff_exists.1 hends
  refine ⟨.first faltering_prepared hsome, ?_, hundecided⟩
  rw [gatekeeperMeasured, hobserved, Option.getD_some, ← hobserved]

theorem nextRound_keeps_gatekeeper :
    gatekeeper.Reaches gatekeeper.generator.forTable ⟨{}, ()⟩ 1
        (.initial gatekeeper.generator.forTable) [] falteringStart ∧
      gatekeeperFirst = (some gatekeeperMeasured, gatekeeperFirst.2) ∧
      gatekeeper.decision 1 gatekeeperMeasured.1 ([] ++ [gatekeeperMeasured.2]) = none ∧
      gatekeeperSecond.1.tests = gatekeeperMeasured.1.survivors ++
        (gatekeeper.generator.refine gatekeeperMeasured.1.snapshot 2).artifacts ++
          dropKnown [] gatekeeperCompleted := by
  obtain ⟨hreached, hobserved, hundecided⟩ := gatekeeper_goes_on
  have hnext : gatekeeperSecond = (gatekeeperSecond.1, gatekeeperSecond.2) := Prod.mk.eta.symm
  have h := nextRound_keeps gatekeeper ⟨{}, ()⟩ hreached hobserved hundecided hnext
  exact ⟨hreached, hobserved, hundecided, h.2.1⟩

theorem nextRound_leaves_out_overload :
    gatekeeper.Reaches gatekeeper.generator.forTable ⟨{}, ()⟩ 1
        (.initial gatekeeper.generator.forTable) [] falteringStart ∧
      gatekeeperFirst = (some gatekeeperMeasured, gatekeeperFirst.2) ∧
      gatekeeper.decision 1 gatekeeperMeasured.1 ([] ++ [gatekeeperMeasured.2]) = none ∧
      ∃ a ∈ gatekeeperCompleted, a ∉ gatekeeperSecond.1.tests ∧
        ∀ q ∈ (gatekeeper.batches 2 gatekeeperSecond.1.tests gatekeeperSecond.2).flatMap
          (·.requests), q.artifact ≠ a := by
  obtain ⟨hreached, hobserved, hundecided⟩ := gatekeeper_goes_on
  exact ⟨hreached, hobserved, hundecided, by decide +kernel⟩

end Run

end TestSynth
