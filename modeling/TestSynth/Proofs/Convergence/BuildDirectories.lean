import TestSynth.Proofs.Convergence.RequestedNames
import TestSynth.Proofs.Convergence.Rounds
/-!
The directories that the tests of a run are built in. A run that starts from the tests for a table
has tests of different lines in each of its rounds, so that directories are shared only where names
are.
-/
namespace TestSynth

namespace Path

variable {p q q' : Path}

theorem isAbsolute_plainName {id : String} (h : PlainName id) : Path.isAbsolute ⟨id⟩ = false := by
  refine Bool.eq_false_iff.2 fun habs => ?_
  have hslash : '/' ∈ id.toList := List.mem_of_mem_head? (eq_of_beq habs)
  exact absurd (h '/' hslash) (by decide)

/-- Different names are different places below a directory. -/
theorem join_left_inj (hq : q.isAbsolute = false) (hq' : q'.isAbsolute = false) :
    p.join q = p.join q' ↔ q = q' := by
  refine ⟨fun h => ?_, fun h => by rw [h]⟩
  obtain ⟨text⟩ := q
  obtain ⟨text'⟩ := q'
  simp only [join, hq, hq', Bool.false_eq_true, if_false] at h
  split at h <;>
  · have hlist := congrArg (fun p => p.text.toList) h
    simp only [String.toList_append, List.append_cancel_left_eq] at hlist
    rw [String.toList_inj.1 hlist]

end Path

section Names
variable {b : TestArtifact} {known : List String} {tests : List TestArtifact}

theorem dropKnown_sublist (known : List String) (tests : List TestArtifact) :
    (dropKnown known tests).Sublist tests := by
  induction tests generalizing known with
  | nil => exact .slnil
  | cons a rest ih =>
    rw [dropKnown]
    split
    · exact (ih known).cons a
    · exact (ih _).cons_cons a

theorem not_mem_of_mem_dropKnown (h : b ∈ dropKnown known tests) : b.id ∉ known := by
  induction tests generalizing known with
  | nil => cases h
  | cons a rest ih =>
    rw [dropKnown] at h
    split at h
    · exact ih h
    · next hknown =>
      rcases List.mem_cons.1 h with rfl | h
      · simpa using hknown
      · exact fun hmem => ih h (List.mem_cons_of_mem _ hmem)

theorem dropKnown_nodup (known : List String) (tests : List TestArtifact) :
    ((dropKnown known tests).map (·.id)).Nodup := by
  induction tests generalizing known with
  | nil => exact .nil
  | cons a rest ih =>
    rw [dropKnown]
    split
    · exact ih known
    · rw [List.map_cons, List.nodup_cons]
      refine ⟨?_, ih _⟩
      intro hmem
      obtain ⟨b, hb, heq⟩ := List.mem_map.1 hmem
      refine not_mem_of_mem_dropKnown hb ?_
      rw [heq]
      exact List.mem_cons_self

end Names

namespace Run

variable {σ : Type} {r : Run σ} {w w₁ : World σ} {iteration : Nat} {round : Round}
  {earlier : List IterationRecord} {a : TestArtifact} {m : Measurement} {s : Snapshot}

/-- The batches that the tests of a round are compiled in. -/
def batches (r : Run σ) (iteration : Nat) (tests : List TestArtifact) (w : World σ) :
    List Batch :=
  ((compileBatches r.collaborators r.generator (r.buildContext iteration)
    r.settings.convergence.maxCompileAttempts (tests.map (⟨·, 1⟩))).run w).1

theorem batches_attempts (r : Run σ) (iteration : Nat) (tests : List TestArtifact)
    (w : World σ) : Attempts r.generator (r.buildContext iteration)
      r.settings.convergence.maxCompileAttempts 1 tests (r.batches iteration tests w) :=
  compileBatches_attempts _ _ _ _ _ _ _

/-- The survivors of a measurement are the tests that compiled. -/
theorem survivors_perm {tests : List TestArtifact}
    (h : (r.measure iteration tests).run.run w = (some m, w₁)) :
    m.survivors.Perm ((((r.batches iteration tests w).flatMap (·.verdicts r.generator)).filterMap
      Verdict.compiled?).map (·.artifact)) := by
  rw [(measure_eq_some h).1]
  exact (List.mergeSort_perm _ _).map _

theorem due_survivors {tests : List TestArtifact} (hdue : Due iteration 1 tests)
    (h : (r.measure iteration tests).run.run w = (some m, w₁)) :
    Due iteration 1 m.survivors := by
  have hattempts := r.batches_attempts iteration tests w
  refine Due.perm ⟨fun a ha => ?_, fun _ _ => .inl rfl, ?_⟩ (survivors_perm h)
  · obtain ⟨c, hc, rfl⟩ := List.mem_map.1 ha
    obtain ⟨b, hb, hmem⟩ := Attempts.mem_of_compiled hc
    obtain ⟨n, due, _, now, hnow⟩ := hattempts.due hdue b hb
    exact hnow.inLine _ (now.artifacts_perm.mem_iff.1 hmem)
  · rw [List.map_map]
    exact Multiset.coe_nodup.1
      (Multiset.nodup_of_le hattempts.origins_le (Multiset.coe_nodup.2 hdue.apart))

/-- A completed test is made from a reply about a target. -/
theorem mem_askFor {ask : String → StateM (World σ) (Except Failure String)}
    {uncovered : List UncoveredLine} (targets : List CompletionTarget) (w : World σ)
    (h : a ∈ ((askFor ask uncovered iteration targets).run w).1) :
    ∃ target body, target ∈ targets ∧ target.artifact? body iteration = some a := by
  induction targets generalizing w with
  | nil => cases h
  | cons target rest ih =>
    rw [askFor, StateT.run_bind] at h
    cases hreply : (ask (target.prompt uncovered)).run w with
    | mk reply w₁ =>
      rw [hreply] at h
      cases reply with
      | error => cases h
      | ok reply =>
        rcases List.mem_append.1 h with h | h
        · obtain ⟨body, _, ha⟩ := Option.bind_eq_some_iff.1 (Option.mem_toList.1 h)
          exact ⟨target, body, List.mem_cons_self, ha⟩
        · obtain ⟨target', body, hmem, ha⟩ := ih w₁ h
          exact ⟨target', body, List.mem_cons_of_mem target hmem, ha⟩

theorem mem_complete (w : World σ) (h : a ∈ ((r.complete s iteration).run w).1) :
    ∃ (target : CompletionTarget) (body : String), target.artifact? body iteration = some a := by
  unfold complete at h
  split at h
  · cases h
  · split at h
    · obtain ⟨target, body, _, ha⟩ := mem_askFor _ w h
      exact ⟨target, body, ha⟩
    · cases h

theorem firstFor_complete (w : World σ) (h : a ∈ ((r.complete s iteration).run w).1) :
    a.FirstFor (.round iteration) := by
  obtain ⟨_, _, ha⟩ := mem_complete w h
  exact CompletionTarget.firstFor_artifact? ha

/-- The tests of the next round: the survivors and new ones. -/
theorem tests_nextRound (r : Run σ) (iteration : Nat) (m : Measurement) (w : World σ) :
    ((r.nextRound iteration m).run w).1.tests = m.survivors ++ dropKnown (m.survivors.map (·.id))
      ((r.generator.refine m.snapshot iteration).artifacts ++
        ((r.complete m.snapshot iteration).run w).1) := rfl

/-- New tests are of new lines, which are marked by their round. -/
theorem due_nextRound {next : Round} (h : Due iteration 1 m.survivors)
    (hn : (r.nextRound (iteration + 1) m).run w = (next, w₁)) :
    Due (iteration + 1) 1 next.tests := by
  have htests := r.tests_nextRound (iteration + 1) m w
  rw [hn] at htests
  rw [htests]
  let new := (r.generator.refine m.snapshot (iteration + 1)).artifacts ++
    ((r.complete m.snapshot (iteration + 1)).run w).1
  let fresh := dropKnown (m.survivors.map (·.id)) new
  have hfresh : ∀ a ∈ fresh, a.FirstFor (.round (iteration + 1)) := by
    intro a ha
    rcases List.mem_append.1 ((dropKnown_sublist _ _).subset ha) with ha | ha
    · exact Generator.firstFor_refine ha
    · exact firstFor_complete w ha
  have horigins : fresh.map (·.origin) = fresh.map (·.id) :=
    List.map_congr_left fun a ha => (hfresh a ha).toFirst.origin_eq
  refine ⟨fun a ha => ?_, fun _ _ => .inl rfl, ?_⟩
  · rcases List.mem_append.1 ha with ha | ha
    · exact (h.inLine a ha).mono (Nat.le_succ _)
    · exact (hfresh a ha).inLine (Nat.le_refl _)
  · rw [List.map_append]
    refine List.Nodup.append h.apart (horigins ▸ dropKnown_nodup _ _) fun origin ho ho' => ?_
    obtain ⟨a, ha, rfl⟩ := List.mem_map.1 ho
    obtain ⟨b, hb, heq⟩ := List.mem_map.1 ho'
    obtain ⟨_, mark, hmark, hfor⟩ := (h.inLine a ha).born
    have hb' := (hfresh b hb).marked
    rw [← (hfresh b hb).toFirst.origin_eq, heq] at hb'
    rw [hfor.unique hb'] at hmark
    exact absurd hmark (Nat.not_succ_le_self _)

/-- The tests for a table are of different lines. -/
theorem due_forTable (g : Generator) : Due 1 1 g.forTable where
  inLine a ha := by
    obtain ⟨k, hk⟩ := Generator.firstFor_forTable ha
    exact hk.inLine trivial
  due _ _ := .inl rfl
  apart := by
    have horigins : g.forTable.map (·.origin) = g.forTable.map (·.id) := by
      refine List.map_congr_left fun a ha => ?_
      obtain ⟨_, hk⟩ := Generator.firstFor_forTable ha
      exact hk.toFirst.origin_eq
    rw [horigins]
    exact g.forTable_nodup

/-- In every round that a run gets to, the tests are of different lines. -/
theorem Reaches.due (h : r.Reaches r.generator.forTable w iteration round earlier w₁) :
    Due iteration 1 round.tests := by
  induction h with
  | first => exact due_forTable r.generator
  | next _ observed _ made ih =>
    obtain ⟨⟨_, hm⟩, _⟩ := observe_eq_some observed
    exact due_nextRound (due_survivors ih hm) made

/-- Directories are apart where names are. -/
theorem requestedDirs_nodup_iff {tests : List TestArtifact} (hdue : Due iteration 1 tests) :
    (requestedDirs (r.batches iteration tests w)).Nodup ↔
      (requestedIds (r.batches iteration tests w)).Nodup := by
  have hdirs : requestedDirs (r.batches iteration tests w) =
      (requestedIds (r.batches iteration tests w)).map fun id =>
        (r.buildContext iteration).iterationDir.join ⟨id⟩ := by
    rw [requestedDirs, requestedIds, List.map_map]
    exact List.map_congr_left fun q hq =>
      ((r.batches_attempts iteration tests w).mem_requests hdue hq).2
  have hrelative : ∀ id ∈ requestedIds (r.batches iteration tests w),
      Path.isAbsolute ⟨id⟩ = false := by
    intro id hid
    obtain ⟨q, hq, rfl⟩ := List.mem_map.1 hid
    exact Path.isAbsolute_plainName
      ((r.batches_attempts iteration tests w).mem_requests hdue hq).1.plain
  rw [hdirs]
  refine ⟨List.Nodup.of_map _, fun h => h.map_on fun id hid id' hid' heq => ?_⟩
  exact congrArg Path.text
    ((Path.join_left_inj (hrelative id hid) (hrelative id' hid')).1 heq)

/-- Of a run that starts from the tests for its table, the tests that a round asks to compile have
names of their own and directories of their own exactly when none of them is replaced again, and a
replacement has the name of the test that it replaces exactly then. -/
theorem requests_apart_iff (r : Run σ) (w : World σ) {iteration : Nat} {round : Round}
    {earlier : List IterationRecord} {w₁ : World σ}
    (h : r.Reaches r.generator.forTable w iteration round earlier w₁) :
    let batches := r.batches iteration round.tests w₁
    ((requestedIds batches).Nodup ↔ ∀ b ∈ batches, ¬ b.ReplacesAgain r.generator) ∧
      ((requestedDirs batches).Nodup ↔ ∀ b ∈ batches, ¬ b.ReplacesAgain r.generator) ∧
      ∀ b ∈ batches, ∀ d ∈ b.deliveries, ∀ p, b.verdict r.generator d = .replaced p →
        (p.artifact.id = d.1.artifact.id ↔
          b.attempt d = 1 ∧ d.1.artifact.generation = 1) := by
  intro batches
  have hattempts := r.batches_attempts iteration round.tests w₁
  have hids := hattempts.requestedIds_nodup_iff h.due
  refine ⟨hids, (requestedDirs_nodup_iff h.due).trans hids, ?_⟩
  intro b hb d hd p hv
  obtain ⟨_, _, _, now, hnow⟩ := hattempts.due h.due b hb
  exact now.id_eq_iff hnow hd hv

/-- A run over one function. Its tests do not compile, their replacements do, but in the second
round only under other names. -/
def faltering : Run Unit where
  collaborators :=
    { compile := fun q => pure <|
        if q.artifact.generation = 0 ∨ q.buildDir = ⟨"output/iter-002/twice_ReturnValue_g1"⟩ then
          .ok (.failed "")
        else .ok (.compiled q.buildDir)
      run := fun _ => pure (.ok { exitCode := some 0 })
      collect := fun _ => pure (.ok {}) }
  settings := {}
  generator :=
    ⟨{ functions := [⟨"", { name := "twice", returnType := "int", parameters := [⟨"int", "x", false⟩]
                            flags := {}, access := .everyone }, ⟨⟨"twice.h"⟩, .header⟩⟩] },
      {}, ⟨[.returnValue], true, false, 0⟩, ⟨"."⟩⟩
  context := {}
  runId := "run"

def falteringStart : World Unit := (faltering.prepare.run ⟨{}, ()⟩).2

theorem faltering_prepared : faltering.prepare.run ⟨{}, ()⟩ = (.ok (), falteringStart) :=
  Prod.ext (by decide +kernel) rfl

theorem faltering_reaches_first : faltering.Reaches faltering.generator.forTable ⟨{}, ()⟩ 1
    (.initial faltering.generator.forTable) [] falteringStart :=
  .first faltering_prepared (by decide +kernel)

theorem requests_apart_iff_faltering :
    faltering.Reaches faltering.generator.forTable ⟨{}, ()⟩ 1
        (.initial faltering.generator.forTable) [] falteringStart ∧
      ((requestedIds (faltering.batches 1 faltering.generator.forTable falteringStart)).Nodup ↔
        ∀ b ∈ faltering.batches 1 faltering.generator.forTable falteringStart,
          ¬ b.ReplacesAgain faltering.generator) :=
  ⟨faltering_reaches_first, (requests_apart_iff faltering ⟨{}, ()⟩ faltering_reaches_first).1⟩

/-- What the first round of the run comes to. -/
def falteringFirst : Option (Measurement × IterationRecord) × World Unit :=
  (faltering.observe 1 (.initial faltering.generator.forTable)).run.run falteringStart

theorem falteringFirst_isSome : falteringFirst.1.isSome := by decide +kernel

def falteringSecond : Round × World Unit :=
  (faltering.nextRound 2 (falteringFirst.1.get falteringFirst_isSome).1).run falteringFirst.2

theorem requests_collide_in_faltering : ∃ earlier,
    faltering.Reaches faltering.generator.forTable ⟨{}, ()⟩ 2 falteringSecond.1 earlier
        falteringSecond.2 ∧
      requestedIds (faltering.batches 2 falteringSecond.1.tests falteringSecond.2) =
        ["twice_ReturnValue_g1", "twice_ReturnValue_g1"] ∧
      ¬ (requestedDirs (faltering.batches 2 falteringSecond.1.tests falteringSecond.2)).Nodup := by
  have hobserved : falteringFirst = (some (falteringFirst.1.get falteringFirst_isSome),
      falteringFirst.2) := by rw [Option.some_get]
  have hreached := faltering_reaches_first.next hobserved (by decide +kernel) rfl
  have hids : requestedIds (faltering.batches 2 falteringSecond.1.tests falteringSecond.2) =
      ["twice_ReturnValue_g1", "twice_ReturnValue_g1"] := by decide +kernel
  refine ⟨_, hreached, hids, fun hdirs => ?_⟩
  have hapart : (requestedIds (faltering.batches 2 falteringSecond.1.tests
      falteringSecond.2)).Nodup := (requestedDirs_nodup_iff hreached.due).1 hdirs
  rw [hids] at hapart
  exact absurd hapart (by decide)

end Run

end TestSynth
