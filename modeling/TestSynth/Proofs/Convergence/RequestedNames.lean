import TestSynth.Proofs.Convergence.Lines
import TestSynth.Proofs.Scenario.Lineage
/-!
The names that the attempts of a round ask to compile. They are apart, unless a test that is a first
replacement already is replaced in the first attempt: its replacement gets the same name.
-/
namespace TestSynth

variable {g : Generator} {context : BuildContext} {maxAttempts attempt iteration : Nat}
  {pending tests : List TestArtifact} {batches : List Batch} {b : Batch} {a t : TestArtifact}
  {p : PendingTest} {d : Delivery}

/-- Tests of different lines, each of them due in the attempt. -/
structure Due (iteration attempt : Nat) (pending : List TestArtifact) : Prop where
  inLine : ∀ a ∈ pending, a.InLine iteration
  due : ∀ a ∈ pending, attempt = 1 ∨ a.generation + 1 = attempt
  apart : (pending.map (·.origin)).Nodup

theorem Due.perm (h : Due iteration attempt pending) (hp : tests.Perm pending) :
    Due iteration attempt tests where
  inLine a ha := h.inLine a (hp.mem_iff.1 ha)
  due a ha := h.due a (hp.mem_iff.1 ha)
  apart := ((hp.map _).nodup_iff).2 h.apart

theorem Due.ids_nodup (h : Due iteration attempt pending) : (pending.map (·.id)).Nodup := by
  refine List.Nodup.map_on (fun a ha a' ha' heq => ?_) (List.Nodup.of_map _ h.apart)
  have hl := h.inLine a ha
  have hl' := h.inLine a' ha'
  rw [hl.named, hl'.named, lineName_inj hl.born hl'.born] at heq
  exact List.inj_on_of_nodup_map h.apart ha ha' heq.1

namespace Batch

/-- The lines that end as compiled in a batch and those that go on are lines of the batch. -/
theorem origins_le (g : Generator) (b : Batch) (deliveries : List Delivery) :
    (((deliveries.map (b.verdict g)).filterMap Verdict.compiled?).map
        (·.artifact.origin) : Multiset String) +
      (((deliveries.map (b.verdict g)).filterMap Verdict.replacement?).map
        (·.artifact.origin) : List String) ≤
      (deliveries.map (·.1.artifact.origin) : List String) := by
  induction deliveries with
  | nil => exact le_rfl
  | cons d ds ih =>
    simp only [List.map_cons, List.filterMap_cons]
    rcases g.judge_cases b.maxAttempts (b.attempt d) d with
      ⟨t, hv, ha, _⟩ | ⟨t, hv, _⟩ | ⟨t, diagnostics, hv, _, hr⟩
    all_goals replace hv : b.verdict g d = _ := hv
    · simp only [hv, Verdict.compiled?, Verdict.replacement?, List.map_cons, ha,
        ← Multiset.cons_coe, Multiset.cons_add]
      exact Multiset.cons_le_cons _ ih
    · simp only [hv, Verdict.compiled?, Verdict.replacement?, ← Multiset.cons_coe]
      exact ih.trans (Multiset.le_cons_self _ _)
    · simp only [hv, Verdict.compiled?, Verdict.replacement?, List.map_cons,
        Generator.origin_regenerate? hr, ← Multiset.cons_coe, Multiset.add_cons]
      exact Multiset.cons_le_cons _ ih

/-- A replacement is made from the test that it replaces. -/
theorem regenerate?_of_verdict (h : b.verdict g d = .replaced p) :
    ∃ diagnostics, g.regenerate? d.1.artifact diagnostics (b.attempt d) = some p.artifact := by
  rcases g.judge_cases b.maxAttempts (b.attempt d) d with
    ⟨_, hv, _⟩ | ⟨_, hv, _⟩ | ⟨t, diagnostics, hv, _, hr⟩
  all_goals cases h.symm.trans hv
  exact ⟨diagnostics, hr⟩

/-- A replacement is found among those of its batch. -/
theorem mem_replaced_of_verdict (hd : d ∈ b.deliveries) (hv : b.verdict g d = .replaced p) :
    p.artifact ∈ b.replaced g :=
  List.mem_map_of_mem (List.mem_filterMap.2 ⟨_, List.mem_map_of_mem hd, by rw [hv]; rfl⟩)

namespace Compiles

/-- A replacement is of the line of the test that it replaces, and of the generation of the
attempt. -/
theorem replaced_of_mem (h : b.Compiles context maxAttempts attempt tests)
    (hdue : Due iteration attempt tests) (ht : t ∈ b.replaced g) :
    t.InLine iteration ∧ t.generation = attempt ∧
      ∃ d ∈ b.deliveries, (∃ p, b.verdict g d = .replaced p) ∧
        t.origin = d.1.artifact.origin ∧ d.1.artifact.generation ≤ 1 := by
  obtain ⟨p, hp, rfl⟩ := List.mem_map.1 ht
  obtain ⟨d, hd, hv, _, _, _, hr⟩ := mem_replacements hp
  rw [h.attempt_eq hd] at hr
  have hmem := h.artifacts_perm.mem_iff.1 (List.mem_map_of_mem hd)
  have hline := hdue.inLine _ hmem
  obtain ⟨hin, hgen, horigin⟩ := Generator.inLine_regenerate? hline (hdue.due _ hmem) hr
  exact ⟨hin, hgen, d, hd, ⟨p, hv⟩, horigin, Generator.generation_le_one hline hr⟩

/-- The replacements of tests that are due are due in the next attempt. -/
theorem due_replaced (h : b.Compiles context maxAttempts attempt tests)
    (hdue : Due iteration attempt tests) : Due iteration (attempt + 1) (b.replaced g) where
  inLine t ht := (h.replaced_of_mem hdue ht).1
  due t ht := .inr (by rw [(h.replaced_of_mem hdue ht).2.1])
  apart := by
    have hle := (Multiset.le_add_left _ _).trans (origins_le g b b.deliveries)
    have hapart := (hdue.perm h.artifacts_perm).apart
    rw [List.map_map] at hapart
    rw [replaced, List.map_map]
    exact Multiset.coe_nodup.1 (Multiset.nodup_of_le hle (Multiset.coe_nodup.2 hapart))

/-- A replacement has the name of the test that it replaces exactly when a first replacement is
replaced in the first attempt. -/
theorem id_eq_iff (h : b.Compiles context maxAttempts attempt tests)
    (hdue : Due iteration attempt tests) (hd : d ∈ b.deliveries)
    (hv : b.verdict g d = .replaced p) :
    p.artifact.id = d.1.artifact.id ↔ b.attempt d = 1 ∧ d.1.artifact.generation = 1 := by
  obtain ⟨diagnostics, hr⟩ := regenerate?_of_verdict hv
  have hmem := h.artifacts_perm.mem_iff.1 (List.mem_map_of_mem hd)
  rw [h.attempt_eq hd] at hr ⊢
  exact Generator.id_regenerate?_eq_iff (hdue.inLine _ hmem) (hdue.due _ hmem) hr

end Compiles

end Batch

/-- The names of the tests that batches ask to compile, in the order of the answers. -/
def requestedIds (batches : List Batch) : List String :=
  (batches.flatMap (·.requests)).map (·.artifact.id)

/-- The directories that batches ask to build in. -/
def requestedDirs (batches : List Batch) : List Path :=
  (batches.flatMap (·.requests)).map (·.buildDir)

namespace Attempts

theorem requestedIds_cons (b : Batch) (later : List Batch) : requestedIds (b :: later) =
    b.deliveries.map (·.1.artifact.id) ++ requestedIds later := by
  simp [requestedIds, Batch.requests]

/-- Every batch compiles tests that are due. -/
theorem due (h : Attempts g context maxAttempts attempt pending batches)
    (hdue : Due iteration attempt pending) :
    ∀ b ∈ batches, ∃ n tests, attempt ≤ n ∧ b.Compiles context maxAttempts n tests ∧
      Due iteration n tests := by
  induction h with
  | done => simp
  | batch _ now _ ih =>
    intro b hb
    rcases List.mem_cons.1 hb with rfl | hb
    · exact ⟨_, _, Nat.le_refl _, now, hdue⟩
    · obtain ⟨n, tests, hn, hlater⟩ := ih (now.due_replaced hdue) b hb
      exact ⟨n, tests, Nat.le_of_succ_le hn, hlater⟩

/-- The compiled tests are of different lines that were pending. -/
theorem origins_le (h : Attempts g context maxAttempts attempt pending batches) :
    (((batches.flatMap (·.verdicts g)).filterMap Verdict.compiled?).map
        (·.artifact.origin) : Multiset String) ≤
      (pending.map (·.origin) : List String) := by
  induction h with
  | done => exact le_rfl
  | @batch attempt pending b later _ now _ ih =>
    have hperm := now.artifacts_perm.map (·.origin)
    rw [List.map_map] at hperm
    rw [← Multiset.coe_eq_coe.2 hperm]
    rw [Batch.replaced, List.map_map] at ih
    simp only [List.flatMap_cons, List.filterMap_append, List.map_append, ← Multiset.coe_add]
    exact (add_le_add_right ih _).trans (Batch.origins_le g b b.deliveries)

/-- A compiled test is one of a batch. -/
theorem mem_of_compiled {c : CompiledTest}
    (hc : c ∈ (batches.flatMap (·.verdicts g)).filterMap Verdict.compiled?) :
    ∃ b ∈ batches, c.artifact ∈ b.deliveries.map (·.1.artifact) := by
  obtain ⟨v, hv, hc⟩ := List.mem_filterMap.1 hc
  obtain ⟨b, hb, hv⟩ := List.mem_flatMap.1 hv
  obtain ⟨d, hd, rfl⟩ := List.mem_map.1 hv
  refine ⟨b, hb, ?_⟩
  rcases g.judge_cases b.maxAttempts (b.attempt d) d with
    ⟨t, hv, ha, _⟩ | ⟨_, hv, _⟩ | ⟨_, _, hv, _⟩
  all_goals
    rw [Batch.verdict, hv] at hc
    cases hc
  exact ha ▸ List.mem_map_of_mem hd

theorem mem_requestedIds (h : Attempts g context maxAttempts attempt pending batches)
    (ha : a ∈ pending) : a.id ∈ requestedIds batches := by
  cases h with
  | done => cases ha
  | batch _ now _ =>
    rw [requestedIds_cons, List.mem_append]
    obtain ⟨d, hd, rfl⟩ := List.mem_map.1 (now.artifacts_perm.mem_iff.2 ha)
    exact .inl (List.mem_map_of_mem hd)

/-- From an attempt on whose tests are all of its generation, names are apart, and tell lines that
were pending and generations from there on. -/
theorem requestedIds_nodup (h : Attempts g context maxAttempts attempt pending batches)
    (hdue : Due iteration attempt pending) (hg : ∀ a ∈ pending, a.generation + 1 = attempt) :
    (requestedIds batches).Nodup ∧
      ∀ id ∈ requestedIds batches, ∃ a ∈ pending, ∃ n, attempt ≤ n + 1 ∧
        id = lineName a.origin n := by
  induction h with
  | done => simp [requestedIds]
  | @batch attempt pending b later _ now rest ih =>
    obtain ⟨hlater, htell⟩ := ih (now.due_replaced hdue) fun t ht => by
      rw [(now.replaced_of_mem hdue ht).2.1]
    have hids := now.artifacts_perm.map (·.id)
    rw [List.map_map] at hids
    rw [requestedIds_cons]
    constructor
    · refine List.Nodup.append (hids.nodup_iff.2 hdue.ids_nodup) hlater fun id hid hid' => ?_
      obtain ⟨a, ha, rfl⟩ := List.mem_map.1 (hids.mem_iff.1 hid)
      obtain ⟨t, ht, n, hn, heq⟩ := htell _ hid'
      have hl := hdue.inLine a ha
      have hb := (now.replaced_of_mem hdue ht).1.born
      rw [hl.named, lineName_inj hl.born hb] at heq
      have := hg a ha
      omega
    · intro id hid
      rcases List.mem_append.1 hid with hid | hid
      · obtain ⟨a, ha, rfl⟩ := List.mem_map.1 (hids.mem_iff.1 hid)
        exact ⟨a, ha, a.generation, by rw [hg a ha], (hdue.inLine a ha).named⟩
      · obtain ⟨t, ht, n, hn, rfl⟩ := htell id hid
        obtain ⟨_, _, d, hd, _, horigin, _⟩ := now.replaced_of_mem hdue ht
        have hmem := now.artifacts_perm.mem_iff.1 (List.mem_map_of_mem hd)
        exact ⟨_, hmem, n, by omega, by rw [horigin]⟩

end Attempts

/-- In the first attempt a test is replaced that is a first replacement itself. -/
def Batch.ReplacesAgain (g : Generator) (b : Batch) : Prop :=
  ∃ d ∈ b.deliveries, b.attempt d = 1 ∧ d.1.artifact.generation = 1 ∧
    ∃ p, b.verdict g d = .replaced p

namespace Attempts

/-- The names of a first batch and of those after it are apart, unless it replaces again. -/
theorem disjoint_requestedIds {later : List Batch}
    (now : b.Compiles context maxAttempts 1 tests) (hdue : Due iteration 1 tests)
    (hagain : ¬ b.ReplacesAgain g)
    (htell : ∀ id ∈ requestedIds later, ∃ t ∈ b.replaced g, ∃ n, 1 + 1 ≤ n + 1 ∧
      id = lineName t.origin n) :
    (b.deliveries.map (·.1.artifact.id)).Disjoint (requestedIds later) := by
  intro id hid hid'
  have hnow := hdue.perm now.artifacts_perm
  obtain ⟨d, hd, rfl⟩ := List.mem_map.1 hid
  obtain ⟨t, ht, n, hn, heq⟩ := htell _ hid'
  obtain ⟨hline, _, d', hd', hv, horigin, hone⟩ := now.replaced_of_mem hdue ht
  have hl := hnow.inLine _ (List.mem_map_of_mem hd)
  rw [hl.named, lineName_inj hl.born hline.born, horigin] at heq
  -- There is one test of a line, so that this one is the one that is replaced.
  have hsame : d.1.artifact = d'.1.artifact := List.inj_on_of_nodup_map hnow.apart
    (List.mem_map_of_mem hd) (List.mem_map_of_mem hd') heq.1
  have hgen : d'.1.artifact.generation = 1 := by
    rw [← hsame] at hone ⊢
    omega
  exact hagain ⟨d', hd', now.attempt_eq hd', hgen, hv⟩

/-- The names that a round asks to compile are apart exactly when nothing is replaced again. -/
theorem requestedIds_nodup_iff (h : Attempts g context maxAttempts 1 pending batches)
    (hdue : Due iteration 1 pending) :
    (requestedIds batches).Nodup ↔ ∀ b ∈ batches, ¬ b.ReplacesAgain g := by
  cases h with
  | done => simp [requestedIds]
  | @batch _ _ b later _ now rest =>
    have hids := (hdue.perm now.artifacts_perm).ids_nodup
    rw [List.map_map] at hids
    rw [requestedIds_cons]
    constructor
    · intro hnodup b' hb hagain
      obtain ⟨d, hd, hone, hgen, p, hv⟩ := hagain
      rcases List.mem_cons.1 hb with rfl | hb
      · have heq := (now.id_eq_iff hdue hd hv).2 ⟨hone, hgen⟩
        have hlater := rest.mem_requestedIds (Batch.mem_replaced_of_verdict hd hv)
        exact (List.disjoint_of_nodup_append hnodup) (List.mem_map_of_mem hd) (heq ▸ hlater)
      · obtain ⟨n, _, hn, hlater, _⟩ := rest.due (now.due_replaced hdue) b' hb
        rw [hlater.attempt_eq hd] at hone
        omega
    · intro hagain
      obtain ⟨hlater, htell⟩ := rest.requestedIds_nodup (now.due_replaced hdue)
        fun t ht => by rw [(now.replaced_of_mem hdue ht).2.1]
      exact List.Nodup.append hids hlater
        (disjoint_requestedIds now hdue (hagain _ List.mem_cons_self) htell)

/-- Every request is for a test that is due, in the directory of its name. -/
theorem mem_requests (h : Attempts g context maxAttempts attempt pending batches)
    (hdue : Due iteration attempt pending) {q : CompileRequest}
    (hq : q ∈ batches.flatMap (·.requests)) :
    q.artifact.InLine iteration ∧ q.buildDir = context.iterationDir.join ⟨q.artifact.id⟩ := by
  obtain ⟨b, hb, hq⟩ := List.mem_flatMap.1 hq
  obtain ⟨n, tests, _, now, hnow⟩ := h.due hdue b hb
  obtain ⟨d, hd, rfl⟩ := List.mem_map.1 hq
  obtain ⟨a, ha, heq⟩ := now.request_of_mem hd
  rw [heq]
  exact ⟨hnow.inLine a ha, rfl⟩

end Attempts

end TestSynth
