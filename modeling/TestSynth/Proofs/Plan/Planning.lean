import Mathlib
import TestSynth.Plan.Basic
import TestSynth.Proofs.OrderedMap
/-!
What the planner can decide about a class, and what its plans of a whole table are: one for each
class, and under each name the stand-in that the last of them takes, or else the first that methods
might take.
-/
namespace TestSynth

open Typing (bareType classify unqualified)
open Artifact (safeName)

section Lookup
variable {α β : Type} {l : List α} {x : α} {q : α → Bool}

/-- A search finds something wherever there is something to find. -/
theorem exists_find?_of_mem (hx : x ∈ l) (hq : q x) : ∃ y ∈ l, l.find? q = some y ∧ q y := by
  have hsome : (l.find? q).isSome := List.find?_isSome.2 ⟨x, hx, hq⟩
  obtain ⟨y, hy⟩ := Option.isSome_iff_exists.1 hsome
  exact ⟨y, List.mem_of_find?_eq_some hy, hy, List.find?_some hy⟩

/-- Where all keys differ, the search for a key finds what has it. -/
theorem find?_of_nodup_map [DecidableEq β] {key : α → β} (h : (l.map key).Nodup) (hx : x ∈ l) :
    (l.find? fun y => key y = key x) = some x := by
  obtain ⟨y, hy, hfound, hkey⟩ := exists_find?_of_mem (q := fun y => key y = key x) hx (by simp)
  rw [hfound, List.inj_on_of_nodup_map h hy hx (of_decide_eq_true hkey)]

end Lookup

/-- A stand-in is named after the class it replaces, and so is its header. -/
theorem StandIn.of_build? {maxOverrides : Nat} {c : ClassModel} {header : String} {s : StandIn}
    (h : build? maxOverrides c header = some s) :
    s.name = typeName c ∧ s.base = c.qualifiedName ∧
      s.headerFile = "stub_" ++ safeName c.qualifiedName ++ ".h" := by
  unfold build? at h
  dsimp only at h
  split at h
  · cases h
  · split at h
    · cases h
      exact ⟨rfl, rfl, rfl⟩
    · obtain ⟨m, -, rfl⟩ := Option.map_eq_some_iff.1 h
      exact ⟨rfl, rfl, rfl⟩

namespace Planner

section Decisions
variable {p : Planner} {c d : ClassModel} {s : StandIn} {parameter : Parameter}
  {ps : List (Parameter × Nat)} {found : List (Nat × ClassModel × StandIn)}

theorem of_standInFor? (h : p.standInFor? c = some s) :
    s.name = StandIn.typeName c ∧ s.base = c.qualifiedName ∧
      s.headerFile = "stub_" ++ safeName c.qualifiedName ++ ".h" := by
  unfold standInFor? at h
  split at h
  · exact StandIn.of_build? h
  · cases h

/-- The stand-in replaces a class of the table that tests cannot simply make. -/
structure Replaces (p : Planner) (d : ClassModel) (s : StandIn) : Prop where
  mem : d ∈ p.table.models
  needed : needsStandIn d
  standIn : p.standInFor? d = some s

theorem Replaces.base (h : p.Replaces d s) : s.base = d.qualifiedName :=
  (of_standInFor? h.standIn).2.1

/-- Names of stand-ins are as different as the safe forms of the names they are made from. -/
theorem Replaces.name_eq_iff {e : ClassModel} {t : StandIn} (hd : p.Replaces d s)
    (he : p.Replaces e t) : s.name = t.name ↔ safeName s.base = safeName t.base := by
  rw [(of_standInFor? hd.standIn).1, (of_standInFor? he.standIn).1, hd.base, he.base]
  unfold StandIn.typeName
  rw [← String.toList_inj, String.toList_append, String.toList_append, List.append_cancel_left_eq,
    String.toList_inj]

/-- Stand-ins of different names have different headers. -/
theorem Replaces.headerFile_eq_iff {e : ClassModel} {t : StandIn} (hd : p.Replaces d s)
    (he : p.Replaces e t) : s.headerFile = t.headerFile ↔ s.name = t.name := by
  rw [hd.name_eq_iff he, hd.base, he.base, (of_standInFor? hd.standIn).2.2,
    (of_standInFor? he.standIn).2.2, ← String.toList_inj]
  simp only [String.toList_append, List.append_cancel_left_eq, List.append_cancel_right_eq,
    String.toList_inj]

/-- The type of a parameter names the class whose constructor takes it. -/
def Recurs (c : ClassModel) (q : Parameter) : Prop :=
  bareType q.declaredType = c.name ∨ bareType q.declaredType = c.qualifiedName

/-- What a parameter asks for, by the class that the table finds for it. -/
inductive AsksFor (p : Planner) (c : ClassModel) (q : Parameter) :
    Except Infeasibility (Option (ClassModel × StandIn)) → Prop
  | itself (recurs : Recurs c q) : AsksFor p c q (.error .selfReferential)
  | unknown (apart : ¬Recurs c q)
      (unfound : p.table.findClass? (bareType q.declaredType) = none) : AsksFor p c q (.ok none)
  | plain {d : ClassModel} (apart : ¬Recurs c q)
      (found : p.table.findClass? (bareType q.declaredType) = some d)
      (simple : needsStandIn d = false) : AsksFor p c q (.ok none)
  | replaced {d : ClassModel} {s : StandIn} (apart : ¬Recurs c q)
      (found : p.table.findClass? (bareType q.declaredType) = some d)
      (needed : needsStandIn d) (standIn : p.standInFor? d = some s) :
      AsksFor p c q (.ok (some (d, s)))
  | pointed {d : ClassModel} (apart : ¬Recurs c q)
      (found : p.table.findClass? (bareType q.declaredType) = some d)
      (pointer : Typing.classify q.declaredType = .pointer) : AsksFor p c q (.ok none)
  | missing {d : ClassModel} (apart : ¬Recurs c q)
      (found : p.table.findClass? (bareType q.declaredType) = some d)
      (needed : needsStandIn d) (unreplaced : p.standInFor? d = none)
      (unpointed : Typing.classify q.declaredType ≠ .pointer) :
      AsksFor p c q (.error (.unresolvableDependency (bareType q.declaredType)))

theorem asksFor_dependency (p : Planner) (c : ClassModel) (q : Parameter) :
    p.AsksFor c q (p.dependency c q) := by
  unfold dependency
  dsimp only
  split
  · next recurs => exact .itself (by simpa [Recurs] using recurs)
  · next hapart =>
    have apart : ¬Recurs c q := by simpa [Recurs] using hapart
    split
    · next unfound => exact .unknown apart unfound
    · next d found =>
      split
      · next simple => exact .plain apart found (by simpa using simple)
      · next hneeded =>
        have needed : needsStandIn d := by simpa using hneeded
        split
        · next standIn => exact .replaced apart found needed standIn
        · next unreplaced =>
          split
          · next pointer => exact .pointed apart found (eq_of_beq pointer)
          · next unpointed =>
            exact .missing apart found needed unreplaced fun h => unpointed (beq_iff_eq.2 h)

theorem dependency_eq_some (h : p.dependency c parameter = .ok (some (d, s))) :
    p.table.findClass? (bareType parameter.declaredType) = some d ∧ p.Replaces d s := by
  have hasks := p.asksFor_dependency c parameter
  rw [h] at hasks
  cases hasks with
  | replaced apart found needed standIn =>
    exact ⟨found, List.mem_of_find?_eq_some found, needed, standIn⟩

/-- What a parameter asks for, with its place. -/
def asked (p : Planner) (c : ClassModel) (q : Parameter × Nat) :
    List (Nat × ClassModel × StandIn) :=
  match p.dependency c q.1 with
  | .ok needed => needed.toList.map fun (d, s) => (q.2, d, s)
  | .error _ => []

/-- The dependencies of a list are what its parameters ask for, all of which can be had. -/
theorem dependencies_eq (h : p.dependencies c ps = .ok found) :
    (∀ q ∈ ps, ∃ needed, p.dependency c q.1 = .ok needed) ∧ found = ps.flatMap (p.asked c) := by
  induction ps generalizing found with
  | nil =>
    cases h
    simp
  | cons q ps ih =>
    rw [dependencies] at h
    cases hq : p.dependency c q.1 with
    | error reason =>
      rw [hq] at h
      cases h
    | ok needed =>
      cases hps : p.dependencies c ps with
      | error reason =>
        rw [hq, hps] at h
        cases h
      | ok others =>
        rw [hq, hps] at h
        cases h
        obtain ⟨hall, rfl⟩ := ih hps
        refine ⟨List.forall_mem_cons.2 ⟨⟨needed, hq⟩, hall⟩, ?_⟩
        rw [List.flatMap_cons, asked, hq]

theorem mem_asked {q : Parameter × Nat} {index : Nat} (h : (index, d, s) ∈ p.asked c q) :
    index = q.2 ∧ p.dependency c q.1 = .ok (some (d, s)) := by
  unfold asked at h
  split at h
  · next needed hneeded =>
    cases needed with
    | none => cases h
    | some found =>
      obtain ⟨d', s'⟩ := found
      cases List.mem_singleton.1 h
      exact ⟨rfl, hneeded⟩
  · cases h

/-- The ways an instance of a class can be had, or not. -/
inductive Decides (p : Planner) (c : ClassModel) : Prop
  | infeasible (reason : Infeasibility) (hplan : p.construct c = (.infeasible reason, []))
  | default (habstract : c.isAbstract = false) (hplan : p.construct c = (.byDefault, []))
  | constructor (m : Method) (found : List (Nat × ClassModel × StandIn))
      (habstract : c.isAbstract = false) (hchosen : chosenConstructor? c = some m)
      (hceiling : m.parameters.length ≤ p.ceiling)
      (hfound : p.dependencies c m.parameters.zipIdx = .ok found)
      (hplan : p.construct c = (.byConstructor m (found.map fun (index, d, s) =>
        ⟨index, d.qualifiedName, s.name⟩), found.map (·.2.2)))
  | standIn (s : StandIn) (habstract : c.isAbstract = false) (hneeded : needsStandIn c)
      (hstandIn : p.standInFor? c = some s) (hplan : p.construct c = (.byStandIn s.name, [s]))

theorem viaConstructor_eq_ok {result : Construction × List StandIn}
    (h : p.viaConstructor c = .ok result) : ∃ m found, chosenConstructor? c = some m ∧
      m.parameters.length ≤ p.ceiling ∧ p.dependencies c m.parameters.zipIdx = .ok found ∧
      result = (.byConstructor m (found.map fun (index, d, s) =>
        ⟨index, d.qualifiedName, s.name⟩), found.map (·.2.2)) := by
  unfold viaConstructor at h
  split at h
  · cases h
  · split at h
    · cases h
    · next m hchosen =>
      split at h
      · cases h
      · next hceiling =>
        cases hfound : p.dependencies c m.parameters.zipIdx with
        | error reason =>
          rw [hfound] at h
          cases h
        | ok found =>
          rw [hfound] at h
          cases h
          exact ⟨m, found, hchosen, not_lt.1 hceiling, hfound, rfl⟩

theorem decides (p : Planner) (c : ClassModel) : p.Decides c := by
  cases habstract : c.isAbstract with
  | true => exact .infeasible .abstractClass (by simp [construct, habstract])
  | false =>
    cases hdefault : c.hasPublicDefaultConstructor with
    | true => exact .default habstract (by simp [construct, habstract, hdefault])
    | false =>
      cases hvia : p.viaConstructor c with
      | ok result =>
        obtain ⟨m, found, hchosen, hceiling, hfound, rfl⟩ := viaConstructor_eq_ok hvia
        exact .constructor m found habstract hchosen hceiling hfound
          (by simp [construct, habstract, hdefault, hvia])
      | error reason =>
        cases hstandIn : p.standInFor? c with
        | some s =>
          exact .standIn s habstract (by simp [needsStandIn, hdefault]) hstandIn
            (by simp [construct, habstract, hdefault, hvia, hstandIn])
        | none =>
          exact .infeasible reason (by simp [construct, habstract, hdefault, hvia, hstandIn])

/-- Whatever stand-ins a plan takes, they replace classes of the table. -/
theorem replaces_of_mem_construct (hc : c ∈ p.table.models) (h : s ∈ (p.construct c).2) :
    ∃ d, p.Replaces d s := by
  cases p.decides c with
  | infeasible reason hplan | default habstract hplan =>
    rw [hplan] at h
    cases h
  | constructor m found habstract hchosen hceiling hfound hplan =>
    rw [hplan] at h
    obtain ⟨⟨index, d, s⟩, hmem, rfl⟩ := List.mem_map.1 h
    rw [(dependencies_eq hfound).2] at hmem
    obtain ⟨q, -, hasked⟩ := List.mem_flatMap.1 hmem
    exact ⟨d, (dependency_eq_some (mem_asked hasked).2).2⟩
  | standIn s' habstract hneeded hstandIn hplan =>
    rw [hplan] at h
    obtain rfl := List.mem_singleton.1 h
    exact ⟨c, hc, hneeded, hstandIn⟩

/-- A class with a feasible plan is not abstract. -/
theorem concrete_of_isFeasible (h : (p.plan c).construction.isFeasible) : c.isAbstract = false := by
  rw [plan] at h
  cases p.decides c with
  | infeasible reason hplan =>
    rw [hplan] at h
    cases h
  | default habstract | constructor _ _ habstract | standIn _ habstract => exact habstract

end Decisions

section Whole
variable {p : Planner} {d : ClassModel} {s : StandIn} {name : String}

/-- The stand-ins that the plans of the table take, in their order. -/
def required (p : Planner) : List StandIn := p.table.models.flatMap fun c => (p.construct c).2

/-- A stand-in for each class that needs one and may have it. -/
def available (p : Planner) : List StandIn :=
  p.table.models.filterMap fun c => if needsStandIn c then p.standInFor? c else none

theorem mem_available : s ∈ p.available ↔ ∃ d, p.Replaces d s := by
  rw [available, List.mem_filterMap]
  constructor
  · rintro ⟨d, hd, h⟩
    split at h
    · next hneeded => exact ⟨d, hd, hneeded, h⟩
    · cases h
  · rintro ⟨d, hd, hneeded, hstandIn⟩
    exact ⟨d, hd, by rw [if_pos hneeded, hstandIn]⟩

theorem mem_available_of_mem_required (h : s ∈ p.required) : s ∈ p.available := by
  obtain ⟨c, hc, hs⟩ := List.mem_flatMap.1 h
  exact mem_available.2 (replaces_of_mem_construct hc hs)

theorem foldl_planInto (p : Planner) (models : List ClassModel) (plans : Plans) :
    models.foldl p.planInto plans =
      { byClass := models.foldl
          (fun known c => known.insert c.qualifiedName (p.plan c)) plans.byClass
        standIns := (models.flatMap fun c => (p.construct c).2).foldl
          (fun known s => known.insert s.name s) plans.standIns } := by
  induction models generalizing plans with
  | nil => rfl
  | cons c models ih =>
    rw [List.foldl_cons, ih, List.flatMap_cons, List.foldl_append]
    rfl

theorem foldl_registerStandIn (p : Planner) (models : List ClassModel)
    (known : OrderedMap String StandIn) :
    models.foldl p.registerStandIn known =
      (models.filterMap fun c => if needsStandIn c then p.standInFor? c else none).foldl
        (fun known s => known.insertNew s.name s) known := by
  rw [List.foldl_filterMap]
  congr 1
  funext known c
  rw [registerStandIn]
  split
  · cases p.standInFor? c <;> rfl
  · rfl

/-- The plans of a table, told by the decisions about its classes. -/
theorem planAll_eq (p : Planner) : p.planAll =
    { byClass := p.table.models.foldl
        (fun known c => known.insert c.qualifiedName (p.plan c)) .empty
      standIns := p.available.foldl (fun known s => known.insertNew s.name s)
        (p.required.foldl (fun known s => known.insert s.name s) .empty) } := by
  rw [planAll, foldl_planInto, foldl_registerStandIn]
  rfl

theorem ordered_byClass (p : Planner) : p.planAll.byClass.Ordered := by
  rw [planAll_eq]
  exact OrderedMap.ordered_empty.foldl_insert _

theorem ordered_standIns (p : Planner) : p.planAll.standIns.Ordered := by
  rw [planAll_eq]
  exact (OrderedMap.ordered_empty.foldl_insert _).foldl_insertNew _

theorem find?_byClass (p : Planner) (name : String) : p.planAll.byClass.find? name =
    (p.table.models.reverse.find? fun c => c.qualifiedName = name).map p.plan := by
  rw [planAll_eq, OrderedMap.find?_foldl_insert OrderedMap.ordered_empty, OrderedMap.find?_empty,
    Option.or_none]

theorem of_find?_byClass {plan : Plan} (h : p.planAll.byClass.find? name = some plan) :
    ∃ c ∈ p.table.models, c.qualifiedName = name ∧ p.plan c = plan := by
  rw [find?_byClass, Option.map_eq_some_iff] at h
  obtain ⟨c, hfound, hplan⟩ := h
  exact ⟨c, List.mem_reverse.1 (List.mem_of_find?_eq_some hfound),
    by simpa using List.find?_some hfound, hplan⟩

/-- Where no two classes share a name, each has its own plan. -/
theorem find?_byClass_of_mem (hnodup : (p.table.models.map (·.qualifiedName)).Nodup)
    (hd : d ∈ p.table.models) : p.planAll.byClass.find? d.qualifiedName = some (p.plan d) := by
  have hreverse : (p.table.models.reverse.map (·.qualifiedName)).Nodup := by
    rwa [List.map_reverse, List.nodup_reverse]
  rw [find?_byClass, find?_of_nodup_map hreverse (List.mem_reverse.2 hd), Option.map_some]

theorem find?_standIns (p : Planner) (name : String) : p.planAll.standIns.find? name =
    (p.required.reverse.find? fun s => s.name = name).or
      (p.available.find? fun s => s.name = name) := by
  rw [planAll_eq, OrderedMap.find?_foldl_insertNew (OrderedMap.ordered_empty.foldl_insert _),
    OrderedMap.find?_foldl_insert OrderedMap.ordered_empty, OrderedMap.find?_empty,
    Option.or_none, Option.map_id', Option.map_id']

theorem replaces_of_find?_standIns (h : p.planAll.standIns.find? name = some s) :
    s.name = name ∧ ∃ d, p.Replaces d s := by
  rw [find?_standIns, Option.or_eq_some_iff] at h
  rcases h with h | ⟨-, h⟩
  · have hmem := List.mem_reverse.1 (List.mem_of_find?_eq_some h)
    exact ⟨by simpa using List.find?_some h, mem_available.1 (mem_available_of_mem_required hmem)⟩
  · exact ⟨by simpa using List.find?_some h, mem_available.1 (List.mem_of_find?_eq_some h)⟩

theorem exists_find?_standIns (h : p.Replaces d s) :
    ∃ s', p.planAll.standIns.find? s.name = some s' := by
  have hmem : s ∈ p.available := mem_available.2 ⟨d, h⟩
  obtain ⟨s', -, hs', -⟩ := exists_find?_of_mem (q := fun s' => s'.name = s.name) hmem (by simp)
  rw [find?_standIns, hs']
  cases p.required.reverse.find? fun s' => s'.name = s.name with
  | none => exact ⟨s', rfl⟩
  | some t => exact ⟨t, rfl⟩

end Whole

end Planner

end TestSynth
