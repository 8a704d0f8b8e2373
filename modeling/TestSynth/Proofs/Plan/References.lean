import Mathlib
import TestSynth.Header.Scan
import TestSynth.Proofs.Plan.Planning
/-!
What plans refer to. A stand-in is known by a safe form of the name of its class, so that classes
whose names have the same form share what is known under it.
-/
namespace TestSynth

open Artifact (safeName)

/-- The stand-ins that a plan names, each with the qualified name of the class it is to replace. -/
def Plan.references (plan : Plan) : List (String × String) :=
  match plan.construction with
  | .byStandIn name => [(name, plan.model.qualifiedName)]
  | .byConstructor _ substitutions => substitutions.map fun s => (s.standIn, s.dependency)
  | .byDefault | .infeasible _ => []

namespace Planner

variable {p : Planner} {c : ClassModel} {r : String × String}

/-- The stand-ins that the plans of all classes name. -/
def references (p : Planner) : List (String × String) :=
  p.table.models.flatMap fun c => (p.plan c).references

/-- A plan names what it takes. -/
theorem references_plan (p : Planner) (c : ClassModel) :
    (p.plan c).references = (p.construct c).2.map fun s => (s.name, s.base) := by
  cases p.decides c with
  | infeasible reason hplan | default habstract hplan =>
    rw [Plan.references, plan, hplan]
    rfl
  | constructor m found habstract hchosen hceiling hfound hplan =>
    rw [Plan.references, plan, hplan]
    simp only [List.map_map]
    refine List.map_congr_left ?_
    rintro ⟨index, d, s⟩ hmem
    rw [(dependencies_eq hfound).2] at hmem
    obtain ⟨q, -, hasked⟩ := List.mem_flatMap.1 hmem
    have hreplaces := (dependency_eq_some (mem_asked hasked).2).2
    simp only [Function.comp_apply, hreplaces.base]
  | standIn s habstract hneeded hstandIn hplan =>
    rw [Plan.references, plan, hplan]
    simp only [List.map_cons, List.map_nil, (of_standInFor? hstandIn).2.1]

theorem references_eq (p : Planner) :
    p.references = p.required.map fun s => (s.name, s.base) := by
  rw [references, required, List.map_flatMap]
  exact List.flatMap_congr fun c _ => references_plan p c

/-- What is known under the name of a reference replaces a class that is referred to as well, by a
name of the same form. -/
theorem find?_of_mem_references (h : r ∈ p.references) :
    ∃ s ∈ p.required, p.planAll.standIns.find? r.1 = some s ∧ s.name = r.1 := by
  rw [references_eq] at h
  obtain ⟨t, ht, rfl⟩ := List.mem_map.1 h
  obtain ⟨s, hmem, hs, hname⟩ := exists_find?_of_mem (q := fun s => s.name = t.name)
    (List.mem_reverse.2 ht) (by simp)
  refine ⟨s, List.mem_reverse.1 hmem, ?_, of_decide_eq_true hname⟩
  rw [find?_standIns, hs, Option.some_or]

/-- A plan by stand-in names one that is known. -/
theorem find?_of_byStandIn {name : String} (hc : c ∈ p.table.models)
    (h : (p.plan c).construction = .byStandIn name) :
    ∃ s, p.planAll.standIns.find? name = some s := by
  have hmem : (name, c.qualifiedName) ∈ p.references := by
    refine List.mem_flatMap.2 ⟨c, hc, ?_⟩
    rw [Plan.references, h]
    exact List.mem_singleton_self _
  obtain ⟨s, -, hfound, -⟩ := find?_of_mem_references hmem
  exact ⟨s, hfound⟩

theorem replaces_of_mem_references (h : r ∈ p.references) :
    ∃ d s, p.Replaces d s ∧ r = (s.name, s.base) := by
  rw [references_eq] at h
  obtain ⟨s, hs, rfl⟩ := List.mem_map.1 h
  obtain ⟨d, hd⟩ := mem_available.1 (mem_available_of_mem_required hs)
  exact ⟨d, s, hd, rfl⟩

theorem name_eq_iff {r' : String × String} (h : r ∈ p.references) (h' : r' ∈ p.references) :
    r.1 = r'.1 ↔ safeName r.2 = safeName r'.2 := by
  obtain ⟨d, s, hd, rfl⟩ := replaces_of_mem_references h
  obtain ⟨e, t, he, rfl⟩ := replaces_of_mem_references h'
  exact hd.name_eq_iff he

/-- One plan for each class. -/
theorem perm_byClass (hnodup : (p.table.models.map (·.qualifiedName)).Nodup) :
    p.planAll.byClass.entries.Perm (p.table.models.map fun c => (c.qualifiedName, p.plan c)) := by
  have hentries : p.planAll.byClass.entries.Nodup := (ordered_byClass p).nodup.of_map
  have hmodels : (p.table.models.map fun c => (c.qualifiedName, p.plan c)).Nodup := by
    refine List.Nodup.of_map Prod.fst ?_
    rwa [List.map_map]
  refine (List.perm_ext_iff_of_nodup hentries hmodels).2 ?_
  rintro ⟨name, plan⟩
  rw [OrderedMap.mem_entries_iff (ordered_byClass p), List.mem_map]
  constructor
  · intro hfound
    obtain ⟨c, hc, rfl, rfl⟩ := of_find?_byClass hfound
    exact ⟨c, hc, rfl⟩
  · rintro ⟨c, hc, heq⟩
    cases heq
    exact find?_byClass_of_mem hnodup hc

/-- Every class has its plan, and every stand-in that a plan names is known. It replaces the right
class wherever the plans refer to no two classes whose names have the same safe form, and only
then; otherwise it replaces another class of such a name. -/
theorem planAll_references (p : Planner) :
    ((p.table.models.map (·.qualifiedName)).Nodup →
      p.planAll.byClass.entries.Perm (p.table.models.map fun c => (c.qualifiedName, p.plan c))) ∧
    (∀ r ∈ p.references, ∃ s, p.planAll.standIns.find? r.1 = some s ∧ s.name = r.1 ∧
      ∃ r' ∈ p.references, s.base = r'.2 ∧ safeName r'.2 = safeName r.2) ∧
    ((∀ r ∈ p.references, ∃ s, p.planAll.standIns.find? r.1 = some s ∧ s.base = r.2) ↔
      ∀ r ∈ p.references, ∀ r' ∈ p.references, safeName r.2 = safeName r'.2 → r.2 = r'.2) := by
  have hknown : ∀ r ∈ p.references, ∃ s, p.planAll.standIns.find? r.1 = some s ∧ s.name = r.1 ∧
      ∃ r' ∈ p.references, s.base = r'.2 ∧ safeName r'.2 = safeName r.2 := by
    intro r hr
    obtain ⟨s, hs, hfound, hname⟩ := find?_of_mem_references hr
    have hr' : (s.name, s.base) ∈ p.references := references_eq p ▸ List.mem_map_of_mem hs
    exact ⟨s, hfound, hname, _, hr', rfl, (name_eq_iff hr' hr).1 hname⟩
  refine ⟨perm_byClass, hknown, ?_, ?_⟩
  · intro hright r hr r' hr' hsafe
    obtain ⟨s, hfound, hbase⟩ := hright r hr
    obtain ⟨s', hfound', hbase'⟩ := hright r' hr'
    rw [(name_eq_iff hr hr').2 hsafe, hfound'] at hfound
    cases hfound
    exact hbase.symm.trans hbase'
  · intro hapart r hr
    obtain ⟨s, hfound, -, r', hr', hbase, hsafe⟩ := hknown r hr
    exact ⟨s, hfound, hbase.trans (hapart r' hr' r hr hsafe)⟩

/-- A class that tests have to replace, and one that is made with it. -/
def shop : Planner :=
  .ofSettings (Header.extract {} ⟨⟨"/p/shop.h"⟩, .header⟩
    ("namespace ns \x7b class Shelf \x7b protected: Shelf(int width); \x7d; \x7d\n" ++
      "class Shop \x7b public: Shop(ns::Shelf& shelf); \x7d;\n"))
    { substitutionClasses := ["Shelf"] } ⟨"/p"⟩

theorem planAll_references_shop :
    (shop.table.models.map (·.qualifiedName)).Nodup ∧
      shop.planAll.byClass.entries.Perm
        (shop.table.models.map fun c => (c.qualifiedName, shop.plan c)) ∧
      shop.references = [("Stubns_Shelf", "ns::Shelf"), ("Stubns_Shelf", "ns::Shelf")] ∧
      ∀ r ∈ shop.references, ∃ s, shop.planAll.standIns.find? r.1 = some s ∧ s.base = r.2 := by
  have hnodup : (shop.table.models.map (·.qualifiedName)).Nodup := by decide +kernel
  have hreferences : shop.references =
      [("Stubns_Shelf", "ns::Shelf"), ("Stubns_Shelf", "ns::Shelf")] := by decide +kernel
  have hapart : ∀ r ∈ shop.references, ∀ r' ∈ shop.references,
      safeName r.2 = safeName r'.2 → r.2 = r'.2 := by
    rw [hreferences]
    decide +kernel
  obtain ⟨hplans, -, hright⟩ := planAll_references shop
  exact ⟨hnodup, hplans hnodup, hreferences, hright.2 hapart⟩

/-- Two classes that tests may replace, whose names differ in nothing that a safe name keeps. -/
def rivalsText : String :=
  "namespace a \x7b class b \x7b protected: b(); \x7d; \x7d\n" ++
    "class a_b \x7b protected: a_b(); \x7d;\n"

def rivals : Planner :=
  .ofSettings (Header.extract {} ⟨⟨"/p/dep.h"⟩, .header⟩ rivalsText)
    { substitutionClasses := ["a::b", "a_b"] } ⟨"/p"⟩

/-- Both are to be replaced by what is known under one name, which replaces the second of them. -/
theorem planAll_confuses_rivals :
    ((rivals.table.models.map (·.qualifiedName)).Nodup ∧
      rivals.references = [("Stuba_b", "a::b"), ("Stuba_b", "a_b")]) ∧
    ¬∀ r ∈ rivals.references, ∃ s, rivals.planAll.standIns.find? r.1 = some s ∧ s.base = r.2 := by
  have hreferences : rivals.references = [("Stuba_b", "a::b"), ("Stuba_b", "a_b")] := by
    decide +kernel
  have hbase : (rivals.planAll.standIns.find? "Stuba_b").map (·.base) = some "a_b" := by
    decide +kernel
  refine ⟨⟨by decide +kernel, hreferences⟩, fun hright => ?_⟩
  rw [hreferences] at hright
  obtain ⟨s, hfound, hs⟩ := hright _ List.mem_cons_self
  rw [hfound, Option.map_some, hs] at hbase
  exact absurd hbase (by decide)

end Planner

end TestSynth
