import Mathlib
import TestSynth.Header.Scan
import TestSynth.Proofs.Plan.Planning
import TestSynth.Proofs.Text.Nesting
import TestSynth.Scenario.Generator
/-!
Which stand-ins tests pass. Plans take them from the class that the table finds under the name of a
type, tests from a map of names in which the last part of a name counts as well.
-/
namespace TestSynth

open Typing (bareType classify unqualified Category)
open Artifact (safeName)

section Types

theorem trimString_trimString (s : String) :
    Text.trimString (Text.trimString s) = Text.trimString s := by
  rw [Text.trimString, Text.trimString, String.toList_ofList, Text.trim_trim]

theorem classify_trimString (declared : String) :
    classify (Text.trimString declared) = classify declared := by
  rw [classify, classify, trimString_trimString]

/-- Blanks around a type do not belong to its bare type. -/
theorem bareType_trimString (declared : String) :
    bareType (Text.trimString declared) = bareType declared := by
  obtain ⟨lead, tail, hchars, hlead, htail, -, -⟩ := Text.trim_split declared.toList
  have hspaced : ∀ {cs : List Char}, (∀ c ∈ cs, Text.isBlank c) →
      ∀ c ∈ cs.map fun c => if Typing.isDeclarator c then ' ' else c, Text.isBlank c := by
    intro cs hcs
    rw [List.forall_mem_map]
    intro c hc
    split
    · decide
    · exact hcs c hc
  have hwords : Text.words (declared.toList.map fun c => if Typing.isDeclarator c then ' ' else c) =
      Text.words ((Text.trim declared.toList).map fun c =>
        if Typing.isDeclarator c then ' ' else c) := by
    conv_lhs => rw [hchars]
    rw [List.map_append, List.map_append, Text.words_append_blanks (hspaced htail),
      Text.words_blanks_append (hspaced hlead)]
  simp only [bareType, hwords, Text.trimString, String.toList_ofList]

theorem unqualified_unqualified (name : String) :
    unqualified (unqualified name) = unqualified name := by
  unfold unqualified
  cases hcut : Text.cutAtLast [':', ':'] name.toList with
  | none =>
    simp only [hcut]
  | some cut =>
    have hafter := Text.cutAtLast_after (by simp) hcut
    simp only [String.toList_ofList, hafter]

end Types

section Names
variable {plans : Plans} {name base : String} {s : StandIn}

/-- Of the stand-ins for a name the last one counts that replaces a class of that very name, and
otherwise the first that replaces one with that last part. -/
theorem find?_foldl_names (standIns : List StandIn) (names : Synthesis.StandInNames)
    (h : names.Ordered) (name : String) :
    (standIns.foldl (fun names s =>
      (names.insert s.base s.name).insertNew (unqualified s.base) s.name) names).find? name =
      ((standIns.reverse.find? fun s => s.base = name).map (·.name)).or
        ((names.find? name).or
          ((standIns.find? fun s => unqualified s.base = name).map (·.name))) := by
  induction standIns generalizing names with
  | nil => simp
  | cons s standIns ih =>
    rw [List.foldl_cons, ih _ ((h.insert _ _).insertNew _ _),
      OrderedMap.find?_insertNew (h.insert _ _), OrderedMap.find?_insert h,
      OrderedMap.find?_insert h, List.reverse_cons, List.find?_append, List.find?_cons]
    cases standIns.reverse.find? fun s => s.base = name with
    | some t => rfl
    | none =>
      by_cases hlast : name = unqualified s.base
      · rw [if_pos hlast]
        by_cases hwhole : name = s.base
        · rw [if_pos (hlast.symm.trans hwhole)]
          simp [hwhole]
        · rw [if_neg fun heq => hwhole (hlast.trans heq), ← hlast]
          cases names.find? name <;> simp [Ne.symm hwhole, hlast.symm]
      · rw [if_neg hlast]
        by_cases hwhole : name = s.base
        · rw [if_pos hwhole]
          simp [hwhole]
        · simp [hwhole, Ne.symm hlast, Ne.symm hwhole]

theorem find?_standInNames (plans : Plans) (name : String) : plans.standInNames.find? name =
    ((plans.standIns.values.reverse.find? fun s => s.base = name).map (·.name)).or
      ((plans.standIns.values.find? fun s => unqualified s.base = name).map (·.name)) := by
  rw [Plans.standInNames, find?_foldl_names _ _ OrderedMap.ordered_empty, OrderedMap.find?_empty,
    Option.none_or]

theorem standInFor?_eq (names : Synthesis.StandInNames) (base : String) :
    Synthesis.standInFor? names base = (names.find? base).or (names.find? (unqualified base)) := by
  rw [Synthesis.standInFor?]
  cases names.find? base <;> rfl

/-- The stand-in for a type replaces a class with the last part of its name, and if it is not the
very name then no stand-in has that one. -/
theorem standInFor?_eq_some (h : Synthesis.standInFor? plans.standInNames base = some name) :
    ∃ s ∈ plans.standIns.values, s.name = name ∧ unqualified s.base = unqualified base ∧
      (s.base = base ∨ ∀ t ∈ plans.standIns.values, t.base ≠ base) := by
  rw [standInFor?_eq, find?_standInNames, find?_standInNames] at h
  have hwhole : ∀ {k s}, plans.standIns.values.reverse.find? (fun s => s.base = k) = some s →
      s ∈ plans.standIns.values ∧ s.base = k := by
    intro k s hs
    exact ⟨List.mem_reverse.1 (List.mem_of_find?_eq_some hs), by simpa using List.find?_some hs⟩
  have hlast : ∀ {k s}, plans.standIns.values.find? (fun s => unqualified s.base = k) = some s →
      s ∈ plans.standIns.values ∧ unqualified s.base = k := by
    intro k s hs
    exact ⟨List.mem_of_find?_eq_some hs, by simpa using List.find?_some hs⟩
  cases hbase : plans.standIns.values.reverse.find? fun s => s.base = base with
  | some s =>
    simp only [hbase, Option.map_some, Option.some_or, Option.some.injEq] at h
    obtain ⟨hs, rfl⟩ := hwhole hbase
    exact ⟨s, hs, h, rfl, .inl rfl⟩
  | none =>
    have hnone : ∀ t ∈ plans.standIns.values, t.base ≠ base := by
      intro t ht
      simpa using List.find?_eq_none.1 hbase t (List.mem_reverse.2 ht)
    simp only [hbase, Option.map_none, Option.none_or, Option.or_eq_some_iff,
      Option.map_eq_some_iff] at h
    rcases h with ⟨s, hs, rfl⟩ | ⟨-, ⟨s, hs, rfl⟩ | ⟨-, s, hs, rfl⟩⟩
    · obtain ⟨hmem, rfl⟩ := hlast hs
      exact ⟨s, hmem, rfl, (unqualified_unqualified _).symm, .inr hnone⟩
    · obtain ⟨hmem, hbase⟩ := hwhole hs
      exact ⟨s, hmem, rfl, by rw [hbase, unqualified_unqualified], .inr hnone⟩
    · obtain ⟨hmem, hbase⟩ := hlast hs
      exact ⟨s, hmem, rfl, hbase, .inr hnone⟩

theorem standInFor?_eq_none (h : Synthesis.standInFor? plans.standInNames base = none) :
    ∀ s ∈ plans.standIns.values, unqualified s.base ≠ unqualified base := by
  rw [standInFor?_eq, find?_standInNames, find?_standInNames, Option.or_eq_none_iff,
    Option.or_eq_none_iff, Option.or_eq_none_iff] at h
  intro s hs
  simpa using List.find?_eq_none.1 (Option.map_eq_none_iff.1 h.2.2) s hs

end Names

section Contributions
variable {names : Synthesis.StandInNames}

/-- The kinds of types that a stand-in is passed for. -/
def Typing.Category.takesStandIn : Category → Bool
  | .pointer | .nonConstReference | .constReference | .rvalueReference | .custom => true
  | .void | .integer | .floating | .boolean | .text => false

theorem contribution_standIn (names : Synthesis.StandInNames) (parameter : Parameter)
    (flavour : Flavour) (index slot : Nat) :
    (Synthesis.contribution names parameter flavour index slot).standIn =
      if (classify parameter.declaredType).takesStandIn then
        Synthesis.standInFor? names (bareType parameter.declaredType) else none := by
  delta Synthesis.contribution
  simp only [classify_trimString, bareType_trimString]
  generalize Synthesis.standInFor? names (bareType parameter.declaredType) = standIn
  cases classify parameter.declaredType <;> cases standIn <;> rfl

end Contributions

namespace Planner

section Agreement
variable {p : Planner} {c d : ClassModel} {s : StandIn} {name base : String}

/-- The classes that tests replace. -/
def replaced (p : Planner) : List ClassModel :=
  p.table.models.filter fun d => needsStandIn d && (p.standInFor? d).isSome

theorem mem_replaced : d ∈ p.replaced ↔ ∃ s, p.Replaces d s := by
  rw [replaced, List.mem_filter, Bool.and_eq_true, Option.isSome_iff_exists]
  constructor
  · rintro ⟨hd, hneeded, s, hs⟩
    exact ⟨s, hd, hneeded, hs⟩
  · rintro ⟨s, hd, hneeded, hs⟩
    exact ⟨hd, hneeded, s, hs⟩

/-- No two of them have names of the same safe form. -/
def Distinguishes (p : Planner) : Prop :=
  ∀ d ∈ p.replaced, ∀ e ∈ p.replaced,
    safeName d.qualifiedName = safeName e.qualifiedName → d.qualifiedName = e.qualifiedName

/-- The name of a type is that of the class, or its last part is and no replaced class has the whole
name. -/
def Bears (p : Planner) (name : String) (d : ClassModel) : Prop :=
  d.qualifiedName = name ∨
    (∀ e ∈ p.replaced, e.qualifiedName ≠ name) ∧ unqualified d.qualifiedName = unqualified name

/-- The table finds a replaced class under the name where it bears it, and only there. -/
def Clear (p : Planner) (name : String) : Prop :=
  ∀ d ∈ p.replaced, p.table.findClass? name = some d ↔ p.Bears name d

instance (p : Planner) : Decidable p.Distinguishes :=
  inferInstanceAs (Decidable (∀ d ∈ p.replaced, ∀ e ∈ p.replaced,
    safeName d.qualifiedName = safeName e.qualifiedName → d.qualifiedName = e.qualifiedName))

instance (p : Planner) (name : String) (d : ClassModel) : Decidable (p.Bears name d) :=
  inferInstanceAs (Decidable (d.qualifiedName = name ∨
    (∀ e ∈ p.replaced, e.qualifiedName ≠ name) ∧ unqualified d.qualifiedName = unqualified name))

instance (p : Planner) (name : String) : Decidable (p.Clear name) :=
  inferInstanceAs (Decidable (∀ d ∈ p.replaced,
    p.table.findClass? name = some d ↔ p.Bears name d))

theorem mem_values_of_find? (h : p.planAll.standIns.find? name = some s) :
    s ∈ p.planAll.standIns.values := by
  rw [OrderedMap.values, List.mem_map]
  exact ⟨_, (OrderedMap.mem_entries_iff (ordered_standIns p)).2 h, rfl⟩

theorem find?_of_mem_values (h : s ∈ p.planAll.standIns.values) :
    p.planAll.standIns.find? s.name = some s := by
  rw [OrderedMap.values, List.mem_map] at h
  obtain ⟨⟨name, s⟩, hmem, rfl⟩ := h
  have hfound := (OrderedMap.mem_entries_iff (ordered_standIns p)).1 hmem
  rwa [(replaces_of_find?_standIns hfound).1]

/-- Where names can be told apart, every replaced class has its own stand-in. -/
theorem Distinguishes.find?_standIns (h : p.Distinguishes) (hd : p.Replaces d s) :
    ∃ t, p.planAll.standIns.find? s.name = some t ∧ t.base = d.qualifiedName := by
  obtain ⟨t, ht⟩ := exists_find?_standIns hd
  obtain ⟨hname, e, he⟩ := replaces_of_find?_standIns ht
  refine ⟨t, ht, ?_⟩
  rw [he.name_eq_iff hd, he.base, hd.base] at hname
  rw [he.base]
  exact h e (mem_replaced.2 ⟨t, he⟩) d (mem_replaced.2 ⟨s, hd⟩) hname

theorem Distinguishes.bears (h : p.Distinguishes)
    (hfound : Synthesis.standInFor? p.planAll.standInNames base = some name) :
    ∃ d s, p.planAll.standIns.find? name = some s ∧ p.Replaces d s ∧ p.Bears base d := by
  obtain ⟨s, hs, rfl, hlast, hwhole⟩ := standInFor?_eq_some hfound
  have hknown := find?_of_mem_values hs
  obtain ⟨-, d, hd⟩ := replaces_of_find?_standIns hknown
  refine ⟨d, s, hknown, hd, ?_⟩
  rw [hd.base] at hlast hwhole
  refine hwhole.imp_right fun hnone => ⟨?_, hlast⟩
  intro e he
  obtain ⟨s', he⟩ := mem_replaced.1 he
  obtain ⟨t, ht, hbase⟩ := h.find?_standIns he
  rw [← hbase]
  exact hnone t (mem_values_of_find? ht)

theorem Distinguishes.not_bears (h : p.Distinguishes)
    (hnone : Synthesis.standInFor? p.planAll.standInNames base = none) (hd : d ∈ p.replaced) :
    ¬p.Bears base d := by
  obtain ⟨s, hd⟩ := mem_replaced.1 hd
  obtain ⟨t, ht, hbase⟩ := h.find?_standIns hd
  have hlast := standInFor?_eq_none hnone t (mem_values_of_find? ht)
  rw [hbase] at hlast
  rintro (rfl | ⟨-, hsame⟩)
  · exact hlast rfl
  · exact hlast hsame

theorem dependency_of_replaces {parameter : Parameter} {needed : Option (ClassModel × StandIn)}
    (hd : p.Replaces d s) (hfound : p.table.findClass? (bareType parameter.declaredType) = some d)
    (h : p.dependency c parameter = .ok needed) : needed = some (d, s) := by
  unfold dependency at h
  dsimp only at h
  split at h
  · cases h
  · simp only [hfound, hd.needed, hd.standIn, Bool.not_true, Bool.false_eq_true, if_false] at h
    cases h
    rfl

/-- A type that the planner and a test mean the same class by, and in the same way. -/
structure Settled (p : Planner) (declared : String) : Prop where
  clear : p.Clear (bareType declared)
  taken : ∀ d ∈ p.replaced, p.table.findClass? (bareType declared) = some d →
    (classify declared).takesStandIn

/-- For such a type a test passes the stand-in that the plan asks for. -/
theorem Distinguishes.contribution_eq (h : p.Distinguishes) {parameter : Parameter}
    (hsettled : p.Settled parameter.declaredType) {needed : Option (ClassModel × StandIn)}
    (hneeded : p.dependency c parameter = .ok needed) (flavour : Flavour) (index slot : Nat) :
    (Synthesis.contribution p.planAll.standInNames parameter flavour index slot).standIn =
      needed.map (·.2.name) := by
  rw [contribution_standIn]
  cases hstandIn : Synthesis.standInFor? p.planAll.standInNames
      (bareType parameter.declaredType) with
  | none =>
    cases needed with
    | none => exact ite_self _
    | some found =>
      obtain ⟨hfound, hd⟩ := dependency_eq_some hneeded
      have hmem := mem_replaced.2 ⟨_, hd⟩
      exact absurd ((hsettled.clear _ hmem).1 hfound) (h.not_bears hstandIn hmem)
  | some name =>
    obtain ⟨d, s, hknown, hd, hbears⟩ := h.bears hstandIn
    have hmem := mem_replaced.2 ⟨s, hd⟩
    have hfound := (hsettled.clear d hmem).2 hbears
    rw [if_pos (hsettled.taken d hmem hfound), dependency_of_replaces hd hfound hneeded,
      Option.map_some, (replaces_of_find?_standIns hknown).1]

end Agreement

end Planner

end TestSynth
