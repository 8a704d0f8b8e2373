import Mathlib
import TestSynth.Proofs.Plan.Planning
/-!
How instances are planned, told by what a class declares and what its table finds. Nothing is passed
where a class can be made without arguments; otherwise the first constructor with the fewest
parameters is taken if everything that it asks for can be had, and only if not a stand-in.
-/
namespace TestSynth

open Typing (bareType classify)

section Least
variable {α : Type} {measure : α → Nat} {l : List α} {x : α} {q : α → Bool}

theorem StandIn.leastBy_eq_none_iff : leastBy measure l = none ↔ l = [] := by
  cases l with
  | nil => simp [leastBy]
  | cons y l =>
    rw [leastBy]
    split
    · simp
    · split <;> simp

/-- What is found is less than everything before it, and not more than anything behind it. -/
theorem StandIn.split_of_leastBy (h : leastBy measure l = some x) :
    ∃ before behind, l = before ++ x :: behind ∧ (∀ y ∈ before, measure x < measure y) ∧
      ∀ y ∈ behind, measure x ≤ measure y := by
  induction l generalizing x with
  | nil => cases h
  | cons y l ih =>
    rw [leastBy] at h
    split at h
    · next hnone =>
      cases h
      exact ⟨[], l, rfl, by simp, by simp [leastBy_eq_none_iff.1 hnone]⟩
    · next z hz =>
      obtain ⟨before, behind, rfl, hbefore, hbehind⟩ := ih hz
      -- The head gives way only to what is strictly less: of equals the first is kept.
      split at h
      · next hle =>
        cases h
        refine ⟨[], _, rfl, by simp, ?_⟩
        intro w hw
        rcases List.mem_append.1 hw with hw | hw
        · exact hle.trans (hbefore w hw).le
        · rcases List.mem_cons.1 hw with rfl | hw
          · exact hle
          · exact hle.trans (hbehind w hw)
      · next hlt =>
        cases h
        exact ⟨y :: before, behind, rfl,
          List.forall_mem_cons.2 ⟨not_le.1 hlt, hbefore⟩, hbehind⟩

theorem StandIn.mem_of_leastBy (h : leastBy measure l = some x) : x ∈ l := by
  obtain ⟨before, behind, rfl, -⟩ := split_of_leastBy h
  exact List.mem_append_right before List.mem_cons_self

/-- Of the least elements the first one is found. -/
theorem StandIn.leastBy_eq_some_iff : leastBy measure l = some x ↔
    ∃ before behind, l = before ++ x :: behind ∧ (∀ y ∈ before, measure x < measure y) ∧
      ∀ y ∈ behind, measure x ≤ measure y := by
  constructor
  · exact split_of_leastBy
  · rintro ⟨before, behind, rfl, hbefore, hbehind⟩
    induction before with
    | nil =>
      rw [List.nil_append, leastBy]
      split
      · rfl
      · next z hz => rw [if_pos (hbehind z (mem_of_leastBy hz))]
    | cons y before ih =>
      obtain ⟨hy, hbefore⟩ := List.forall_mem_cons.1 hbefore
      rw [List.cons_append, leastBy, ih hbefore]
      exact if_neg (not_le.2 hy)

/-- The same among those elements of a list that pass a test. -/
theorem StandIn.leastBy_filter_eq_some_iff : leastBy measure (l.filter q) = some x ↔
    ∃ before behind, l = before ++ x :: behind ∧ q x ∧
      (∀ y ∈ before, q y → measure x < measure y) ∧
      ∀ y ∈ behind, q y → measure x ≤ measure y := by
  rw [leastBy_eq_some_iff]
  constructor
  · rintro ⟨before, behind, hfilter, hbefore, hbehind⟩
    obtain ⟨l₁, l₂, rfl, rfl, hrest⟩ := List.filter_eq_append_iff.1 hfilter
    obtain ⟨l₃, l₄, rfl, hnone, hx, rfl⟩ := List.filter_eq_cons_iff.1 hrest
    refine ⟨l₁ ++ l₃, l₄, by rw [List.append_assoc], hx, ?_, ?_⟩
    · intro y hy hq
      rcases List.mem_append.1 hy with hy | hy
      · exact hbefore y (List.mem_filter.2 ⟨hy, hq⟩)
      · exact absurd hq (hnone y hy)
    · exact fun y hy hq => hbehind y (List.mem_filter.2 ⟨hy, hq⟩)
  · rintro ⟨before, behind, rfl, hx, hbefore, hbehind⟩
    refine ⟨before.filter q, behind.filter q, by simp [hx], ?_, ?_⟩
    · exact fun y hy => hbefore y (List.mem_filter.1 hy).1 (List.mem_filter.1 hy).2
    · exact fun y hy => hbehind y (List.mem_filter.1 hy).1 (List.mem_filter.1 hy).2

end Least

namespace ClassModel

variable {c : ClassModel} {m : Method}

/-- Everyone may make one without arguments: by a constructor, or because none is declared. -/
def DefaultConstructible (c : ClassModel) : Prop :=
  c.declaredConstructors = 0 ∨ ∃ m ∈ c.methods, m.flags.isConstructor ∧ m.access = .everyone ∧
    ∀ q ∈ m.parameters, q.hasDefault

/-- A test simply makes one. -/
structure Simple (c : ClassModel) : Prop where
  concrete : c.isAbstract = false
  default : c.DefaultConstructible

/-- A test has to pass something to make one. -/
structure Demanding (c : ClassModel) : Prop where
  concrete : c.isAbstract = false
  noDefault : ¬c.DefaultConstructible

/-- A constructor to plan with is for everyone, and neither copies nor moves. -/
structure Offers (c : ClassModel) (m : Method) : Prop where
  constructs : m.flags.isConstructor
  everyone : m.access = .everyone
  original : m.isCopyOrMoveOf c.name = false

/-- Of the constructors to plan with, the first in the order of the source that has the fewest
parameters. -/
def Prefers (c : ClassModel) (m : Method) : Prop :=
  ∃ before behind, c.methods = before ++ m :: behind ∧ c.Offers m ∧
    (∀ n ∈ before, c.Offers n → m.parameters.length < n.parameters.length) ∧
    ∀ n ∈ behind, c.Offers n → m.parameters.length ≤ n.parameters.length

theorem hasPublicDefaultConstructor_iff :
    c.hasPublicDefaultConstructor ↔ c.DefaultConstructible := by
  rw [hasPublicDefaultConstructor, publicConstructors, constructors, List.filter_filter]
  simp [DefaultConstructible, Method.callableWithoutArguments, and_assoc, and_left_comm]

end ClassModel

namespace Planner

variable {p : Planner} {c d : ClassModel} {m : Method} {s : StandIn} {q : Parameter}

theorem needsStandIn_iff : needsStandIn c ↔ ¬c.Simple := by
  rw [needsStandIn, Bool.or_eq_true, Bool.not_eq_true', ← Bool.not_eq_true,
    ClassModel.hasPublicDefaultConstructor_iff]
  constructor
  · rintro h ⟨hconcrete, hdefault⟩
    rcases h with h | h
    · exact absurd (h.symm.trans hconcrete) (by decide)
    · exact h hdefault
  · intro h
    cases habstract : c.isAbstract with
    | true => exact .inl rfl
    | false => exact .inr fun hdefault => h ⟨habstract, hdefault⟩

theorem chosenConstructor?_eq_some_iff : chosenConstructor? c = some m ↔ c.Prefers m := by
  have hoffers : ∀ n : Method, (!n.isCopyOrMoveOf c.name && n.access == .everyone &&
      n.flags.isConstructor) = true ↔ c.Offers n := by
    intro n
    rw [Bool.and_eq_true, Bool.and_eq_true, beq_iff_eq, Bool.not_eq_true']
    exact ⟨fun h => ⟨h.2, h.1.2, h.1.1⟩, fun h => ⟨⟨h.original, h.everyone⟩, h.constructs⟩⟩
  rw [chosenConstructor?, ClassModel.publicConstructors, ClassModel.constructors,
    List.filter_filter, List.filter_filter, StandIn.leastBy_filter_eq_some_iff]
  simp only [hoffers]
  rfl

/-- The stand-in that tests may put in the place of a class. -/
structure Substitutes (p : Planner) (c : ClassModel) (s : StandIn) : Prop where
  listed : c.name ∈ p.substitutionClasses ∨ c.qualifiedName ∈ p.substitutionClasses
  built : StandIn.build? p.maxOverrides c (c.header.includePath p.root) = some s

/-- The parameter takes a stand-in: the table finds a class for it that no test simply makes. -/
structure Needs (p : Planner) (q : Parameter) (d : ClassModel) (s : StandIn) : Prop where
  found : p.table.findClass? (bareType q.declaredType) = some d
  needed : ¬d.Simple
  standIn : p.Substitutes d s

/-- Something can be passed for a parameter. It is not of the class that is made, and if the table
finds a class for it, then one that a test simply makes, or replaces, or that is pointed to. -/
structure Obtains (p : Planner) (c : ClassModel) (q : Parameter) : Prop where
  apart : bareType q.declaredType ≠ c.name ∧ bareType q.declaredType ≠ c.qualifiedName
  passed : ∀ d, p.table.findClass? (bareType q.declaredType) = some d →
    d.Simple ∨ (∃ s, p.Substitutes d s) ∨ classify q.declaredType = .pointer

/-- A test can make instances with that constructor. -/
structure Serves (p : Planner) (c : ClassModel) (m : Method) : Prop where
  preferred : c.Prefers m
  short : m.parameters.length ≤ p.ceiling
  obtains : ∀ q ∈ m.parameters, p.Obtains c q

/-- The stand-ins for a constructor: one for each parameter that takes one, in their order. -/
structure Substituted (p : Planner) (m : Method) (substitutions : List Substitution) : Prop where
  increasing : substitutions.Pairwise fun u v => u.index < v.index
  exactly : ∀ u, u ∈ substitutions ↔ ∃ q d s, m.parameters[u.index]? = some q ∧
    p.Needs q d s ∧ u = ⟨u.index, d.qualifiedName, s.name⟩

theorem standInFor?_eq_some_iff : p.standInFor? c = some s ↔ p.Substitutes c s := by
  have hmay : p.maySubstitute c ↔
      c.name ∈ p.substitutionClasses ∨ c.qualifiedName ∈ p.substitutionClasses := by
    simp [maySubstitute]
  rw [standInFor?, Option.ite_none_right_eq_some, hmay]
  exact ⟨fun h => ⟨h.1, h.2⟩, fun h => ⟨h.listed, h.built⟩⟩

theorem standInFor?_eq_none_iff : p.standInFor? c = none ↔ ¬∃ s, p.Substitutes c s := by
  simp only [← standInFor?_eq_some_iff, Option.eq_none_iff_forall_ne_some, not_exists, ne_eq]

section Parameters
variable {found : List (Nat × ClassModel × StandIn)} {ps : List (Parameter × Nat)}

theorem exists_dependency_iff : (∃ needed, p.dependency c q = .ok needed) ↔ p.Obtains c q := by
  have hasks := p.asksFor_dependency c q
  generalize p.dependency c q = result at hasks
  cases hasks with
  | itself recurs =>
    refine iff_of_false (by simp) fun h => ?_
    exact recurs.elim h.apart.1 h.apart.2
  | unknown apart unfound =>
    exact iff_of_true ⟨none, rfl⟩ ⟨not_or.1 apart, by simp [unfound]⟩
  | plain apart found simple =>
    refine iff_of_true ⟨none, rfl⟩ ⟨not_or.1 apart, fun d hd => ?_⟩
    obtain rfl := Option.some.inj (found.symm.trans hd)
    exact .inl (not_not.1 (mt needsStandIn_iff.2 (by simp [simple])))
  | replaced apart found needed standIn =>
    refine iff_of_true ⟨_, rfl⟩ ⟨not_or.1 apart, fun d hd => ?_⟩
    obtain rfl := Option.some.inj (found.symm.trans hd)
    exact .inr (.inl ⟨_, standInFor?_eq_some_iff.1 standIn⟩)
  | pointed apart found pointer =>
    exact iff_of_true ⟨none, rfl⟩ ⟨not_or.1 apart, fun _ _ => .inr (.inr pointer)⟩
  | missing apart found needed unreplaced unpointed =>
    refine iff_of_false (by simp) fun h => ?_
    rcases h.passed _ found with hsimple | hstood | hpointer
    · exact needsStandIn_iff.1 needed hsimple
    · exact standInFor?_eq_none_iff.1 unreplaced hstood
    · exact unpointed hpointer

theorem dependency_eq_some_iff :
    p.dependency c q = .ok (some (d, s)) ↔ p.Obtains c q ∧ p.Needs q d s := by
  constructor
  · intro h
    obtain ⟨hfound, hreplaces⟩ := dependency_eq_some h
    exact ⟨exists_dependency_iff.1 ⟨_, h⟩, hfound, needsStandIn_iff.1 hreplaces.needed,
      standInFor?_eq_some_iff.1 hreplaces.standIn⟩
  · rintro ⟨⟨hapart, -⟩, hfound, hneeded, hstandIn⟩
    unfold dependency
    dsimp only
    rw [if_neg (by simpa using hapart), hfound]
    simp [needsStandIn_iff.2 hneeded, standInFor?_eq_some_iff.2 hstandIn]

theorem mem_asked_iff {index : Nat} : (index, d, s) ∈ p.asked c (q, index) ↔
    p.Obtains c q ∧ p.Needs q d s := by
  rw [← dependency_eq_some_iff]
  constructor
  · exact fun h => (mem_asked h).2
  · intro h
    rw [asked, h]
    exact List.mem_singleton.2 rfl

theorem exists_dependencies_iff :
    (∃ found, p.dependencies c ps = .ok found) ↔ ∀ q ∈ ps, p.Obtains c q.1 := by
  simp only [← exists_dependency_iff]
  constructor
  · rintro ⟨found, h⟩
    exact (dependencies_eq h).1
  · intro h
    induction ps with
    | nil => exact ⟨[], rfl⟩
    | cons q ps ih =>
      obtain ⟨⟨needed, hneeded⟩, h⟩ := List.forall_mem_cons.1 h
      obtain ⟨others, hothers⟩ := ih h
      exact ⟨_, by rw [dependencies, hneeded, hothers]; rfl⟩

/-- What a list of parameters asks for comes with its places in their order. -/
theorem pairwise_asked (p : Planner) (c : ClassModel) (parameters : List Parameter) (first : Nat) :
    ((parameters.zipIdx first).flatMap (p.asked c)).Pairwise fun u v => u.1 < v.1 := by
  rw [List.pairwise_flatMap]
  constructor
  · rintro ⟨q, index⟩ -
    unfold asked
    split
    · next needed _ => cases needed <;> simp
    · exact .nil
  · have hplaces : (parameters.zipIdx first).Pairwise fun u v => u.2 < v.2 := by
      rw [← List.pairwise_map, List.zipIdx_map_snd]
      exact List.pairwise_lt_range'
    refine hplaces.imp ?_
    rintro ⟨q, i⟩ ⟨r, j⟩ hlt ⟨_, d, s⟩ hu ⟨_, e, t⟩ hv
    rw [(mem_asked hu).1, (mem_asked hv).1]
    exact hlt

end Parameters

section Constructors
variable {substitutions others : List Substitution}

theorem Substituted.unique (h : p.Substituted m substitutions) (h' : p.Substituted m others) :
    substitutions = others := by
  have hne : ∀ u v : Substitution, u.index < v.index → u ≠ v := by
    rintro u v hlt rfl
    exact lt_irrefl _ hlt
  have hperm : substitutions.Perm others := by
    refine (List.perm_ext_iff_of_nodup (h.increasing.imp (hne _ _))
      (h'.increasing.imp (hne _ _))).2 fun u => ?_
    rw [h.exactly, h'.exactly]
  exact hperm.eq_of_pairwise (fun u v _ _ huv hvu => (lt_asymm huv hvu).elim) h.increasing
    h'.increasing

theorem substituted_of_dependencies {found : List (Nat × ClassModel × StandIn)}
    (h : p.dependencies c m.parameters.zipIdx = .ok found) : p.Substituted m
      (found.map fun (index, d, s) => ⟨index, d.qualifiedName, s.name⟩) := by
  have hobtains := exists_dependencies_iff.1 ⟨found, h⟩
  obtain rfl := (dependencies_eq h).2
  refine ⟨List.pairwise_map.2 (pairwise_asked p c m.parameters 0), fun u => ?_⟩
  constructor
  · intro hu
    obtain ⟨⟨index, d, s⟩, hasked, rfl⟩ := List.mem_map.1 hu
    obtain ⟨⟨q, place⟩, hq, hasked⟩ := List.mem_flatMap.1 hasked
    obtain rfl := (mem_asked hasked).1
    exact ⟨q, d, s, List.mem_zipIdx_iff_getElem?.1 hq, (mem_asked_iff.1 hasked).2, rfl⟩
  · rintro ⟨q, d, s, hq, hneeds, hu⟩
    have hmem : (q, u.index) ∈ m.parameters.zipIdx := List.mem_zipIdx_iff_getElem?.2 hq
    exact List.mem_map.2 ⟨(u.index, d, s),
      List.mem_flatMap.2 ⟨_, hmem, mem_asked_iff.2 ⟨hobtains _ hmem, hneeds⟩⟩, hu.symm⟩

theorem Serves.unique {n : Method} (hm : p.Serves c m) (hn : p.Serves c n) : m = n := by
  have hsome : chosenConstructor? c = some m := chosenConstructor?_eq_some_iff.2 hm.preferred
  rw [chosenConstructor?_eq_some_iff.2 hn.preferred] at hsome
  exact (Option.some.inj hsome).symm

theorem Substitutes.unique {t : StandIn} (hs : p.Substitutes c s) (ht : p.Substitutes c t) :
    s = t :=
  Option.some.inj (hs.built.symm.trans ht.built)

theorem exists_viaConstructor_iff :
    (∃ result, p.viaConstructor c = .ok result) ↔ ∃ m, p.Serves c m := by
  constructor
  · rintro ⟨result, h⟩
    obtain ⟨m, found, hchosen, hceiling, hfound, -⟩ := viaConstructor_eq_ok h
    have hobtains := exists_dependencies_iff.1 ⟨found, hfound⟩
    refine ⟨m, chosenConstructor?_eq_some_iff.1 hchosen, hceiling, fun q hq => ?_⟩
    obtain ⟨index, hindex⟩ := List.mem_iff_getElem?.1 hq
    exact hobtains (q, index) (List.mem_zipIdx_iff_getElem?.2 hindex)
  · rintro ⟨m, hpreferred, hceiling, hobtains⟩
    have hpublic : c.publicConstructors.isEmpty = false := by
      obtain ⟨_, _, hmethods, hoffers, -⟩ := hpreferred
      rw [List.isEmpty_eq_false_iff_exists_mem]
      refine ⟨m, ?_⟩
      simp [ClassModel.publicConstructors, ClassModel.constructors, hmethods, hoffers.everyone,
        hoffers.constructs]
    have hfound : ∃ found, p.dependencies c m.parameters.zipIdx = .ok found :=
      exists_dependencies_iff.2 fun q hq => hobtains q.1 (List.fst_mem_of_mem_zipIdx hq)
    obtain ⟨found, hfound⟩ := hfound
    rw [viaConstructor, hpublic, chosenConstructor?_eq_some_iff.2 hpreferred]
    simp only [Bool.false_eq_true, if_false, if_neg (not_lt.2 hceiling), hfound]
    exact ⟨_, rfl⟩

end Constructors

section Outcomes
variable {reason : Infeasibility} {substitutions : List Substitution}

theorem dependency_ne_abstractClass (h : p.dependency c q = .error reason) :
    reason ≠ .abstractClass := by
  have hasks := p.asksFor_dependency c q
  rw [h] at hasks
  cases hasks with
  | itself | missing => nofun

theorem dependencies_ne_abstractClass {ps : List (Parameter × Nat)}
    (h : p.dependencies c ps = .error reason) : reason ≠ .abstractClass := by
  induction ps with
  | nil => cases h
  | cons q ps ih =>
    rw [dependencies] at h
    cases hq : p.dependency c q.1 with
    | error _ =>
      rw [hq] at h
      cases h
      exact dependency_ne_abstractClass hq
    | ok needed =>
      cases hps : p.dependencies c ps with
      | error _ =>
        rw [hq, hps] at h
        cases h
        exact ih hps
      | ok others =>
        rw [hq, hps] at h
        cases h

theorem viaConstructor_ne_abstractClass (h : p.viaConstructor c = .error reason) :
    reason ≠ .abstractClass := by
  unfold viaConstructor at h
  split at h
  · cases h
    nofun
  · split at h
    · cases h
      nofun
    · next m hchosen =>
      split at h
      · cases h
        nofun
      · cases hfound : p.dependencies c m.parameters.zipIdx with
        | error _ =>
          rw [hfound] at h
          cases h
          exact dependencies_ne_abstractClass hfound
        | ok found =>
          rw [hfound] at h
          cases h

/-- How a class is made, by what it declares and what can be had for it. -/
inductive Planned (p : Planner) (c : ClassModel) : Construction → Prop
  | unmade (habstract : c.isAbstract) : Planned p c (.infeasible .abstractClass)
  | simple (h : c.Simple) : Planned p c .byDefault
  | served {m : Method} {substitutions : List Substitution} (h : c.Demanding)
      (hserves : p.Serves c m) (hsubstituted : p.Substituted m substitutions) :
      Planned p c (.byConstructor m substitutions)
  | replaced {s : StandIn} (h : c.Demanding) (hunserved : ¬∃ m, p.Serves c m)
      (hstandIn : p.Substitutes c s) : Planned p c (.byStandIn s.name)
  | hopeless {reason : Infeasibility} (h : c.Demanding) (hunserved : ¬∃ m, p.Serves c m)
      (hunreplaced : ¬∃ s, p.Substitutes c s) (hreason : reason ≠ .abstractClass) :
      Planned p c (.infeasible reason)

theorem planned (p : Planner) (c : ClassModel) : p.Planned c (p.plan c).construction := by
  rw [plan, construct]
  cases habstract : c.isAbstract with
  | true => exact .unmade habstract
  | false =>
    cases hdefault : c.hasPublicDefaultConstructor with
    | true => exact .simple ⟨habstract, ClassModel.hasPublicDefaultConstructor_iff.1 hdefault⟩
    | false =>
      have hdemanding : c.Demanding := by
        refine ⟨habstract, fun h => ?_⟩
        rw [ClassModel.hasPublicDefaultConstructor_iff.2 h] at hdefault
        cases hdefault
      cases hvia : p.viaConstructor c with
      | ok result =>
        obtain ⟨m, found, hchosen, -, hfound, rfl⟩ := viaConstructor_eq_ok hvia
        obtain ⟨n, hserves⟩ := exists_viaConstructor_iff.1 ⟨_, hvia⟩
        obtain rfl : n = m := by
          rw [chosenConstructor?_eq_some_iff.2 hserves.preferred] at hchosen
          exact Option.some.inj hchosen
        exact .served hdemanding hserves (substituted_of_dependencies hfound)
      | error reason =>
        have hunserved : ¬∃ m, p.Serves c m := by
          rw [← exists_viaConstructor_iff, hvia]
          rintro ⟨_, ⟨⟩⟩
        cases hstandIn : p.standInFor? c with
        | some s => exact .replaced hdemanding hunserved (standInFor?_eq_some_iff.1 hstandIn)
        | none =>
          exact .hopeless hdemanding hunserved (standInFor?_eq_none_iff.1 hstandIn)
            (viaConstructor_ne_abstractClass hvia)

namespace Planned

variable {k : Construction} (h : p.Planned c k)
include h

/-- A class that something has to be passed for is made by a constructor, or else replaced, or else
given up. -/
theorem demanding_cases (hdemanding : c.Demanding) :
    (∃ m substitutions, k = .byConstructor m substitutions ∧ p.Serves c m ∧
      p.Substituted m substitutions) ∨
    (¬∃ m, p.Serves c m) ∧ ((∃ s, k = .byStandIn s.name ∧ p.Substitutes c s) ∨
      (¬∃ s, p.Substitutes c s) ∧ ∃ reason, reason ≠ .abstractClass ∧ k = .infeasible reason) := by
  cases h with
  | unmade habstract => exact absurd (habstract.symm.trans hdemanding.concrete) (by decide)
  | simple hsimple => exact absurd hsimple.default hdemanding.noDefault
  | served _ hserves hsubstituted => exact .inl ⟨_, _, rfl, hserves, hsubstituted⟩
  | replaced _ hunserved hstandIn => exact .inr ⟨hunserved, .inl ⟨_, rfl, hstandIn⟩⟩
  | hopeless _ hunserved hunreplaced hreason =>
    exact .inr ⟨hunserved, .inr ⟨hunreplaced, _, hreason, rfl⟩⟩

theorem eq_abstract_iff : k = .infeasible .abstractClass ↔ c.isAbstract := by
  cases h with
  | unmade habstract => simp [habstract]
  | simple hsimple => simp [hsimple.concrete]
  | served hdemanding | replaced hdemanding => simp [hdemanding.concrete]
  | hopeless hdemanding _ _ hreason => simp [hdemanding.concrete, hreason]

theorem eq_default_iff : k = .byDefault ↔ c.Simple := by
  constructor
  · rintro rfl
    cases h
    assumption
  · intro hsimple
    cases h with
    | unmade habstract => exact absurd (habstract.symm.trans hsimple.concrete) (by decide)
    | simple => rfl
    | served hdemanding | replaced hdemanding | hopeless hdemanding =>
      exact absurd hsimple.default hdemanding.noDefault

theorem eq_constructor_iff : k = .byConstructor m substitutions ↔
    c.Demanding ∧ p.Serves c m ∧ p.Substituted m substitutions := by
  constructor
  · rintro rfl
    cases h with
    | served hdemanding hserves hsubstituted => exact ⟨hdemanding, hserves, hsubstituted⟩
  · rintro ⟨hdemanding, hserves, hsubstituted⟩
    rcases h.demanding_cases hdemanding with ⟨n, others, rfl, hserves', hothers⟩ | ⟨hunserved, -⟩
    · obtain rfl := hserves.unique hserves'
      rw [hsubstituted.unique hothers]
    · exact absurd ⟨m, hserves⟩ hunserved

theorem eq_standIn_iff {name : String} : k = .byStandIn name ↔
    c.Demanding ∧ (¬∃ m, p.Serves c m) ∧ ∃ s, p.Substitutes c s ∧ s.name = name := by
  constructor
  · rintro rfl
    cases h with
    | replaced hdemanding hunserved hstandIn => exact ⟨hdemanding, hunserved, _, hstandIn, rfl⟩
  · rintro ⟨hdemanding, hunserved, s, hstandIn, rfl⟩
    rcases h.demanding_cases hdemanding with
      ⟨n, others, -, hserves, -⟩ | ⟨-, ⟨t, rfl, ht⟩ | ⟨hunreplaced, -⟩⟩
    · exact absurd ⟨n, hserves⟩ hunserved
    · rw [hstandIn.unique ht]
    · exact absurd ⟨s, hstandIn⟩ hunreplaced

theorem hopeless_iff : (∃ reason, reason ≠ .abstractClass ∧ k = .infeasible reason) ↔
    c.Demanding ∧ (¬∃ m, p.Serves c m) ∧ ¬∃ s, p.Substitutes c s := by
  constructor
  · rintro ⟨reason, hreason, rfl⟩
    cases h with
    | unmade => exact absurd rfl hreason
    | hopeless hdemanding hunserved hunreplaced => exact ⟨hdemanding, hunserved, hunreplaced⟩
  · rintro ⟨hdemanding, hunserved, hunreplaced⟩
    rcases h.demanding_cases hdemanding with
      ⟨n, others, -, hserves, -⟩ | ⟨-, ⟨s, -, hs⟩ | ⟨-, hhopeless⟩⟩
    · exact absurd ⟨n, hserves⟩ hunserved
    · exact absurd ⟨s, hs⟩ hunreplaced
    · exact hhopeless

end Planned

/-- A class that the table finds for a parameter of a planned constructor can be made, or a
stand-in takes its place, or the parameter is a pointer. -/
theorem Substituted.resolves {index : Nat} (h : p.Substituted m substitutions)
    (hserves : p.Serves c m) (hq : m.parameters[index]? = some q)
    (hfound : p.table.findClass? (bareType q.declaredType) = some d) :
    d.Simple ∨ (∃ s, p.Substitutes d s ∧ ⟨index, d.qualifiedName, s.name⟩ ∈ substitutions) ∨
      classify q.declaredType = .pointer := by
  by_cases hsimple : d.Simple
  · exact .inl hsimple
  · rcases (hserves.obtains q (List.mem_of_getElem? hq)).passed d hfound with hd | ⟨s, hs⟩ | hptr
    · exact absurd hd hsimple
    · exact .inr (.inl ⟨s, hs, (h.exactly _).2 ⟨q, d, s, hq, ⟨hfound, hsimple, hs⟩, rfl⟩⟩)
    · exact .inr (.inr hptr)

/-- Every plan is the best that can be had. Only abstract classes are given up as such; nothing is
passed where nothing has to be; the constructor that a plan names is the one to plan with, and
everything that it asks for can be had, with a stand-in for just those parameters that take one;
a stand-in for the class itself comes after that, and giving up comes last. -/
theorem plan_exact (p : Planner) (c : ClassModel) :
    ((p.plan c).construction = .infeasible .abstractClass ↔ c.isAbstract) ∧
    ((p.plan c).construction = .byDefault ↔ c.Simple) ∧
    (∀ m substitutions, (p.plan c).construction = .byConstructor m substitutions ↔
      c.Demanding ∧ p.Serves c m ∧ p.Substituted m substitutions) ∧
    (∀ m substitutions, (p.plan c).construction = .byConstructor m substitutions →
      ∀ index q d, m.parameters[index]? = some q →
        p.table.findClass? (bareType q.declaredType) = some d →
        d.Simple ∨ (∃ s, p.Substitutes d s ∧ ⟨index, d.qualifiedName, s.name⟩ ∈ substitutions) ∨
          classify q.declaredType = .pointer) ∧
    (∀ name, (p.plan c).construction = .byStandIn name ↔
      c.Demanding ∧ (¬∃ m, p.Serves c m) ∧ ∃ s, p.Substitutes c s ∧ s.name = name) ∧
    ((∃ reason, reason ≠ .abstractClass ∧ (p.plan c).construction = .infeasible reason) ↔
      c.Demanding ∧ (¬∃ m, p.Serves c m) ∧ ¬∃ s, p.Substitutes c s) := by
  have hplanned := p.planned c
  refine ⟨hplanned.eq_abstract_iff, hplanned.eq_default_iff,
    fun m substitutions => hplanned.eq_constructor_iff, ?_,
    fun name => hplanned.eq_standIn_iff, hplanned.hopeless_iff⟩
  intro m substitutions hplan index q d hq hfound
  obtain ⟨-, hserves, hsubstituted⟩ := hplanned.eq_constructor_iff.1 hplan
  exact hsubstituted.resolves hserves hq hfound

end Outcomes

end Planner

end TestSynth
