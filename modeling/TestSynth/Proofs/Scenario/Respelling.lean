import TestSynth.Proofs.Plan.Minimality
import TestSynth.Proofs.Scenario.Completeness
/-!
A constructor that takes a reference to its own class, spelled in two ways: by the bare name of the
class and by the qualified one. What is planned and tested is the same in both spellings if the
constructor requires more than one argument. A constructor that copies or moves is known as such
under the bare name only, and then everything agrees that does not take it under the qualified one.
-/
namespace TestSynth

open Typing (bareType)
open StandIn (leastBy requiredParameters baseConstructor?)
open Planner (chosenConstructor?)

/-- The type is a reference to the class of that name. -/
structure Typing.RefersTo (declaredType name : String) : Prop where
  reference : '&' ∈ declaredType.toList
  named : bareType declaredType = name

/-- The method with another type for its first parameter. -/
def Method.withFirstType (m : Method) (declaredType : String) : Method :=
  { m with parameters := m.parameters.modifyHead ({ · with declaredType }) }

/-- Other spellings of one method leave the others alone. -/
def Method.respelled (m : Method) (declaredType : String) (n : Method) : Method :=
  if n = m then m.withFirstType declaredType else n

/-- The class with another spelling of one method. -/
def ClassModel.respell (c : ClassModel) (m : Method) (declaredType : String) : ClassModel :=
  { c with methods := c.methods.map (m.respelled declaredType) }

/-- The table with another model of one class. -/
def ModelTable.replace (t : ModelTable) (c c' : ClassModel) : ModelTable :=
  { t with classes := t.classes.map fun e => (e.1, if e.2 = c then c' else e.2) }

/-- A constructor of a class in a namespace takes a reference to the class under its bare name
first, and the type is a reference to it under its qualified name. -/
structure ClassModel.Respelling (c : ClassModel) (m : Method) (declaredType : String) : Prop where
  inNamespace : c.scope ≠ ""
  mem : m ∈ c.methods
  constructs : m.flags.isConstructor
  bare : ∃ first rest, m.parameters = first :: rest ∧ Typing.RefersTo first.declaredType c.name
  qualified : Typing.RefersTo declaredType c.qualifiedName

/-- One argument is not enough to call the constructor. -/
def Method.TakesMore (m : Method) : Prop := 1 < (requiredParameters m).length

section Spelling
variable {c : ClassModel} {m n : Method} {declaredType : String}

theorem ClassModel.name_ne_qualifiedName (h : c.scope ≠ "") : c.name ≠ c.qualifiedName := by
  intro heq
  have hlength := congrArg (fun s : String => s.toList.length) heq
  simp only [qualifiedName, qualify, String.isEmpty_iff, if_neg h, String.toList_append,
    List.length_append] at hlength
  have hcolons : "::".toList.length = 2 := rfl
  omega

@[simp] theorem Method.flags_respelled : (m.respelled declaredType n).flags = n.flags := by
  unfold respelled
  split
  · next h => rw [h]; rfl
  · rfl

@[simp] theorem Method.access_respelled : (m.respelled declaredType n).access = n.access := by
  unfold respelled
  split
  · next h => rw [h]; rfl
  · rfl

/-- Only types differ between the spellings, not what has a default. -/
theorem Method.map_hasDefault_respelled : (m.respelled declaredType n).parameters.map
    (·.hasDefault) = n.parameters.map (·.hasDefault) := by
  unfold respelled
  split
  · next h =>
    rw [h, withFirstType]
    cases m.parameters <;> rfl
  · rfl

@[simp] theorem Method.length_respelled :
    (m.respelled declaredType n).parameters.length = n.parameters.length := by
  have h := congrArg List.length (@map_hasDefault_respelled m n declaredType)
  rwa [List.length_map, List.length_map] at h

theorem Method.length_requiredParameters (n : Method) :
    (requiredParameters n).length = (n.parameters.map (·.hasDefault)).count false := by
  rw [requiredParameters, ← List.countP_eq_length_filter, List.count, List.countP_map]
  refine List.countP_congr fun q _ => ?_
  cases hdefault : q.hasDefault <;> simp [hdefault]

@[simp] theorem Method.required_respelled :
    (requiredParameters (m.respelled declaredType n)).length = (requiredParameters n).length := by
  rw [length_requiredParameters, length_requiredParameters, map_hasDefault_respelled]

@[simp] theorem Method.callable_respelled : (m.respelled declaredType n).callableWithoutArguments =
    n.callableWithoutArguments := by
  have hall : ∀ n : Method,
      n.callableWithoutArguments = (n.parameters.map (·.hasDefault)).all id := by
    intro n
    rw [callableWithoutArguments, List.all_map]
    rfl
  rw [hall, hall, map_hasDefault_respelled]

namespace ClassModel.Respelling

variable (h : c.Respelling m declaredType)
include h

/-- Under the bare name a constructor copies or moves if one argument is enough. -/
theorem isCopyOrMoveOf_bare : m.isCopyOrMoveOf c.name ↔ ¬m.TakesMore := by
  obtain ⟨first, rest, hparameters, hrefers⟩ := h.bare
  have hreference := hrefers.reference
  rw [Method.TakesMore, not_lt, requiredParameters, Method.isCopyOrMoveOf, hparameters]
  simp [h.constructs, hreference, hrefers.named]

/-- Under the qualified name no constructor is known to copy or move. -/
theorem isCopyOrMoveOf_qualified :
    (m.withFirstType declaredType).isCopyOrMoveOf c.name = false := by
  obtain ⟨first, rest, hparameters, -⟩ := h.bare
  have hne : c.qualifiedName ≠ c.name := (name_ne_qualifiedName h.inNamespace).symm
  simp [Method.isCopyOrMoveOf, Method.withFirstType, hparameters, h.qualified.named, hne]

/-- What counts as copying or moving counts as such in the bare spelling. -/
theorem isCopyOrMoveOf_respelled : (m.respelled declaredType n).isCopyOrMoveOf c.name =
    (n.isCopyOrMoveOf c.name && n != m) := by
  unfold Method.respelled
  split
  · next hn => simp [hn, h.isCopyOrMoveOf_qualified]
  · next hn => simp [hn]

end ClassModel.Respelling

end Spelling

section Choices
variable {c : ClassModel} {m : Method} {declaredType : String} {measure : Method → Nat}
  {allowed : Method → Bool}

/-- A stricter choice agrees where the one that the other makes is allowed. -/
theorem StandIn.leastBy_filter_congr {α : Type} {measure : α → Nat} {l : List α} {q r : α → Bool}
    (hle : ∀ x, q x → r x) (h : ∀ x, leastBy measure (l.filter r) = some x → q x) :
    leastBy measure (l.filter q) = leastBy measure (l.filter r) := by
  cases hr : leastBy measure (l.filter r) with
  | none =>
    rw [leastBy_eq_none_iff, List.filter_eq_nil_iff] at hr ⊢
    exact fun x hx hq => hr x hx (hle x hq)
  | some x =>
    obtain ⟨before, behind, hl, -, hbefore, hbehind⟩ := leastBy_filter_eq_some_iff.1 hr
    exact leastBy_filter_eq_some_iff.2 ⟨before, behind, hl, h x hr,
      fun y hy hq => hbefore y hy (hle y hq), fun y hy hq => hbehind y hy (hle y hq)⟩

theorem StandIn.leastBy_map {α β : Type} {measure : β → Nat} (f : α → β) (l : List α) :
    leastBy measure (l.map f) = (leastBy (measure ∘ f) l).map f := by
  induction l with
  | nil => rfl
  | cons x l ih =>
    rw [List.map_cons, leastBy, leastBy, ih]
    cases leastBy (measure ∘ f) l with
    | none => rfl
    | some y =>
      simp only [Option.map_some, Function.comp_apply]
      split <;> rfl

/-- The constructor that is taken of those that are allowed and neither copy nor move. -/
def ClassModel.takes (c : ClassModel) (measure : Method → Nat) (allowed : Method → Bool) :
    Option Method :=
  leastBy measure (c.methods.filter fun n => allowed n && !n.isCopyOrMoveOf c.name)

/-- A constructor that tests may call. -/
def Method.isOffered (n : Method) : Bool := n.access == .everyone && n.flags.isConstructor

/-- A constructor that subtypes may call. -/
def Method.isInherited (n : Method) : Bool := n.access != .owner && n.flags.isConstructor

theorem Method.isOffered_respelled (m : Method) (declaredType : String) (n : Method) :
    (m.respelled declaredType n).isOffered = n.isOffered := by
  rw [isOffered, isOffered, access_respelled, flags_respelled]

theorem Method.isInherited_respelled (m : Method) (declaredType : String) (n : Method) :
    (m.respelled declaredType n).isInherited = n.isInherited := by
  rw [isInherited, isInherited, access_respelled, flags_respelled]

theorem chosenConstructor?_eq_takes (c : ClassModel) :
    chosenConstructor? c = c.takes (·.parameters.length) Method.isOffered := by
  rw [chosenConstructor?, ClassModel.publicConstructors, ClassModel.constructors,
    List.filter_filter, List.filter_filter, ClassModel.takes]
  refine congrArg (leastBy _) (List.filter_congr fun n _ => ?_)
  rw [Method.isOffered, Bool.and_assoc, Bool.and_comm]

theorem baseConstructor?_eq_takes (c : ClassModel) : baseConstructor? c =
    c.takes (fun n => (requiredParameters n).length) Method.isInherited := by
  rw [baseConstructor?, ClassModel.constructors, List.filter_filter, ClassModel.takes]
  refine congrArg (leastBy _) (List.filter_congr fun n _ => ?_)
  rw [Method.isInherited, Bool.and_right_comm]

namespace ClassModel.Respelling

variable (measure allowed) (h : c.Respelling m declaredType)
  (hmeasure : ∀ n, measure (m.respelled declaredType n) = measure n)
  (hallowed : ∀ n, allowed (m.respelled declaredType n) = allowed n)
include h hmeasure hallowed

/-- Whatever is taken in the one spelling is taken in the other, if it is not the respelled
constructor, or if that requires more than one argument. -/
theorem takes_respell (hother : m.TakesMore ∨
    (c.respell m declaredType).takes measure allowed ≠ some (m.withFirstType declaredType)) :
    (c.respell m declaredType).takes measure allowed =
      (c.takes measure allowed).map (m.respelled declaredType) := by
  have hrespell : (c.respell m declaredType).takes measure allowed =
      (leastBy measure (c.methods.filter fun n =>
        allowed n && !(n.isCopyOrMoveOf c.name && n != m))).map (m.respelled declaredType) := by
    rw [takes, respell, List.filter_map, StandIn.leastBy_map]
    congr 2
    · exact funext hmeasure
    · refine List.filter_congr fun n _ => ?_
      rw [Function.comp_apply, hallowed, h.isCopyOrMoveOf_respelled]
  rw [hrespell] at hother ⊢
  rw [takes]
  congr 1
  refine (StandIn.leastBy_filter_congr (fun n hn => ?_) fun n hn => ?_).symm
  · rw [Bool.and_eq_true] at hn ⊢
    refine ⟨hn.1, ?_⟩
    rw [Bool.not_eq_true'] at hn
    rw [hn.2, Bool.false_and, Bool.not_false]
  · have hmem := List.mem_filter.1 (StandIn.mem_of_leastBy hn)
    rw [Bool.and_eq_true] at hmem ⊢
    refine ⟨hmem.2.1, ?_⟩
    by_cases hm : n = m
    · subst hm
      rw [Bool.not_eq_true', Bool.eq_false_iff, ne_eq, h.isCopyOrMoveOf_bare, not_not]
      rcases hother with hmore | hne
      · exact hmore
      · refine absurd ?_ hne
        rw [hn, Option.map_some, Method.respelled, if_pos rfl]
    · simpa [hm] using hmem.2.2

/-- A class that does not declare both spellings takes the same constructor under both only so. -/
theorem takes_respell_iff (hfresh : m.withFirstType declaredType ∉ c.methods) :
    (c.respell m declaredType).takes measure allowed =
      (c.takes measure allowed).map (m.respelled declaredType) ↔
    m.TakesMore ∨
      (c.respell m declaredType).takes measure allowed ≠ some (m.withFirstType declaredType) := by
  refine ⟨fun heq => ?_, h.takes_respell measure allowed hmeasure hallowed⟩
  by_contra hneither
  rw [not_or, not_not] at hneither
  rw [hneither.2, eq_comm, Option.map_eq_some_iff] at heq
  obtain ⟨n, hn, hspelled⟩ := heq
  obtain ⟨hmem, hpasses⟩ := List.mem_filter.1 (StandIn.mem_of_leastBy hn)
  unfold Method.respelled at hspelled
  split at hspelled
  · next hm =>
    subst hm
    have hcopies := h.isCopyOrMoveOf_bare.2 hneither.1
    rw [hcopies] at hpasses
    simp at hpasses
  · exact hfresh (hspelled ▸ hmem)

end ClassModel.Respelling

end Choices

section Planning
variable {p : Planner} {c d : ClassModel} {m : Method} {declaredType : String}

/-- The planner whose table has another model of one class. -/
def Planner.replace (p : Planner) (c c' : ClassModel) : Planner :=
  { p with table := p.table.replace c c' }

theorem ModelTable.models_replace (t : ModelTable) (c c' : ClassModel) :
    (t.replace c c').models = t.models.map fun d => if d = c then c' else d := by
  rw [models, models, replace, List.map_map, List.map_map]
  rfl

/-- Lookups that do not find the class find the same in both tables. -/
theorem ModelTable.findClass?_replace {t : ModelTable} {c' : ClassModel} {name : String}
    (hname : c'.name = c.name) (hqualified : c'.qualifiedName = c.qualifiedName)
    (hother : name ≠ c.name ∧ name ≠ c.qualifiedName) :
    (t.replace c c').findClass? name = t.findClass? name := by
  have hmiss : ¬(c.name == name || c.qualifiedName == name) = true := by
    rw [Bool.or_eq_true, beq_iff_eq, beq_iff_eq, not_or]
    exact ⟨hother.1.symm, hother.2.symm⟩
  have hmiss' : ¬(c'.name == name || c'.qualifiedName == name) = true := by
    rwa [hname, hqualified]
  rw [findClass?, findClass?, models_replace]
  induction t.models with
  | nil => rfl
  | cons d ds ih =>
    rw [List.map_cons, List.find?_cons, List.find?_cons, ih]
    split_ifs with hd
    · subst hd
      rw [Bool.eq_false_iff.2 hmiss, Bool.eq_false_iff.2 hmiss']
    · rfl

namespace ClassModel

theorem name_respell : (c.respell m declaredType).name = c.name := rfl

theorem qualifiedName_respell : (c.respell m declaredType).qualifiedName = c.qualifiedName := rfl

/-- A parameter asks for the same in both tables. -/
theorem dependency_respell (p : Planner) (q : Parameter) :
    (p.replace c (c.respell m declaredType)).dependency (c.respell m declaredType) q =
      p.dependency c q := by
  unfold Planner.dependency
  dsimp only
  by_cases hself : bareType q.declaredType = c.name ∨ bareType q.declaredType = c.qualifiedName
  · have htest : (bareType q.declaredType == c.name ||
        bareType q.declaredType == c.qualifiedName) = true := by simpa using hself
    rw [name_respell, qualifiedName_respell, htest, if_pos rfl, if_pos rfl]
  · rw [not_or] at hself
    have hfound : (p.replace c (c.respell m declaredType)).table.findClass?
        (bareType q.declaredType) = p.table.findClass? (bareType q.declaredType) :=
      ModelTable.findClass?_replace rfl rfl hself
    rw [name_respell, qualifiedName_respell, hfound]
    rfl

theorem dependencies_respell (p : Planner) (ps : List (Parameter × Nat)) :
    (p.replace c (c.respell m declaredType)).dependencies (c.respell m declaredType) ps =
      p.dependencies c ps := by
  induction ps with
  | nil => rfl
  | cons q ps ih => rw [Planner.dependencies, Planner.dependencies, dependency_respell, ih]

theorem constructors_respell : (c.respell m declaredType).constructors =
    c.constructors.map (m.respelled declaredType) := by
  rw [constructors, constructors, respell, List.filter_map]
  simp only [Function.comp_def, Method.flags_respelled]

theorem publicConstructors_respell : (c.respell m declaredType).publicConstructors =
    c.publicConstructors.map (m.respelled declaredType) := by
  rw [publicConstructors, publicConstructors, constructors_respell, List.filter_map]
  simp only [Function.comp_def, Method.access_respelled]

theorem hasPublicDefaultConstructor_respell :
    (c.respell m declaredType).hasPublicDefaultConstructor = c.hasPublicDefaultConstructor := by
  rw [hasPublicDefaultConstructor, hasPublicDefaultConstructor, publicConstructors_respell,
    List.any_map]
  simp only [Function.comp_def, Method.callable_respelled]
  rfl

theorem pureMethods_respell : StandIn.pureMethods (c.respell m declaredType) =
    (StandIn.pureMethods c).map (m.respelled declaredType) := by
  rw [StandIn.pureMethods, StandIn.pureMethods, respell, List.filter_map]
  simp only [Function.comp_def, Method.flags_respelled]

/-- A stand-in can be built for the class in one spelling if it can in the other. -/
theorem isSome_build?_respell {maxOverrides : Nat} {header : String}
    (hbase : baseConstructor? (c.respell m declaredType) =
      (baseConstructor? c).map (m.respelled declaredType)) :
    (StandIn.build? maxOverrides (c.respell m declaredType) header).isSome =
      (StandIn.build? maxOverrides c header).isSome := by
  have hcount : (c.respell m declaredType).declaredConstructors = c.declaredConstructors := rfl
  unfold StandIn.build?
  dsimp only
  rw [pureMethods_respell, List.length_map, List.any_map, hcount, hbase]
  simp only [Function.comp_def, Method.flags_respelled]
  split
  · rfl
  · split
    · rfl
    · rw [Option.isSome_map, Option.isSome_map, Option.isSome_map]

/-- And it has the same name. -/
theorem map_name_standInFor?_respell (p : Planner)
    (hbase : baseConstructor? (c.respell m declaredType) =
      (baseConstructor? c).map (m.respelled declaredType)) :
    ((p.replace c (c.respell m declaredType)).standInFor? (c.respell m declaredType)).map
      (·.name) = (p.standInFor? c).map (·.name) := by
  have hnamed : ∀ (d : ClassModel) (header : String),
      (StandIn.build? p.maxOverrides d header).map (·.name) =
        if (StandIn.build? p.maxOverrides d header).isSome then some (StandIn.typeName d)
        else none := by
    intro d header
    cases hbuild : StandIn.build? p.maxOverrides d header with
    | none => rfl
    | some s => simp [(StandIn.of_build? hbuild).1]
  have hbuilt : (StandIn.build? p.maxOverrides (c.respell m declaredType)
      (c.header.includePath p.root)).map (·.name) =
        (StandIn.build? p.maxOverrides c (c.header.includePath p.root)).map (·.name) := by
    rw [hnamed, hnamed, isSome_build?_respell hbase]
    rfl
  have hmay : (p.replace c (c.respell m declaredType)).maySubstitute (c.respell m declaredType) =
    p.maySubstitute c := rfl
  rw [Planner.standInFor?, Planner.standInFor?, hmay]
  split
  · exact hbuilt
  · rfl

/-- A constructor that takes a reference to its own class is never planned with. -/
theorem Respelling.dependencies_error (h : c.Respelling m declaredType) :
    ∃ reason, p.dependencies c m.parameters.zipIdx = .error reason ∧
      p.dependencies c (m.withFirstType declaredType).parameters.zipIdx = .error reason := by
  obtain ⟨first, rest, hparameters, hrefers⟩ := h.bare
  refine ⟨.selfReferential, ?_, ?_⟩
  · rw [hparameters, List.zipIdx_cons, Planner.dependencies, Planner.dependency]
    simp [hrefers.named]
    rfl
  · rw [Method.withFirstType, hparameters, List.modifyHead_cons, List.zipIdx_cons,
      Planner.dependencies, Planner.dependency]
    simp [h.qualified.named]
    rfl

/-- The plans agree where the constructors agree that are chosen for the class and its stand-in. -/
theorem Respelling.construction_respell (h : c.Respelling m declaredType)
    (hchosen : chosenConstructor? (c.respell m declaredType) =
      (chosenConstructor? c).map (m.respelled declaredType))
    (hbase : baseConstructor? (c.respell m declaredType) =
      (baseConstructor? c).map (m.respelled declaredType)) :
    ((p.replace c (c.respell m declaredType)).plan (c.respell m declaredType)).construction =
      (p.plan c).construction := by
  have hvia : ((p.replace c (c.respell m declaredType)).viaConstructor
      (c.respell m declaredType)) = p.viaConstructor c := by
    have hceiling : (p.replace c (c.respell m declaredType)).ceiling = p.ceiling := rfl
    rw [Planner.viaConstructor, Planner.viaConstructor, publicConstructors_respell, hchosen,
      List.isEmpty_map, hceiling]
    split
    · rfl
    · cases chosenConstructor? c with
      | none => rfl
      | some n =>
        simp only [Option.map_some, Method.length_respelled, dependencies_respell]
        by_cases hn : n = m
        · obtain ⟨reason, hbare, hqualified⟩ := h.dependencies_error (p := p)
          rw [Method.respelled, if_pos hn, hn, hbare, hqualified]
          rfl
        · rw [Method.respelled, if_neg hn]
  have habstract : (c.respell m declaredType).isAbstract = c.isAbstract := rfl
  have hname := map_name_standInFor?_respell p hbase
  rw [Planner.plan, Planner.plan]
  simp only [Planner.construct, habstract, hasPublicDefaultConstructor_respell, hvia]
  split
  · rfl
  · split
    · rfl
    · split
      · rfl
      · cases hs : p.standInFor? c with
        | none =>
          rw [hs, Option.map_none, Option.map_eq_none_iff] at hname
          rw [hname]
        | some s =>
          rw [hs, Option.map_some, Option.map_eq_some_iff] at hname
          obtain ⟨s', hs', hname⟩ := hname
          rw [hs']
          exact congrArg Construction.byStandIn hname

end ClassModel

end Planning

namespace Generator

section Targeting
variable {g : Generator} {c d : ClassModel} {m n : Method} {plan : Plan}

/-- A first test is for that constructor of the class. -/
def Targets (g : Generator) (d : ClassModel) (n : Method) : Prop :=
  n.flags.isConstructor ∧ ∃ index kind, d.methods[index]? = some n ∧
    some ⟨d.qualifiedName, n.name, .member index, kind⟩ ∈ g.forTable.map (·.task?)

/-- A constructor that tests may call in a wanted scenario. -/
structure Wanted (g : Generator) (d : ClassModel) (n : Method) : Prop where
  mem : n ∈ d.methods
  eligible : g.constructorEligible d n
  scenario : ∃ kind ∈ constructorKinds n, g.catalogue.enables kind

theorem map_task?_forConstructor (hn : n ∈ d.methods) :
    (g.forConstructor d n).map (·.task?) =
      if g.constructorEligible d n then (g.catalogue.filter (constructorKinds n)).map fun kind =>
        some ⟨d.qualifiedName, n.name, .member (d.methods.idxOf n), kind⟩
      else [] := by
  rw [forConstructor, idxOf?_of_mem hn]
  dsimp only
  split
  · next heligible =>
    exact map_task?_renderMember (List.getElem?_idxOf hn)
      (callable_of_constructorEligible heligible) _
  · rfl

theorem forMember_of_constructor (hn : n ∈ d.methods) (hconstructs : n.flags.isConstructor) :
    g.forMember d n plan = g.forConstructor d n := by
  rw [forMember, idxOf?_of_mem hn]
  exact if_pos hconstructs

/-- A constructor that a test of the class is for is wanted. -/
theorem wanted_of_mem_forMember {index : Nat} {kind : ScenarioKind}
    (hn : d.methods[index]? = some n) (hconstructs : n.flags.isConstructor)
    (hm : m ∈ d.methods)
    (h : some ⟨d.qualifiedName, n.name, .member index, kind⟩ ∈
      (g.forMember d m plan).map (·.task?)) : g.Wanted d n := by
  cases hconstructor : m.flags.isConstructor with
  | true =>
    rw [forMember_of_constructor hm hconstructor, map_task?_forConstructor hm] at h
    split at h
    · next heligible =>
      obtain ⟨kind', hkind, htask⟩ := List.mem_map.1 h
      obtain ⟨hkinds, hwanted⟩ := List.mem_filter.1 hkind
      simp only [Option.some.injEq, Task.mk.injEq, TargetRef.member.injEq] at htask
      obtain rfl : m = n := by
        rw [← htask.2.2.1, List.getElem?_idxOf hm] at hn
        exact Option.some.inj hn
      exact ⟨hm, heligible, kind', hkinds, hwanted⟩
    · cases h
  | false =>
    obtain ⟨a, ha, htask⟩ := List.mem_map.1 h
    obtain ⟨place, kind', given, hplace, -, -, hrender⟩ := mem_forMember ha
    obtain ⟨_, _, rfl, -⟩ := renderMember?_eq_some hrender
    simp only [TestArtifact.task?, finish, Request.initial, Option.map_some, Option.some.injEq,
      Task.mk.injEq, TargetRef.member.injEq] at htask
    rw [htask.2.2.1, hn] at hplace
    rw [← Option.some.inj hplace, hconstructs] at hconstructor
    cases hconstructor

/-- The constructors that first tests are for are those that are wanted. -/
theorem targets_iff {table : ModelTable} (hkeyed : table.Keyed) (synthesis : SynthesisSettings)
    (completion : CompletionSettings) (root : Path) (hd : d ∈ table.models) :
    (ofSettings table synthesis completion root).Targets d n ↔ n.flags.isConstructor ∧
      (ofSettings table synthesis completion root).Wanted d n := by
  have hnames : (table.models.map (·.qualifiedName)).Nodup := by
    rw [ModelTable.models, List.map_map]
    exact hkeyed.nodup
  rw [Targets]
  refine and_congr_right fun hconstructs => ?_
  simp only [forTable_eq, map_task?_assignIds, drafts, List.map_append, List.mem_append]
  constructor
  · rintro ⟨index, kind, hn, htask | htask⟩
    · obtain ⟨a, ha, htask⟩ := List.mem_map.1 htask
      obtain ⟨c, hc, ha⟩ := List.mem_flatMap.1 ha
      unfold forClass at ha
      split at ha
      · cases ha
      · obtain ⟨m, hm, ha⟩ := List.mem_flatMap.1 ha
        obtain ⟨_, _, _, -, -, -, hrender⟩ := mem_forMember ha
        obtain ⟨_, _, rfl, -, hclass, -⟩ := renderMember?_eq_some hrender
        obtain rfl : c = d := by
          refine List.inj_on_of_nodup_map hnames hc hd (hclass.symm.trans ?_)
          exact congrArg Task.className (Option.some.inj htask)
        exact wanted_of_mem_forMember hn hconstructs hm (List.mem_map.2 ⟨_, ha, htask⟩)
    · obtain ⟨a, ha, htask⟩ := List.mem_map.1 htask
      split at ha
      · obtain ⟨f, -, ha⟩ := List.mem_flatMap.1 ha
        obtain ⟨_, _, _, -, -, hrender⟩ := mem_forFunction ha
        obtain ⟨_, _, rfl, -⟩ := renderFunction?_eq_some hrender
        cases congrArg Task.target (Option.some.inj htask)
      · cases ha
  · rintro ⟨hmem, heligible, kind, hkind, hwanted⟩
    refine ⟨d.methods.idxOf n, kind, List.getElem?_idxOf hmem, .inl ?_⟩
    obtain ⟨plan, hplan⟩ := exists_planOf? hd synthesis completion root
    rw [List.map_flatMap, List.mem_flatMap]
    refine ⟨d, hd, ?_⟩
    rw [forClass, hplan]
    dsimp only
    rw [List.map_flatMap, List.mem_flatMap]
    refine ⟨n, hmem, ?_⟩
    rw [forMember_of_constructor hmem hconstructs, map_task?_forConstructor hmem, if_pos heligible]
    exact List.mem_map.2 ⟨kind, List.mem_filter.2 ⟨hkind, hwanted⟩, rfl⟩

end Targeting

section Agreement
variable {table : ModelTable} {c : ClassModel} {m : Method} {declaredType : String}

theorem keyed_replace {c' : ClassModel} (hkeyed : table.Keyed)
    (hqualified : c'.qualifiedName = c.qualifiedName) : (table.replace c c').Keyed := by
  have hsame : ∀ d : ClassModel, (if d = c then c' else d).qualifiedName = d.qualifiedName := by
    intro d
    split_ifs with hd
    · rw [hd, hqualified]
    · rfl
  constructor
  · intro e he
    obtain ⟨entry, hentry, rfl⟩ := List.mem_map.1 he
    exact (hkeyed.className entry hentry).trans (hsame entry.2).symm
  · have hnames : (table.replace c c').classes.map (·.2.qualifiedName) =
        table.classes.map (·.2.qualifiedName) := by
      rw [ModelTable.replace, List.map_map]
      exact List.map_congr_left fun e _ => hsame e.2
    rw [hnames]
    exact hkeyed.nodup

theorem mem_models_replace {c' : ClassModel} (hc : c ∈ table.models) :
    c' ∈ (table.replace c c').models := by
  rw [ModelTable.models_replace]
  exact List.mem_map.2 ⟨c, hc, if_pos rfl⟩

/-- Tests may call the same constructors in both spellings, apart from those that copy or move. -/
theorem constructorEligible_respelled (g : Generator) (h : c.Respelling m declaredType)
    {n : Method} (hn : n ≠ m ∨ m.TakesMore) :
    g.constructorEligible (c.respell m declaredType) (m.respelled declaredType n) =
      g.constructorEligible c n := by
  have hcopies : (m.respelled declaredType n).isCopyOrMoveOf c.name = n.isCopyOrMoveOf c.name := by
    rw [h.isCopyOrMoveOf_respelled]
    rcases hn with hn | hmore
    · rw [bne_iff_ne.2 hn, Bool.and_true]
    · by_cases hn : n = m
      · subst hn
        rw [Bool.eq_false_iff.2 (mt h.isCopyOrMoveOf_bare.1 (not_not.2 hmore)), Bool.false_and]
      · rw [bne_iff_ne.2 hn, Bool.and_true]
  have hname : (c.respell m declaredType).name = c.name := rfl
  have habstract : (c.respell m declaredType).isAbstract = c.isAbstract := rfl
  have hdestructor : (c.respell m declaredType).hasNonPublicDestructor =
    c.hasNonPublicDestructor := rfl
  simp only [constructorEligible, Method.flags_respelled, Method.access_respelled,
    Method.length_respelled, hname, hcopies, habstract, hdestructor]

theorem takesMore_of_constructorEligible {g : Generator} (h : c.Respelling m declaredType)
    (heligible : g.constructorEligible c m) : m.TakesMore := by
  have hmaking := making_iff.2 heligible
  by_contra hless
  rw [← h.isCopyOrMoveOf_bare, hmaking.original] at hless
  cases hless

theorem constructorKinds_respelled (m n : Method) (declaredType : String) :
    constructorKinds (m.respelled declaredType n) = constructorKinds n := by
  have hempty : (m.respelled declaredType n).parameters.isEmpty = n.parameters.isEmpty := by
    rw [Bool.eq_iff_iff, List.isEmpty_iff_length_eq_zero, List.isEmpty_iff_length_eq_zero,
      Method.length_respelled]
  rw [constructorKinds, constructorKinds, hempty]

/-- The constructors that first tests are for are the same in both spellings, if the respelled one
is not among them, or if that requires more. -/
theorem targets_respell (hkeyed : table.Keyed) (hc : c ∈ table.models)
    (h : c.Respelling m declaredType) (synthesis : SynthesisSettings)
    (completion : CompletionSettings) (root : Path)
    (hother : m.TakesMore ∨ ¬(ofSettings (table.replace c (c.respell m declaredType)) synthesis
      completion root).Targets (c.respell m declaredType) (m.withFirstType declaredType))
    (n' : Method) :
    (ofSettings (table.replace c (c.respell m declaredType)) synthesis completion root).Targets
      (c.respell m declaredType) n' ↔
        ∃ n, (ofSettings table synthesis completion root).Targets c n ∧
          m.respelled declaredType n = n' := by
  have hkeyed' : (table.replace c (c.respell m declaredType)).Keyed := keyed_replace hkeyed rfl
  have hc' : c.respell m declaredType ∈ (table.replace c (c.respell m declaredType)).models :=
    mem_models_replace hc
  simp only [targets_iff hkeyed synthesis completion root hc,
    targets_iff hkeyed' synthesis completion root hc'] at hother ⊢
  constructor
  · rintro ⟨hconstructs, hmem, heligible, hscenario⟩
    obtain ⟨n, hn, rfl⟩ := List.mem_map.1 hmem
    have happly : n ≠ m ∨ m.TakesMore := by
      rcases hother with hmore | hnot
      · exact .inr hmore
      · refine .inl fun hm => hnot ?_
        rw [hm, Method.respelled, if_pos rfl] at hconstructs hmem heligible hscenario
        exact ⟨hconstructs, hmem, heligible, hscenario⟩
    rw [constructorEligible_respelled _ h happly] at heligible
    rw [constructorKinds_respelled] at hscenario
    rw [Method.flags_respelled] at hconstructs
    exact ⟨n, ⟨hconstructs, hn, heligible, hscenario⟩, rfl⟩
  · rintro ⟨n, ⟨hconstructs, hn, heligible, hscenario⟩, rfl⟩
    have happly : n ≠ m ∨ m.TakesMore := by
      by_cases hm : n = m
      · exact .inr (takesMore_of_constructorEligible h (hm ▸ heligible))
      · exact .inl hm
    rw [← @Method.flags_respelled m n declaredType] at hconstructs
    rw [← constructorKinds_respelled m n declaredType] at hscenario
    refine ⟨hconstructs, List.mem_map_of_mem hn, ?_, hscenario⟩
    exact (constructorEligible_respelled _ h happly).trans heligible

/-- And only then, for a class that does not declare both spellings. -/
theorem targets_respell_iff (hkeyed : table.Keyed) (hc : c ∈ table.models)
    (h : c.Respelling m declaredType) (synthesis : SynthesisSettings)
    (completion : CompletionSettings) (root : Path)
    (hfresh : m.withFirstType declaredType ∉ c.methods) :
    (∀ n', (ofSettings (table.replace c (c.respell m declaredType)) synthesis completion
      root).Targets (c.respell m declaredType) n' ↔
        ∃ n, (ofSettings table synthesis completion root).Targets c n ∧
          m.respelled declaredType n = n') ↔
    m.TakesMore ∨ ¬(ofSettings (table.replace c (c.respell m declaredType)) synthesis
      completion root).Targets (c.respell m declaredType) (m.withFirstType declaredType) := by
  refine ⟨fun hsame => ?_, targets_respell hkeyed hc h synthesis completion root⟩
  by_contra hneither
  rw [not_or, not_not] at hneither
  obtain ⟨n, htarget, hspelled⟩ := (hsame _).1 hneither.2
  obtain ⟨-, hwanted⟩ := (targets_iff hkeyed synthesis completion root hc).1 htarget
  unfold Method.respelled at hspelled
  split at hspelled
  · next hm => exact hneither.1 (takesMore_of_constructorEligible h (hm ▸ hwanted.eligible))
  · exact hfresh (hspelled ▸ hwanted.mem)

/-- A constructor that takes a reference to its own class may be spelled with the bare or with the
qualified name of the class. Whether it copies or moves is told alike in both spellings exactly if
it requires more than one argument. If so, the plan chooses the same constructor, stand-ins call the
same one, first tests are for the same ones, and the class is made in the same way. If not, each of
these still agrees exactly if it does not take the constructor under the qualified name, provided
that the class does not declare both spellings at once. -/
theorem respelling_agrees (hkeyed : table.Keyed) (hc : c ∈ table.models)
    (h : c.Respelling m declaredType) (synthesis : SynthesisSettings)
    (completion : CompletionSettings) (root : Path) :
    let m' := m.withFirstType declaredType
    let c' := c.respell m declaredType
    let g := ofSettings table synthesis completion root
    let g' := ofSettings (table.replace c c') synthesis completion root
    let sameChosen := chosenConstructor? c' = (chosenConstructor? c).map (m.respelled declaredType)
    let sameBase := baseConstructor? c' = (baseConstructor? c).map (m.respelled declaredType)
    let sameTargets := ∀ n', g'.Targets c' n' ↔ ∃ n, g.Targets c n ∧ m.respelled declaredType n = n'
    let samePlan :=
      ((Planner.ofSettings (table.replace c c') synthesis root).plan c').construction =
        ((Planner.ofSettings table synthesis root).plan c).construction
    (m'.isCopyOrMoveOf c'.name = m.isCopyOrMoveOf c.name ↔ m.TakesMore) ∧
    (m.TakesMore → sameChosen ∧ sameBase ∧ sameTargets ∧ samePlan) ∧
    (m' ∉ c.methods →
      (sameChosen ↔ m.TakesMore ∨ chosenConstructor? c' ≠ some m') ∧
      (sameBase ↔ m.TakesMore ∨ baseConstructor? c' ≠ some m') ∧
      (sameTargets ↔ m.TakesMore ∨ ¬g'.Targets c' m')) ∧
    (sameChosen → sameBase → samePlan) := by
  intro m' c' g g' sameChosen sameBase sameTargets samePlan
  have hcopies : m'.isCopyOrMoveOf c'.name = m.isCopyOrMoveOf c.name ↔ m.TakesMore := by
    have hbare := h.isCopyOrMoveOf_bare
    have hqualified : m'.isCopyOrMoveOf c'.name = false := h.isCopyOrMoveOf_qualified
    rw [hqualified, eq_comm, ← Bool.not_eq_true, hbare, not_not]
  have hplan : sameChosen → sameBase → samePlan :=
    h.construction_respell (p := .ofSettings table synthesis root)
  have hlength : ∀ n, (m.respelled declaredType n).parameters.length = n.parameters.length :=
    fun n => Method.length_respelled
  have hrequired : ∀ n, (requiredParameters (m.respelled declaredType n)).length =
      (requiredParameters n).length := fun n => Method.required_respelled
  have hoffered := m.isOffered_respelled declaredType
  have hinherited := m.isInherited_respelled declaredType
  simp only [sameChosen, sameBase, chosenConstructor?_eq_takes, baseConstructor?_eq_takes]
    at hplan ⊢
  refine ⟨hcopies, fun hmore => ?_, fun hfresh => ⟨?_, ?_, ?_⟩, hplan⟩
  · have hchosen := h.takes_respell (·.parameters.length) Method.isOffered hlength hoffered
      (.inl hmore)
    have hbase := h.takes_respell (fun n => (requiredParameters n).length)
      Method.isInherited hrequired hinherited (.inl hmore)
    exact ⟨hchosen, hbase, targets_respell hkeyed hc h synthesis completion root (.inl hmore),
      hplan hchosen hbase⟩
  · exact h.takes_respell_iff (·.parameters.length) Method.isOffered hlength hoffered hfresh
  · exact h.takes_respell_iff (fun n => (requiredParameters n).length) Method.isInherited
      hrequired hinherited hfresh
  · exact targets_respell_iff hkeyed hc h synthesis completion root hfresh

def sealPair : Method :=
  { name := "Seal", returnType := ""
    parameters := [⟨"int", "width", false⟩, ⟨"int", "height", false⟩]
    flags := { isConstructor := true }, access := .everyone }

def sealCopy : Method := { sealPair with parameters := [⟨"const Seal&", "other", false⟩] }

def sealTinted : Method :=
  { sealPair with parameters := [⟨"const Seal&", "other", false⟩, ⟨"int", "tint", false⟩] }

/-- A class with a constructor that copies, and one that takes a reference and a number. -/
def sealModel : ClassModel :=
  { name := "Seal", scope := "ink", bases := .empty, methods := [sealPair, sealCopy, sealTinted]
    memberVariables := [], hasDefaultConstructor := false, isAbstract := false
    header := ⟨⟨"/p/seal.h"⟩, .header⟩, isStruct := false, declaredConstructors := 3 }

def sealTable : ModelTable := { classes := [(⟨⟨⟨"/p/seal.h"⟩, .header⟩, "ink::Seal"⟩, sealModel)] }

theorem keyed_sealTable : sealTable.Keyed := ⟨by decide +kernel, by decide +kernel⟩

theorem sealModel_mem : sealModel ∈ sealTable.models := by decide +kernel

/-- A reference to the class may be spelled in both ways. -/
theorem respelling_sealModel (rest : List Parameter)
    (hmem : { sealPair with parameters := ⟨"const Seal&", "other", false⟩ :: rest } ∈
      sealModel.methods) :
    sealModel.Respelling
      { sealPair with parameters := ⟨"const Seal&", "other", false⟩ :: rest }
      "const ink::Seal&" where
  inNamespace := by decide
  mem := hmem
  constructs := rfl
  bare := ⟨_, _, rfl, by decide +kernel, by decide +kernel⟩
  qualified := ⟨by decide +kernel, by decide +kernel⟩

/-- The constructor that takes a number too is taken or left alike in both spellings. -/
theorem respelling_agrees_tinted :
    sealTable.Keyed ∧ sealModel ∈ sealTable.models ∧
      sealModel.Respelling sealTinted "const ink::Seal&" ∧ sealTinted.TakesMore ∧
      (sealTinted.withFirstType "const ink::Seal&").isCopyOrMoveOf "Seal" =
        sealTinted.isCopyOrMoveOf "Seal" := by
  have hrespelling := respelling_sealModel [⟨"int", "tint", false⟩] (by decide +kernel)
  have hmore : sealTinted.TakesMore := by
    rw [Method.TakesMore]
    decide +kernel
  exact ⟨keyed_sealTable, sealModel_mem, hrespelling, hmore,
    (respelling_agrees keyed_sealTable sealModel_mem hrespelling {} {} ⟨"/p"⟩).1.2 hmore⟩

/-- The constructor that copies is known as such under the bare name only. Under the qualified one
it is chosen for the plan, which gives up then, it is called by stand-ins, and it is tested. -/
theorem respelling_disagrees_copy :
    let m' := sealCopy.withFirstType "const ink::Seal&"
    let c' := sealModel.respell sealCopy "const ink::Seal&"
    let g := ofSettings sealTable {} {} ⟨"/p"⟩
    let g' := ofSettings (sealTable.replace sealModel c') {} {} ⟨"/p"⟩
    sealTable.Keyed ∧ sealModel ∈ sealTable.models ∧
      sealModel.Respelling sealCopy "const ink::Seal&" ∧
      (sealCopy.isCopyOrMoveOf "Seal" = true ∧ m'.isCopyOrMoveOf "Seal" = false) ∧
      ((g.planOf? sealModel).map (·.construction) = some (.byConstructor sealPair []) ∧
        (g'.planOf? c').map (·.construction) = some (.infeasible .selfReferential)) ∧
      (baseConstructor? sealModel = some sealPair ∧ baseConstructor? c' = some m') ∧
      (¬g.Targets sealModel sealCopy ∧ g'.Targets c' m') := by
  intro m' c' g g'
  have hkeyed' : (sealTable.replace sealModel c').Keyed := keyed_replace keyed_sealTable rfl
  have hmem' : c' ∈ (sealTable.replace sealModel c').models := mem_models_replace sealModel_mem
  refine ⟨keyed_sealTable, sealModel_mem, respelling_sealModel [] (by decide +kernel),
    by decide +kernel, by decide +kernel, by decide +kernel, fun htarget => ?_, ?_⟩
  · have hwanted := (targets_iff keyed_sealTable {} {} ⟨"/p"⟩ sealModel_mem).1 htarget
    exact absurd hwanted.2.eligible (by decide +kernel)
  · refine (targets_iff hkeyed' {} {} ⟨"/p"⟩ hmem').2 ⟨rfl, by decide +kernel, ?_, ?_⟩
    · decide +kernel
    · exact ⟨.basicConstruction, by decide +kernel, by decide +kernel⟩

end Agreement

end Generator

end TestSynth
