import TestSynth.Proofs.Header.WellFormed
import TestSynth.Proofs.Plan.Planning
/-!
What a stand-in overrides. Its header defines every pure method of the class, and others while the
budget lasts; all of them are virtual methods of the class. Where the class declares no destructor
as pure, and none of those methods twice, they are overrides that a class may declare side by side.
-/
namespace TestSynth

namespace StandIn

/-- The methods worth overriding: the pure ones first. -/
def candidates (c : ClassModel) : List Method :=
  pureMethods c ++ c.methods.filter isOptionalOverride

/-- The candidates that the budget leaves: all pure methods, then others. -/
def overrides (maxOverrides : Nat) (c : ClassModel) : List Method :=
  pureMethods c ++
    (c.methods.filter isOptionalOverride).take (maxOverrides - (pureMethods c).length)

/-- What tells the members of one class apart. -/
def declaredAs (m : Method) : String × List String × Bool :=
  (m.name, m.parameters.map (·.declaredType), m.flags.isConst)

/-- A method that a subtype may define anew, with a return type to write in front of it. -/
structure Overridable (c : ClassModel) (m : Method) : Prop where
  mem : m ∈ c.methods
  isVirtual : m.flags.isVirtual
  notConstructor : m.flags.isConstructor = false
  notDestructor : m.flags.isDestructor = false
  typed : m.returnType ≠ ""

section Building
variable {maxOverrides : Nat} {c : ClassModel} {headerInclude : String} {s : StandIn} {m : Method}

/-- A stand-in overrides within its budget what it can, and its header defines just that. -/
theorem overrides_of_build? (h : build? maxOverrides c headerInclude = some s) :
    (pureMethods c).length ≤ maxOverrides ∧
      s.overridden = (overrides maxOverrides c).map (·.name) ∧
      ∃ constructor, s.headerText = Artifact.lineBlock (headerLines (typeName c) c.qualifiedName
        headerInclude constructor (overrides maxOverrides c)) := by
  unfold build? at h
  dsimp only at h
  split at h
  · cases h
  · next hbudget =>
    rw [Bool.or_eq_true, not_or, decide_eq_true_eq, not_lt] at hbudget
    split at h
    · obtain rfl := Option.some.inj h
      refine ⟨hbudget.1, rfl, none, ?_⟩
      rw [overrides]
    · obtain ⟨constructor, -, rfl⟩ := Option.map_eq_some_iff.1 h
      refine ⟨hbudget.1, rfl, some constructor, ?_⟩
      rw [overrides]

theorem mem_pureMethods : m ∈ pureMethods c ↔ m ∈ c.methods ∧ m.flags.isPureVirtual := by
  rw [pureMethods, List.mem_filter]

theorem overrides_sublist (maxOverrides : Nat) (c : ClassModel) :
    (overrides maxOverrides c).Sublist (candidates c) :=
  (List.take_sublist _ _).append_left _

/-- A budget for all candidates leaves none out. -/
theorem overrides_eq_candidates (h : (candidates c).length ≤ maxOverrides) :
    overrides maxOverrides c = candidates c := by
  rw [candidates, List.length_append] at h
  rw [overrides, candidates, List.take_of_length_le (by omega)]

theorem length_overrides_le (h : (pureMethods c).length ≤ maxOverrides) :
    (overrides maxOverrides c).length ≤ maxOverrides := by
  rw [overrides, List.length_append, List.length_take]
  omega

/-- A candidate is a virtual method, and a destructor only if it is pure. -/
theorem candidate_cases (hc : c.WellFormed) (hm : m ∈ candidates c) :
    m ∈ c.methods ∧ m.flags.isVirtual ∧ (m.flags.isDestructor → m.flags.isPureVirtual) := by
  rcases List.mem_append.1 hm with hm | hm
  · obtain ⟨hmem, hpure⟩ := mem_pureMethods.1 hm
    exact ⟨hmem, (hc.methods m hmem).virtual_of_pure hpure, fun _ => hpure⟩
  · obtain ⟨hmem, hoptional⟩ := List.mem_filter.1 hm
    simp only [isOptionalOverride, Bool.and_eq_true, Bool.not_eq_true', beq_iff_eq] at hoptional
    obtain ⟨⟨⟨⟨hvirtual, -⟩, hdestructor⟩, -⟩, -⟩ := hoptional
    refine ⟨hmem, hvirtual, fun h => ?_⟩
    rw [hdestructor] at h
    cases h

/-- Of the candidates, all can be overridden that neither construct nor destroy. -/
theorem overridable_iff (hc : c.WellFormed) (hm : m ∈ candidates c) :
    Overridable c m ↔ m.flags.isConstructor = false ∧ m.flags.isDestructor = false := by
  obtain ⟨hmem, hvirtual, -⟩ := candidate_cases hc hm
  constructor
  · exact fun h => ⟨h.notConstructor, h.notDestructor⟩
  · rintro ⟨hconstructor, hdestructor⟩
    have htyped := (hc.methods m hmem).typed hconstructor hdestructor
    exact ⟨hmem, hvirtual, hconstructor, hdestructor, htyped⟩

end Building

section Whole
variable {limits : Header.Limits} {headers : List (SourceUnit × String)} {maxOverrides : Nat}
  {c : ClassModel} {headerInclude : String} {s : StandIn}

/-- The stand-in of a class that is read from headers overrides every pure method of it, and no more
methods than the budget allows; its header defines these and no others. They are virtual methods of
the class with a return type, unless they are pure destructors, or constructors that are declared
as virtual; so all are overrides exactly if the class has none of those. They are told apart by
names, parameter types and constness wherever all candidates are, and the budget for all candidates
leaves none of them out. -/
theorem build?_overrides (hc : c ∈ (ModelTable.readHeaders limits headers).models)
    (h : build? maxOverrides c headerInclude = some s) :
    (s.overridden = (overrides maxOverrides c).map (·.name) ∧
      ∃ constructor, s.headerText = Artifact.lineBlock (headerLines (typeName c) c.qualifiedName
        headerInclude constructor (overrides maxOverrides c))) ∧
    (∀ m ∈ c.methods, m.flags.isPureVirtual → m ∈ overrides maxOverrides c) ∧
    (overrides maxOverrides c).length ≤ maxOverrides ∧
    (∀ m ∈ overrides maxOverrides c, m ∈ c.methods ∧ m.flags.isVirtual ∧
      (Overridable c m ∨ m.flags.isConstructor ∨ m.flags.isDestructor ∧ m.flags.isPureVirtual)) ∧
    ((∀ m ∈ overrides maxOverrides c, Overridable c m) ↔
      (∀ m ∈ c.methods, m.flags.isPureVirtual → m.flags.isDestructor = false) ∧
        ∀ m ∈ overrides maxOverrides c, m.flags.isConstructor = false) ∧
    (((candidates c).map declaredAs).Nodup → ((overrides maxOverrides c).map declaredAs).Nodup) ∧
    ((candidates c).length ≤ maxOverrides → overrides maxOverrides c = candidates c) := by
  have hwellFormed : c.WellFormed := by
    obtain ⟨e, he, rfl⟩ := List.mem_map.1 hc
    exact (ModelTable.wellFormed_readHeaders limits headers).classes e he
  obtain ⟨hbudget, hoverridden, htext⟩ := overrides_of_build? h
  have hcandidate : ∀ m ∈ overrides maxOverrides c, m ∈ candidates c :=
    fun m hm => (overrides_sublist maxOverrides c).subset hm
  have hpure : ∀ m ∈ c.methods, m.flags.isPureVirtual → m ∈ overrides maxOverrides c :=
    fun m hm hp => List.mem_append_left _ (mem_pureMethods.2 ⟨hm, hp⟩)
  refine ⟨⟨hoverridden, htext⟩, hpure, length_overrides_le hbudget, fun m hm => ?_, ?_, ?_,
    overrides_eq_candidates⟩
  · obtain ⟨hmem, hvirtual, hdestructor⟩ := candidate_cases hwellFormed (hcandidate m hm)
    refine ⟨hmem, hvirtual, ?_⟩
    rw [overridable_iff hwellFormed (hcandidate m hm)]
    cases hc : m.flags.isConstructor with
    | true => exact .inr (.inl rfl)
    | false =>
      cases hd : m.flags.isDestructor with
      | true => exact .inr (.inr ⟨rfl, hdestructor hd⟩)
      | false => exact .inl ⟨rfl, rfl⟩
  · constructor
    · intro hall
      exact ⟨fun m hm hp => (hall m (hpure m hm hp)).notDestructor,
        fun m hm => (hall m hm).notConstructor⟩
    · rintro ⟨hdestructor, hconstructor⟩ m hm
      refine (overridable_iff hwellFormed (hcandidate m hm)).2 ⟨hconstructor m hm, ?_⟩
      obtain ⟨hmem, -, hofPure⟩ := candidate_cases hwellFormed (hcandidate m hm)
      by_contra hd
      rw [Bool.not_eq_false] at hd
      rw [hdestructor m hmem (hofPure hd)] at hd
      cases hd
  · exact fun hnodup => hnodup.sublist ((overrides_sublist maxOverrides c).map _)

/-- A class with a pure method and one that need not be overridden. -/
def porterHeaders : List (SourceUnit × String) :=
  [(⟨⟨"/p/porter.h"⟩, .header⟩, "class Porter \x7b public: explicit Porter(int strength); " ++
    "virtual ~Porter(); virtual void carry(int load) = 0; virtual int count() const; \x7d;")]

def porterCarry : Method :=
  { name := "carry", returnType := "void", parameters := [⟨"int", "load", false⟩]
    flags := { isVirtual := true, isPureVirtual := true }, access := .everyone }

def porterCount : Method :=
  { name := "count", returnType := "int", parameters := []
    flags := { isConst := true, isVirtual := true }, access := .everyone }

def porterModel : ClassModel :=
  { name := "Porter", scope := "", bases := .empty
    methods :=
      [{ name := "Porter", returnType := "", parameters := [⟨"int", "strength", false⟩]
         flags := { isConstructor := true }, access := .everyone },
       { name := "~Porter", returnType := "", parameters := []
         flags := { isVirtual := true, isDestructor := true }, access := .everyone },
       porterCarry, porterCount]
    memberVariables := [], hasDefaultConstructor := false, isAbstract := true
    header := ⟨⟨"/p/porter.h"⟩, .header⟩, isStruct := false, declaredConstructors := 1 }

/-- Both methods fit the budget, and both can be overridden. -/
theorem build?_overrides_porter :
    porterModel ∈ (ModelTable.readHeaders {} porterHeaders).models ∧
      ∃ s, build? 2 porterModel "porter.h" = some s ∧ s.overridden = ["carry", "count"] ∧
        ∀ m ∈ overrides 2 porterModel, Overridable porterModel m := by
  have hmem : porterModel ∈ (ModelTable.readHeaders {} porterHeaders).models := by decide +kernel
  have hsome : (build? 2 porterModel "porter.h").isSome := by decide +kernel
  obtain ⟨s, hs⟩ := Option.isSome_iff_exists.1 hsome
  obtain ⟨⟨hoverridden, -⟩, -, -, -, hoverridable, -⟩ := build?_overrides hmem hs
  refine ⟨hmem, s, hs, hoverridden.trans (by decide +kernel), hoverridable.2 ?_⟩
  decide +kernel

/-- A class with a pure destructor, and one that is defined in two headers. -/
def wardenHeaders : List (SourceUnit × String) :=
  [(⟨⟨"/p/warden.h"⟩, .header⟩,
      "class Warden \x7b public: virtual ~Warden() = 0; virtual void watch() = 0; \x7d;"),
    (⟨⟨"/p/day.h"⟩, .header⟩, "class Shift \x7b public: virtual void start() = 0; \x7d;"),
    (⟨⟨"/p/night.h"⟩, .header⟩, "class Shift \x7b public: virtual void start() = 0; \x7d;")]

/-- A pure destructor is overridden like a method, and a method that two headers declare is
overridden twice. -/
theorem build?_overrides_what_it_cannot :
    (∃ c ∈ (ModelTable.readHeaders {} wardenHeaders).models, ∃ s,
      build? 5 c "warden.h" = some s ∧ ∃ m ∈ overrides 5 c, ¬Overridable c m) ∧
    ∃ c ∈ (ModelTable.readHeaders {} wardenHeaders).models, ∃ s,
      build? 5 c "day.h" = some s ∧ ¬((overrides 5 c).map declaredAs).Nodup := by
  have hdestructor : ∃ c ∈ (ModelTable.readHeaders {} wardenHeaders).models,
      (build? 5 c "warden.h").isSome ∧ ∃ m ∈ overrides 5 c, m.flags.isDestructor := by
    decide +kernel
  have htwice : ∃ c ∈ (ModelTable.readHeaders {} wardenHeaders).models,
      (build? 5 c "day.h").isSome ∧ ¬((overrides 5 c).map declaredAs).Nodup := by
    decide +kernel
  constructor
  · obtain ⟨c, hc, hsome, m, hm, hdestroys⟩ := hdestructor
    obtain ⟨s, hs⟩ := Option.isSome_iff_exists.1 hsome
    refine ⟨c, hc, s, hs, m, hm, fun h => ?_⟩
    rw [h.notDestructor] at hdestroys
    cases hdestroys
  · obtain ⟨c, hc, hsome, hnodup⟩ := htwice
    obtain ⟨s, hs⟩ := Option.isSome_iff_exists.1 hsome
    exact ⟨c, hc, s, hs, hnodup⟩

end Whole

end StandIn

end TestSynth
