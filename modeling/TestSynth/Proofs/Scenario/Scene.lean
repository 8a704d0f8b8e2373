import TestSynth.Proofs.NameSet
import TestSynth.Proofs.Synthesis.Passing
/-!
Scenes: what happens in the body of a test, apart from its text. An object is made, arguments are
passed, and something is done with them. Tests are drafted from the scenes of the declarations that
they are made for.
-/
namespace TestSynth

open Artifact (callBody constructionBody checkedCall constructed)
open Synthesis (Passing)
open Typing (Category decayedCategory)

/-- What comes first in a body: the object that a method is called of, if it takes one. -/
inductive Subject where
  | absent
  | byDefault (type : String)
  | constructed (type : String) (arguments : List Passing)
  | standIn (type : String)
deriving DecidableEq, Repr

/-- What is done with the arguments. -/
inductive Deed where
  | construction (type : String)
  | call (callee : String) (category : Category) (comparable : Bool)
deriving DecidableEq, Repr

/-- What happens in the body of a test. -/
structure Scene where
  subject : Subject
  arguments : List Passing
  deed : Deed
deriving DecidableEq, Repr

/-- What is passed, as it stands between the parentheses of a call. -/
def passedList (ps : List Passing) : String := String.intercalate ", " (ps.map (·.expression))

namespace Subject

def declarations : Subject → List String
  | .absent => []
  | .byDefault type => [type ++ " obj" ++ Synthesis.braces ++ ";"]
  | .constructed type ps =>
    ps.filterMap (·.declaration?) ++ [type ++ " obj(" ++ passedList ps ++ ");"]
  | .standIn type => [type ++ " obj;"]

/-- The stand-in types that the object is made with, or is of. -/
def types : Subject → List String
  | .absent => []
  | .byDefault _ => []
  | .constructed _ ps => ps.filterMap (·.type?)
  | .standIn type => [type]

end Subject

def Deed.statements (kind : ScenarioKind) (passed : String) : Deed → List String
  | .construction type => constructionBody kind type passed
  | .call callee category comparable =>
    callBody kind (callee ++ "(" ++ passed ++ ")") category comparable

namespace Scene

def body (s : Scene) (kind : ScenarioKind) : List String :=
  s.subject.declarations ++ (s.arguments.filterMap (·.declaration?) ++
    s.deed.statements kind (passedList s.arguments))

/-- The stand-in types in the body: of locals, of what is made in place, and of the object. -/
def types (s : Scene) : List String := s.arguments.filterMap (·.type?) ++ s.subject.types

end Scene

/-- A text stands in another. -/
def Occurs (s t : String) : Prop := s.toList <:+: t.toList

namespace Occurs

variable {s t u : String} {lines : List String}

theorem refl (s : String) : Occurs s s := List.infix_rfl

theorem append (h : Occurs s t) (u : String) : Occurs s (t ++ u) := by
  rw [Occurs, String.toList_append]
  exact h.trans (List.prefix_append _ _).isInfix

theorem behind (h : Occurs s t) (u : String) : Occurs s (u ++ t) := by
  rw [Occurs, String.toList_append]
  exact h.trans (List.suffix_append _ _).isInfix

theorem trans (hs : Occurs s t) (ht : Occurs t u) : Occurs s u := List.IsInfix.trans hs ht

end Occurs

section Texts

theorem occurs_checkedCall (expression : String) (category : Category) (isGuarded : Bool) :
    ∃ line ∈ checkedCall expression category isGuarded, Occurs expression line := by
  have hself := Occurs.refl expression
  cases category with
  | void =>
    cases isGuarded with
    | false => exact ⟨_, List.mem_cons_self, (hself.behind _).append _⟩
    | true => exact ⟨_, List.mem_cons_self, hself.append _⟩
  | pointer | integer | floating | boolean | nonConstReference | constReference
  | rvalueReference | text | custom =>
    exact ⟨_, List.mem_cons_self, (hself.behind _).append _⟩

theorem occurs_callBody (kind : ScenarioKind) (expression : String) (category : Category)
    (comparable : Bool) :
    ∃ line ∈ callBody kind expression category comparable, Occurs expression line := by
  have hself := Occurs.refl expression
  cases kind with
  | basicUsage | returnValue => exact occurs_checkedCall expression category false
  | multipleInvocations =>
    exact ⟨_, List.mem_cons_of_mem _ List.mem_cons_self, (hself.behind _).append _⟩
  | edgeCases | boundaryCheck =>
    obtain ⟨line, hline, hoccurs⟩ := occurs_checkedCall expression category true
    refine ⟨"    " ++ line, ?_, hoccurs.behind _⟩
    exact List.mem_append_left _ (List.mem_append_right _ (List.mem_map_of_mem hline))
  | consistency | consistentResults =>
    cases comparable with
    | false => exact ⟨_, List.mem_cons_self, (hself.behind _).append _⟩
    | true => exact ⟨_, List.mem_cons_self, (hself.behind _).append _⟩
  | noThrow | basicConstruction | multipleInstances | stackAllocation | generated =>
    exact ⟨_, List.mem_cons_self, (hself.behind _).append _⟩

theorem occurs_constructed (type passed name : String) :
    Occurs passed (constructed type passed name) := by
  unfold constructed
  split
  · next hempty =>
    rw [String.isEmpty_iff.1 hempty]
    exact List.nil_infix
  · exact ((Occurs.refl passed).behind _).append _

theorem occurs_statements (kind : ScenarioKind) (passed : String) (d : Deed) :
    ∃ line ∈ d.statements kind passed, Occurs passed line := by
  have hself := Occurs.refl passed
  cases d with
  | construction type =>
    cases kind with
    | multipleInstances | stackAllocation =>
      exact ⟨_, List.mem_cons_self, occurs_constructed type passed _⟩
    | basicUsage | multipleInvocations | edgeCases | boundaryCheck | consistency | noThrow
    | basicConstruction | returnValue | consistentResults | generated =>
      exact ⟨_, List.mem_cons_self, (hself.behind _).append _⟩
  | call callee category comparable =>
    obtain ⟨line, hline, hoccurs⟩ :=
      occurs_callBody kind (callee ++ "(" ++ passed ++ ")") category comparable
    exact ⟨line, hline, ((hself.behind _).append _).trans hoccurs⟩

end Texts

section Stands
variable {ps : List Passing} {p : Passing} {type : String}

theorem mem_intersperse {α : Type} {separator x : α} {xs : List α} (h : x ∈ xs) :
    x ∈ xs.intersperse separator := by
  induction xs with
  | nil => cases h
  | cons y xs ih =>
    cases xs with
    | nil => exact h
    | cons z zs =>
      rw [List.intersperse_cons_cons]
      rcases List.mem_cons.1 h with rfl | h
      · exact List.mem_cons_self
      · exact List.mem_cons_of_mem _ (List.mem_cons_of_mem _ (ih h))

theorem occurs_passedList (hp : p ∈ ps) : Occurs p.expression (passedList ps) := by
  rw [Occurs, passedList, String.toList_intercalate]
  refine List.infix_of_mem_flatten (mem_intersperse ?_)
  exact List.mem_map_of_mem (List.mem_map_of_mem hp)

/-- A stand-in that is passed stands in a declaration, or in what is passed. -/
theorem occurs_of_type? (h : p.type? = some type) :
    (∃ line, p.declaration? = some line ∧ Occurs type line) ∨ Occurs type p.expression := by
  have hself := Occurs.refl type
  cases p with
  | localOf type' name | addressOf type' name =>
    cases h
    exact .inl ⟨_, rfl, (hself.append _).append _ |>.append _⟩
  | temporary type' =>
    cases h
    exact .inr (hself.append _)
  | plain => cases h

/-- Stand-in types among what is passed stand in the declarations or in the call. -/
theorem occurs_of_mem_types (h : type ∈ ps.filterMap (·.type?)) :
    (∃ line ∈ ps.filterMap (·.declaration?), Occurs type line) ∨ Occurs type (passedList ps) := by
  obtain ⟨p, hp, htype⟩ := List.mem_filterMap.1 h
  rcases occurs_of_type? htype with ⟨line, hline, hoccurs⟩ | hoccurs
  · exact .inl ⟨line, List.mem_filterMap.2 ⟨p, hp, hline⟩, hoccurs⟩
  · exact .inr (hoccurs.trans (occurs_passedList hp))

theorem Subject.occurs {s : Subject} (h : type ∈ s.types) :
    ∃ line ∈ s.declarations, Occurs type line := by
  cases s with
  | absent | byDefault => cases h
  | constructed class_ ps =>
    rcases occurs_of_mem_types h with ⟨line, hline, hoccurs⟩ | hoccurs
    · exact ⟨line, List.mem_append_left _ hline, hoccurs⟩
    · exact ⟨_, List.mem_append_right _ List.mem_cons_self, (hoccurs.behind _).append _⟩
  | standIn name =>
    obtain rfl := List.mem_singleton.1 h
    exact ⟨_, List.mem_cons_self, (Occurs.refl _).append _⟩

/-- The stand-in types of a scene stand in its body. -/
theorem Scene.occurs {s : Scene} (h : type ∈ s.types) (kind : ScenarioKind) :
    ∃ line ∈ s.body kind, Occurs type line := by
  rcases List.mem_append.1 h with h | h
  · rcases occurs_of_mem_types h with ⟨line, hline, hoccurs⟩ | hoccurs
    · exact ⟨line, List.mem_append_right _ (List.mem_append_left _ hline), hoccurs⟩
    · obtain ⟨line, hline, hpassed⟩ := occurs_statements kind (passedList s.arguments) s.deed
      exact ⟨line, List.mem_append_right _ (List.mem_append_right _ hline), hoccurs.trans hpassed⟩
  · obtain ⟨line, hline, hoccurs⟩ := Subject.occurs h
    exact ⟨line, List.mem_append_left _ hline, hoccurs⟩

end Stands

namespace Generator

variable {g : Generator} {c : ClassModel} {m : Method} {index : Nat} {q : Request}
  {a : TestArtifact}

def passings (g : Generator) (parameters : List Parameter) (flavour : Flavour)
    (firstSlot : Nat) : List Passing :=
  Synthesis.passings g.standInNames parameters flavour firstSlot

/-- The object that a plan makes, with locals numbered from `firstSlot`. -/
def subject? (g : Generator) (c : ClassModel) (plan : Plan) (firstSlot : Nat) : Option Subject :=
  match plan.construction with
  | .byDefault => some (.byDefault c.qualifiedName)
  | .byConstructor m _ =>
    some (.constructed c.qualifiedName (g.passings m.parameters .plain firstSlot))
  | .byStandIn name => some (.standIn name)
  | .infeasible _ => none

/-- What a test of a member is about. -/
def memberScene? (g : Generator) (c : ClassModel) (m : Method) (flavour : Flavour) :
    Option Scene :=
  let category := decayedCategory m.returnType
  let comparable := category.isComparable && (m.flags.isConst || m.flags.isStatic)
  let arguments := g.passings m.parameters flavour 0
  if m.flags.isConstructor then some ⟨.absent, arguments, .construction c.qualifiedName⟩
  else if m.flags.isStatic then
    some ⟨.absent, arguments, .call (c.qualifiedName ++ "::" ++ m.name) category comparable⟩
  else do
    let plan ← g.planOf? c
    let subject ← g.subject? c plan m.parameters.length
    return ⟨subject, arguments, .call ("obj." ++ m.name) category comparable⟩

/-- What a test of a function outside classes is about. -/
def functionScene (g : Generator) (f : FreeFunction) (flavour : Flavour) : Scene :=
  let category := decayedCategory f.signature.returnType
  ⟨.absent, g.passings f.signature.parameters flavour 0,
    .call f.qualifiedName category category.isComparable⟩

/-- The draft of a test has the body of a scene and names the stand-ins in it. -/
structure Drafts (d : Draft) (scene : Scene) (kind : ScenarioKind) : Prop where
  body : d.body = scene.body kind
  ordered : d.standIns.Ordered
  types : ∀ name, name ∈ d.standIns.members ↔ name ∈ scene.types

section Scenes

/-- The declarations of an object are those of the subject, and so are its stand-ins. -/
theorem objectSetup?_eq (g : Generator) (c : ClassModel) (plan : Plan) (firstSlot : Nat) :
    g.objectSetup? c plan firstSlot = (g.subject? c plan firstSlot).map fun subject =>
      ⟨subject.declarations, .ofList subject.types⟩ := by
  unfold objectSetup? subject?
  cases plan.construction with
  | byDefault => rfl
  | byConstructor m substitutions =>
    dsimp only
    rw [Synthesis.arguments_eq]
    rfl
  | byStandIn name => rfl
  | infeasible reason => rfl

/-- A method is called as in the scene, with the stand-ins of the object. -/
theorem memberCall?_eq_some {given : Option Plan} {flavour : Flavour} {kind : ScenarioKind}
    {call : List String × NameSet} (hplan : ∀ plan ∈ given, g.planOf? c = some plan)
    (hm : m.flags.isConstructor = false)
    (h : g.memberCall? c m given (Synthesis.arguments g.standInNames m.parameters flavour 0) kind =
      some call) : ∃ scene, g.memberScene? c m flavour = some scene ∧
        scene.arguments = g.passings m.parameters flavour 0 ∧ call.1 = scene.body kind ∧
        call.2 = .ofList scene.subject.types := by
  unfold memberCall? at h
  unfold memberScene?
  rw [Synthesis.arguments_eq] at h
  rw [hm, if_neg Bool.false_ne_true]
  dsimp only at h ⊢
  split at h
  · next hstatic =>
    cases h
    rw [if_pos hstatic]
    exact ⟨_, rfl, rfl, rfl, rfl⟩
  · next hstatic =>
    rw [if_neg hstatic]
    have hplanned : (given.orElse fun _ => g.planOf? c) = g.planOf? c := by
      cases given with
      | none => rfl
      | some plan => exact (hplan plan rfl).symm
    obtain ⟨plan, hplan, h⟩ := Option.bind_eq_some_iff.1 h
    obtain ⟨setup, hsetup, h⟩ := Option.bind_eq_some_iff.1 h
    rw [hplanned] at hplan
    rw [objectSetup?_eq, Option.map_eq_some_iff] at hsetup
    obtain ⟨subject, hsubject, rfl⟩ := hsetup
    cases h
    exact ⟨_, by rw [hplan, Option.bind_eq_bind, Option.bind_some, hsubject]; rfl, rfl, rfl, rfl⟩

theorem mem_ofList {names : List String} {name : String} :
    name ∈ (NameSet.ofList names).members ↔ name ∈ names := by
  rw [NameSet.ofList, NameSet.mem_foldl_insert]
  simp [NameSet.empty]

/-- A test of a member is drafted from the scene of that member. -/
theorem renderMember?_eq_finish {given : Option Plan}
    (hplan : ∀ plan ∈ given, g.planOf? c = some plan) (hm : c.methods[index]? = some m)
    (h : g.renderMember? c index given q = some a) : ∃ d scene, a = g.finish d q ∧
      g.memberScene? c m q.flavour = some scene ∧ Drafts d scene q.kind ∧
      d.header = c.header.includePath g.root ∧ d.className = c.qualifiedName ∧
      d.methodName = m.name := by
  unfold renderMember? at h
  rw [hm, Option.bind_eq_bind, Option.bind_some] at h
  dsimp only at h
  split at h
  · next hconstructor =>
    cases h
    refine ⟨_, _, rfl, if_pos hconstructor, ?_, rfl, rfl, rfl⟩
    constructor
    · rw [Synthesis.arguments_eq]
      rfl
    · rw [Synthesis.arguments_eq]
      exact (NameSet.ordered_ofList _).union _
    · intro name
      dsimp only
      rw [NameSet.mem_union, Synthesis.arguments_eq, mem_ofList]
      exact List.mem_append.symm
  · next hconstructor =>
    obtain ⟨call, hcall, h⟩ := Option.bind_eq_some_iff.1 h
    cases h
    obtain ⟨scene, hscene, harguments, hbody, htypes⟩ :=
      memberCall?_eq_some hplan (Bool.eq_false_iff.2 hconstructor) hcall
    refine ⟨_, scene, rfl, hscene, ⟨hbody, ?_, ?_⟩, rfl, rfl, rfl⟩
    · rw [Synthesis.arguments_eq]
      exact (NameSet.ordered_ofList _).union _
    · intro name
      dsimp only
      rw [NameSet.mem_union, Synthesis.arguments_eq, htypes, mem_ofList, mem_ofList, Scene.types,
        harguments, List.mem_append]
      rfl

/-- A test of a function is drafted from its scene. -/
theorem renderFunction?_eq_finish {f : FreeFunction} (hf : g.table.functions[index]? = some f)
    (h : g.renderFunction? index q = some a) : ∃ d, a = g.finish d q ∧
      Drafts d (g.functionScene f q.flavour) q.kind ∧ d.header = f.header.includePath g.root ∧
      d.className = "" ∧ d.methodName = f.qualifiedName := by
  unfold renderFunction? at h
  rw [hf, Option.bind_eq_bind, Option.bind_some] at h
  cases h
  refine ⟨_, rfl, ⟨?_, ?_, ?_⟩, rfl, rfl, rfl⟩
  · dsimp only
    rw [Synthesis.arguments_eq]
    rfl
  · rw [Synthesis.arguments_eq]
    exact NameSet.ordered_ofList _
  · intro name
    rw [Synthesis.arguments_eq, mem_ofList, Scene.types, functionScene]
    exact (List.append_nil _).symm ▸ Iff.rfl

end Scenes

end Generator

end TestSynth
