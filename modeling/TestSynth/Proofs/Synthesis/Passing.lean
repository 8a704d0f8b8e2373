import TestSynth.Proofs.Synthesis.StandIns
/-!
How tests pass arguments. A stand-in is passed by a local of its type, by the address of one, or by
one that is made in place; everything else is written as if there were no stand-ins.
-/
namespace TestSynth.Synthesis

open Typing (bareType classify)

/-- How an argument is passed. -/
inductive Passing where
  | localOf (type name : String)
  | addressOf (type name : String)
  | temporary (type : String)
  | plain (declaration : Option String) (expression : String)
deriving DecidableEq, Repr

namespace Passing

def declaration? : Passing → Option String
  | .localOf type name => some (type ++ " " ++ name ++ ";")
  | .addressOf type name => some (type ++ " " ++ name ++ ";")
  | .temporary _ => none
  | .plain declaration _ => declaration

def expression : Passing → String
  | .localOf _ name => name
  | .addressOf _ name => "&" ++ name
  | .temporary type => type ++ "()"
  | .plain _ expression => expression

/-- The stand-in type that is passed. -/
def type? : Passing → Option String
  | .localOf type _ => some type
  | .addressOf type _ => some type
  | .temporary type => some type
  | .plain .. => none

/-- What is passed, as an argument list collects it. -/
def contribution (p : Passing) : Contribution := ⟨p.declaration?, p.expression, p.type?⟩

end Passing

/-- The passing of something that no stand-in is known for. -/
def plainly (parameter : Parameter) (flavour : Flavour) (index slot : Nat) : Passing :=
  .plain (contribution .empty parameter flavour index slot).declaration
    (contribution .empty parameter flavour index slot).expression

/-- How the parameter at `index` is passed, whose local would be numbered `slot`. -/
def passing (names : StandInNames) (parameter : Parameter) (flavour : Flavour)
    (index slot : Nat) : Passing :=
  match standInFor? names (bareType parameter.declaredType) with
  | none => plainly parameter flavour index slot
  | some type => match classify parameter.declaredType with
    | .pointer => .addressOf type ("param" ++ toString slot)
    | .nonConstReference => .localOf type ("arg" ++ toString slot)
    | .constReference => .localOf type ("param" ++ toString slot)
    | .rvalueReference => .temporary type
    | .custom => .temporary type
    | _ => plainly parameter flavour index slot

def passings (names : StandInNames) (parameters : List Parameter) (flavour : Flavour)
    (firstSlot : Nat) : List Passing :=
  parameters.zipIdx.map fun q => passing names q.1 flavour q.2 (firstSlot + q.2)

section Contributions
variable {names : StandInNames} {parameter : Parameter}

theorem standInFor?_empty (base : String) : standInFor? .empty base = none := by
  rw [standInFor?_eq, OrderedMap.find?_empty, OrderedMap.find?_empty]
  rfl

/-- Where no stand-in is found for the type, or none can be passed for it, the argument is the one
without stand-ins. -/
theorem contribution_of_plain (flavour : Flavour) (index slot : Nat)
    (h : standInFor? names (bareType parameter.declaredType) = none ∨
      (classify parameter.declaredType).takesStandIn = false) :
    contribution names parameter flavour index slot =
      contribution .empty parameter flavour index slot := by
  delta Synthesis.contribution
  simp only [classify_trimString, bareType_trimString, standInFor?_empty]
  rcases h with h | h
  · rw [h]
  · cases hcategory : classify parameter.declaredType <;> rw [hcategory] at h <;>
      first | rfl | cases h

theorem contribution_plainly (parameter : Parameter) (flavour : Flavour) (index slot : Nat) :
    (plainly parameter flavour index slot).contribution =
      contribution .empty parameter flavour index slot := by
  have hnone := contribution_standIn .empty parameter flavour index slot
  rw [standInFor?_empty, ite_self] at hnone
  unfold plainly
  generalize contribution .empty parameter flavour index slot = c at hnone
  cases c
  cases hnone
  rfl

end Contributions

/-- What a parameter contributes is what is passed for it. -/
theorem contribution_eq (names : StandInNames) (parameter : Parameter) (flavour : Flavour)
    (index slot : Nat) : contribution names parameter flavour index slot =
      (passing names parameter flavour index slot).contribution := by
  unfold passing
  cases hstandIn : standInFor? names (bareType parameter.declaredType) with
  | none =>
    rw [contribution_plainly]
    exact contribution_of_plain flavour index slot (.inl hstandIn)
  | some type =>
    cases hcategory : classify parameter.declaredType with
    | void | integer | floating | boolean | text =>
      dsimp only
      rw [contribution_plainly]
      exact contribution_of_plain flavour index slot (.inr (by rw [hcategory]; rfl))
    | pointer | nonConstReference | constReference | rvalueReference | custom =>
      delta Synthesis.contribution
      simp only [classify_trimString, bareType_trimString, hstandIn, hcategory]
      rfl

/-- A stand-in that is passed is the one for the type. -/
theorem standInFor?_of_passing {names : StandInNames} {parameter : Parameter} {flavour : Flavour}
    {index slot : Nat} {type : String}
    (h : (passing names parameter flavour index slot).type? = some type) :
    standInFor? names (bareType parameter.declaredType) = some type := by
  have huse := contribution_standIn names parameter flavour index slot
  rw [contribution_eq] at huse
  have htaken := huse.symm.trans h
  split at htaken
  · exact htaken
  · cases htaken

theorem foldl_add (ps : List Passing) (a : Arguments) :
    (ps.map (·.contribution)).foldl Arguments.add a =
      { declarations := a.declarations ++ ps.filterMap (·.declaration?)
        expressions := a.expressions ++ ps.map (·.expression)
        standIns := (ps.filterMap (·.type?)).foldl NameSet.insert a.standIns } := by
  induction ps generalizing a with
  | nil => simp
  | cons p ps ih =>
    rw [List.map_cons, List.foldl_cons, ih]
    cases hdeclaration : p.declaration? <;> cases htype : p.type? <;>
      simp [Arguments.add, Passing.contribution, hdeclaration, htype]

/-- The arguments for a parameter list are what is passed for each of them. -/
theorem arguments_eq (names : StandInNames) (parameters : List Parameter) (flavour : Flavour)
    (firstSlot : Nat) : arguments names parameters flavour firstSlot =
      { declarations := (passings names parameters flavour firstSlot).filterMap (·.declaration?)
        expressions := (passings names parameters flavour firstSlot).map (·.expression)
        standIns := .ofList ((passings names parameters flavour firstSlot).filterMap (·.type?)) } := by
  have hfold := foldl_add (passings names parameters flavour firstSlot) {}
  rw [passings, List.map_map, List.foldl_map] at hfold
  simp only [Function.comp_apply, ← contribution_eq] at hfold
  exact hfold

end TestSynth.Synthesis
