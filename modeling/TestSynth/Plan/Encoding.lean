import TestSynth.Model.Encoding
import TestSynth.Plan.Basic
/-!
Plans and stand-ins as structured data.
-/
namespace TestSynth

open Json (asText? asNat? listOf?)

def StandIn.toJson (s : StandIn) : Json :=
  .record [("name", .text s.name), ("base", .text s.base), ("header_file", .text s.headerFile),
    ("header_text", .text s.headerText), ("overridden", .texts s.overridden)]

def Infeasibility.toJson : Infeasibility → Json
  | .abstractClass => .record [("reason", .text "abstract")]
  | .noPublicConstructor => .record [("reason", .text "no_public_constructor")]
  | .tooManyParameters count ceiling =>
    .record [("reason", .text "too_many_parameters"), ("count", .nat count),
      ("ceiling", .nat ceiling)]
  | .selfReferential => .record [("reason", .text "self_referential")]
  | .unresolvableDependency typeName =>
    .record [("reason", .text "unresolvable_dependency"), ("type_name", .text typeName)]

/-- Levels that a plan may have. -/
def planLevels : Nat := 127

def Infeasibility.ofJson? (j : Json) : Option Infeasibility := do
  let (kind, rest) ← j.tagged? "reason" planLevels
  match kind with
  | "abstract" => (rest.fields? []).map fun _ => .abstractClass
  | "no_public_constructor" => (rest.fields? []).map fun _ => .noPublicConstructor
  | "too_many_parameters" =>
    let fs ← rest.fields? ["count", "ceiling"]
    return .tooManyParameters (← fs.required "count" asNat?) (← fs.required "ceiling" asNat?)
  | "self_referential" => (rest.fields? []).map fun _ => .selfReferential
  | "unresolvable_dependency" =>
    return .unresolvableDependency
      (← (← rest.fields? ["type_name"]).required "type_name" asText?)
  | _ => none

def Substitution.toJson (s : Substitution) : Json :=
  .record [("index", .nat s.index), ("dependency", .text s.dependency),
    ("stand_in", .text s.standIn)]

def Substitution.ofJson? (j : Json) : Option Substitution := do
  let fs ← j.fields? ["index", "dependency", "stand_in"]
  return { index := ← fs.required "index" asNat?
           dependency := ← fs.required "dependency" asText?
           standIn := ← fs.required "stand_in" asText? }

def Construction.toJson (c : Construction) : Json :=
  .record <| ("type", .text c.label) :: match c with
    | .byDefault => []
    | .byConstructor m substitutions =>
      [("constructor", m.toJson),
        ("substitutions", .list (substitutions.map Substitution.toJson))]
    | .byStandIn name => [("stand_in", .text name)]
    | .infeasible reason => [("reason", reason.toJson)]

def Construction.ofJson? (j : Json) : Option Construction := do
  let (kind, rest) ← j.tagged? "type" planLevels
  match kind with
  | "default" => (rest.fields? []).map fun _ => .byDefault
  | "parameterized_constructor" =>
    let fs ← rest.fields? ["constructor", "substitutions"]
    return .byConstructor (← fs.required "constructor" Method.ofJson?)
      (← fs.required "substitutions" (listOf? Substitution.ofJson?))
  | "substitute" =>
    return .byStandIn (← (← rest.fields? ["stand_in"]).required "stand_in" asText?)
  | "infeasible" =>
    return .infeasible (← (← rest.fields? ["reason"]).required "reason" Infeasibility.ofJson?)
  | _ => none

end TestSynth
