import TestSynth.Artifact.Basic
import TestSynth.Settings.Encoding
/-!
Tests as structured data.
-/
namespace TestSynth

open Json (asText? asNat? asNat32? asBool? asPath? listOf? pairOf?)

def TargetRef.toJson : TargetRef → Json
  | .member index => .record [("kind", .text "member"), ("index", .nat index)]
  | .freeFunction index => .record [("kind", .text "free_function"), ("index", .nat index)]

/-- Levels that a target may have. -/
def targetLevels : Nat := 127

def TargetRef.ofJson? (j : Json) : Option TargetRef := do
  let (kind, rest) ← j.tagged? "kind" targetLevels
  let index ← (← rest.fields? ["index"]).required "index" asNat?
  match kind with
  | "member" => some (.member index)
  | "free_function" => some (.freeFunction index)
  | _ => none

def Recipe.toJson (r : Recipe) : Json :=
  .record [("target", r.target.toJson), ("mode", .text r.flavour.name),
    ("minimal", .bool r.minimal), ("origin_id", .text r.originId)]

def Recipe.ofJson? (j : Json) : Option Recipe := do
  let fs ← j.fields? ["target", "mode", "minimal", "origin_id"]
  return { target := ← fs.required "target" TargetRef.ofJson?
           flavour := ← fs.required "mode" fun m => m.asConstant?.bind Flavour.ofName?
           minimal := ← fs.withDefault "minimal" false asBool?
           originId := ← fs.required "origin_id" asText? }

def TestArtifact.fields (a : TestArtifact) : List (String × Json) :=
  [("id", .text a.id), ("class_name", .text a.className), ("method_name", .text a.methodName),
    ("scenario_kind", a.kind.toJson), ("source_text", .text a.sourceText),
    ("file_path", .text a.filePath.text), ("generation", .nat a.generation),
    ("parent_id", Json.optional .text a.parentId), ("iteration", .nat a.iteration),
    ("support_files", .list (a.supportFiles.map fun (n, t) => .texts [n, t])),
    ("recipe", Json.optional Recipe.toJson a.recipe)]

def TestArtifact.ofJson? (j : Json) : Option TestArtifact := do
  let fs ← j.fields? ["id", "class_name", "method_name", "scenario_kind", "source_text",
    "file_path", "generation", "parent_id", "iteration", "support_files", "recipe"]
  return { id := ← fs.required "id" asText?
           className := ← fs.required "class_name" asText?
           methodName := ← fs.required "method_name" asText?
           kind := ← fs.required "scenario_kind" (ScenarioKind.ofJson? {})
           sourceText := ← fs.required "source_text" asText?
           filePath := ← fs.required "file_path" asPath?
           generation := ← fs.withDefault "generation" 0 asNat32?
           parentId := ← fs.optional "parent_id" asText?
           iteration := ← fs.withDefault "iteration" 0 asNat32?
           supportFiles := ← fs.withDefault "support_files" [] (listOf? (pairOf? asText? asText?))
           recipe := ← fs.optional "recipe" Recipe.ofJson? }

end TestSynth
