import TestSynth.Json.Decode
import TestSynth.Model.Table
/-!
Models as structured data.
-/
namespace TestSynth

open Json (Fields)

def Path.toJson (p : Path) : Json := .text p.text

def NameSet.toJson (s : NameSet) : Json := .texts s.members

def NameSet.ofJson? (j : Json) : Option NameSet := j.asTexts?.map .ofList

def Access.toJson (a : Access) : Json := .text a.keyword

def Access.ofJson? (j : Json) : Option Access := j.asConstant?.bind Access.ofKeyword?

def Parameter.toJson (p : Parameter) : Json :=
  .record [("declared_type", .text p.declaredType), ("name", .text p.name),
    ("has_default", .bool p.hasDefault)]

def Parameter.ofJson? (j : Json) : Option Parameter := do
  let fs ← j.fields? ["declared_type", "name", "has_default"]
  return { declaredType := ← fs.required "declared_type" Json.asText?
           name := ← fs.required "name" Json.asText?
           hasDefault := ← fs.withDefault "has_default" false Json.asBool? }

def MethodFlags.toJson (f : MethodFlags) : Json :=
  .record [("is_const", .bool f.isConst), ("is_static", .bool f.isStatic),
    ("is_virtual", .bool f.isVirtual), ("is_pure_virtual", .bool f.isPureVirtual),
    ("is_constructor", .bool f.isConstructor), ("is_destructor", .bool f.isDestructor),
    ("is_variadic", .bool f.isVariadic)]

def MethodFlags.ofJson? (j : Json) : Option MethodFlags := do
  let fs ← j.fields? ["is_const", "is_static", "is_virtual", "is_pure_virtual", "is_constructor",
    "is_destructor", "is_variadic"]
  return { isConst := ← fs.required "is_const" Json.asBool?
           isStatic := ← fs.required "is_static" Json.asBool?
           isVirtual := ← fs.required "is_virtual" Json.asBool?
           isPureVirtual := ← fs.required "is_pure_virtual" Json.asBool?
           isConstructor := ← fs.required "is_constructor" Json.asBool?
           isDestructor := ← fs.required "is_destructor" Json.asBool?
           isVariadic := ← fs.required "is_variadic" Json.asBool? }

def Method.toJson (m : Method) : Json :=
  .record [("name", .text m.name), ("return_type", .text m.returnType),
    ("parameters", .list (m.parameters.map Parameter.toJson)), ("flags", m.flags.toJson),
    ("access", m.access.toJson)]

def Method.ofJson? (j : Json) : Option Method := do
  let fs ← j.fields? ["name", "return_type", "parameters", "flags", "access"]
  return { name := ← fs.required "name" Json.asText?
           returnType := ← fs.required "return_type" Json.asText?
           parameters := ← fs.required "parameters" (Json.listOf? Parameter.ofJson?)
           flags := ← fs.required "flags" MethodFlags.ofJson?
           access := ← fs.required "access" Access.ofJson? }

def SourceRole.name : SourceRole → String
  | .header => "header"
  | .source => "source"

def SourceRole.ofName? (text : String) : Option SourceRole :=
  [SourceRole.header, .source].find? (·.name == text)

def SourceUnit.toJson (u : SourceUnit) : Json :=
  .record [("path", u.path.toJson), ("role", .text u.role.name)]

def SourceUnit.ofJson? (j : Json) : Option SourceUnit := do
  let fs ← j.fields? ["path", "role"]
  return { path := ← fs.required "path" Json.asPath?
           role := ← fs.required "role" fun r => r.asConstant?.bind SourceRole.ofName? }

def ClassModel.toJson (c : ClassModel) : Json :=
  .record [("name", .text c.name), ("namespace", .text c.scope),
    ("base_class_names", c.bases.toJson), ("methods", .list (c.methods.map Method.toJson)),
    ("member_variables", .list (c.memberVariables.map fun (t, n) => .texts [t, n])),
    ("has_default_constructor", .bool c.hasDefaultConstructor),
    ("is_abstract", .bool c.isAbstract), ("source_header", c.header.toJson),
    ("is_struct_kind", .bool c.isStruct),
    ("has_non_public_destructor", .bool c.hasNonPublicDestructor),
    ("declared_constructor_count", .nat c.declaredConstructors)]

def ClassModel.ofJson? (j : Json) : Option ClassModel := do
  let fs ← j.fields? ["name", "namespace", "base_class_names", "methods", "member_variables",
    "has_default_constructor", "is_abstract", "source_header", "is_struct_kind",
    "has_non_public_destructor", "declared_constructor_count"]
  return { name := ← fs.required "name" Json.asText?
           scope := ← fs.required "namespace" Json.asText?
           bases := ← fs.required "base_class_names" NameSet.ofJson?
           methods := ← fs.required "methods" (Json.listOf? Method.ofJson?)
           memberVariables := ← fs.required "member_variables"
             (Json.listOf? (Json.pairOf? Json.asText? Json.asText?))
           hasDefaultConstructor := ← fs.required "has_default_constructor" Json.asBool?
           isAbstract := ← fs.required "is_abstract" Json.asBool?
           header := ← fs.required "source_header" SourceUnit.ofJson?
           isStruct := ← fs.required "is_struct_kind" Json.asBool?
           hasNonPublicDestructor :=
             ← fs.withDefault "has_non_public_destructor" false Json.asBool?
           declaredConstructors := ← fs.withDefault "declared_constructor_count" 0 Json.asNat? }

def FreeFunction.toJson (f : FreeFunction) : Json :=
  .record [("namespace", .text f.scope), ("method", f.signature.toJson),
    ("source_header", f.header.toJson)]

def FreeFunction.ofJson? (j : Json) : Option FreeFunction := do
  let fs ← j.fields? ["namespace", "method", "source_header"]
  return { scope := ← fs.required "namespace" Json.asText?
           signature := ← fs.required "method" Method.ofJson?
           header := ← fs.required "source_header" SourceUnit.ofJson? }

def ClassKey.toJson (k : ClassKey) : Json :=
  .record [("header", k.header.toJson), ("class_name", .text k.className)]

end TestSynth
