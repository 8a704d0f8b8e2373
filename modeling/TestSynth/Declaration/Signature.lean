import TestSynth.Model.Basic
/-!
Printing a method back as a declaration.
-/
namespace TestSynth

def Parameter.render (p : Parameter) : String :=
  if p.name.isEmpty then p.declaredType else p.declaredType ++ " " ++ p.name

def Method.signature (m : Method) : String :=
  (if m.flags.isStatic then "static " else "") ++
    (if m.returnType.isEmpty then "" else m.returnType ++ " ") ++ m.name ++ "(" ++
    String.intercalate ", " (m.parameters.map Parameter.render) ++ ")" ++
    (if m.flags.isConst then " const" else "")

end TestSynth
