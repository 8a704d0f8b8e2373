import TestSynth.Header.Head
/-!
The model of a class from the text between its braces.
-/
namespace TestSynth.Header

open Text

/-- An access label at the front of the text: the level, whether a second colon makes it part of a
qualified name, and what follows. -/
def label? (cs : List Char) : Option (Access × Bool × List Char) :=
  [Access.everyone, .derived, .owner].findSome? fun access =>
    (after? access.keyword cs).bind fun rest => match trimStart rest with
      | ':' :: ':' :: after => some (access, true, after)
      | ':' :: after => some (access, false, after)
      | _ => none

theorem after?_length {word : String} {cs rest : List Char} (h : after? word cs = some rest) :
    rest.length ≤ cs.length := by
  unfold after? at h
  split at h
  · simp only [Option.some.injEq] at h
    subst h
    simp
  · simp at h

theorem label?_length {cs : List Char} {access : Access} {double : Bool} {rest : List Char}
    (h : label? cs = some (access, double, rest)) : rest.length < cs.length := by
  unfold label? at h
  obtain ⟨level, -, hl⟩ := List.exists_of_findSome?_eq_some h
  obtain ⟨r, hr, hm⟩ := Option.bind_eq_some_iff.mp hl
  have h1 := after?_length hr
  have h2 := (List.dropWhile_suffix isBlank (l := r)).length_le
  unfold trimStart at hm
  split at hm
  · rename_i after he
    simp only [Option.some.injEq, Prod.mk.injEq] at hm
    obtain ⟨-, -, rfl⟩ := hm
    rw [he] at h2
    simp only [List.length_cons] at h2
    omega
  · rename_i after _ he
    simp only [Option.some.injEq, Prod.mk.injEq] at hm
    obtain ⟨-, -, rfl⟩ := hm
    rw [he] at h2
    simp only [List.length_cons] at h2
    omega
  · simp at hm

/-- Cuts a body at its access labels. `previous` is the character before the text, which has to be
no part of a word for a label to start; `sofar` holds the section read so far, reversed. -/
def sectionsFrom (current : Access) (previous : Option Char) (sofar : List Char) (cs : List Char) :
    List (Access × List Char) :=
  match cs with
  | [] => [(current, sofar.reverse)]
  | c :: rest =>
    if previous.any isWordAnywhere then sectionsFrom current (some c) (c :: sofar) rest
    else match _h : label? (c :: rest) with
      | none => sectionsFrom current (some c) (c :: sofar) rest
      | some (access, false, after) =>
        (current, sofar.reverse) :: sectionsFrom access (some ':') [] after
      | some (_, true, after) =>
        let label := (c :: rest).take ((c :: rest).length - after.length)
        sectionsFrom current (some ':') (label.reverse ++ sofar) after
termination_by cs.length
decreasing_by
  · simp
  · simp
  · exact label?_length _h
  · exact label?_length _h

/-- The sections of a body with the access each grants. -/
def sections (initial : Access) (body : List Char) : List (Access × List Char) :=
  sectionsFrom initial none [] body

/-- Adds what a declaration of the body says. -/
def declare (access : Access) (c : ClassModel) : Declaration → ClassModel
  | .method m =>
    { c with
      methods := c.methods ++ [m]
      declaredConstructors := c.declaredConstructors + (if m.flags.isConstructor then 1 else 0)
      hasNonPublicDestructor :=
        c.hasNonPublicDestructor || (m.flags.isDestructor && access != .everyone)
      isAbstract := c.isAbstract || m.flags.isPureVirtual }
  | .deleted isConstructor =>
    { c with declaredConstructors := c.declaredConstructors + (if isConstructor then 1 else 0) }
  | .variable declaredType name =>
    { c with memberVariables := c.memberVariables ++ [(declaredType, name)] }
  | .skip => c

/-- The class of a head and the text between its braces. Members of a struct are public unless a
label says otherwise, those of a class private. -/
def classModel (head : ClassHead) (body : List Char) (scope : String) (header : SourceUnit) :
    ClassModel :=
  let initial : ClassModel :=
    { name := head.name, scope, bases := head.bases, methods := [], memberVariables := []
      hasDefaultConstructor := false, isAbstract := false, header, isStruct := head.isStruct }
  let access : Access := if head.isStruct then .everyone else .owner
  let c := (sections access (stripBodies body)).foldl
    (fun c (access, text) =>
      (fields (· == ';') text).foldl
        (fun c text => declare access c (.parse (some head.name) access text)) c)
    initial
  { c with hasDefaultConstructor :=
      c.declaredConstructors == 0 || c.constructors.any (·.callableWithoutArguments) }

end TestSynth.Header
