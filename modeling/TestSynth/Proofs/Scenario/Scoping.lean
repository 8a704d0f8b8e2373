import TestSynth.Proofs.Header.WellFormed
import TestSynth.Proofs.Scenario.Scene
import TestSynth.Proofs.Synthesis.Locals
/-!
The names in the bodies of tests. A body is a list of statements, of which some declare a variable
and some pass arguments. No two variables of a body have the same name, and arguments refer only to
what is declared before them.
-/
namespace TestSynth

open Artifact (leftBrace rightBrace checkedCall repetitions callBody constructed constructionBody)
open Synthesis (Initial Variable LocalName Refers Fills StandInNames listed locals expressions)
open Typing (Category decayedCategory)

/-- The lines that declare nothing and pass nothing. -/
inductive FixedLine where
  | tryBlock
  | ifSome
  | orElse
  | close
  | isSome
  | isNone
  | atLeast
  | atMost
  | same
  | ignored (name : String)
  | succeeded
  | reported
deriving DecidableEq, Repr

def FixedLine.text : FixedLine → String
  | .tryBlock => "try " ++ leftBrace
  | .ifSome => "if (result != nullptr) " ++ leftBrace
  | .orElse => rightBrace ++ " else " ++ leftBrace
  | .close => rightBrace
  | .isSome => "EXPECT_NE(result, nullptr);"
  | .isNone => "EXPECT_EQ(result, nullptr);"
  | .atLeast => "EXPECT_GE(result, std::numeric_limits<decltype(result)>::lowest());"
  | .atMost => "EXPECT_LE(result, std::numeric_limits<decltype(result)>::max());"
  | .same => "EXPECT_EQ(first, second);"
  | .ignored name => "(void)" ++ name ++ ";"
  | .succeeded => "SUCCEED();"
  | .reported => "SUCCEED() << e.what();"

/-- What is done with the result of a call: nothing, or it is thrown away, or only exceptions
count. -/
inductive Use where
  | bare
  | discarded
  | checked
deriving DecidableEq, Repr

def Use.text (call : String) : Use → String
  | .bare => call ++ ";"
  | .discarded => "(void)" ++ call ++ ";"
  | .checked => "EXPECT_NO_THROW(" ++ call ++ ");"

/-- A line in the body of a test. -/
inductive Statement where
  | declare (v : Variable)
  | call (use : Use) (callee : String) (arguments : List String)
  | construct (type : String) (arguments : List String)
  /-- Opens a loop that counts. -/
  | loop
  /-- Opens the block for what is thrown. -/
  | handler
  | fixed (line : FixedLine)
  | nested (s : Statement)

namespace Statement

def text : Statement → String
  | .declare v => v.text
  | .call use callee arguments => use.text (callee ++ "(" ++ listed arguments ++ ")")
  | .construct type arguments =>
    "EXPECT_NO_THROW((void)" ++ type ++ "(" ++ listed arguments ++ "));"
  | .loop => "for (int i = 0; i < " ++ toString repetitions ++ "; ++i) " ++ leftBrace
  | .handler => rightBrace ++ " catch (const std::exception& e) " ++ leftBrace
  | .fixed line => line.text
  | .nested s => "    " ++ s.text

/-- The variables that the line declares. -/
def names : Statement → List String
  | .declare v => [v.name]
  | .loop => ["i"]
  | .handler => ["e"]
  | .nested s => s.names
  | .call .. | .construct .. | .fixed .. => []

/-- The arguments that are passed in the line. -/
def passed? : Statement → Option (List String)
  | .declare v => v.initial.passed?
  | .call _ _ arguments | .construct _ arguments => some arguments
  | .nested s => s.passed?
  | .loop | .handler | .fixed .. => none

end Statement

/-- The variables that lines declare. -/
def declared (lines : List Statement) : List String := lines.flatMap (·.names)

section Deeds
variable {kind : ScenarioKind} {callee type : String} {arguments : List String}

def checkedLines (callee : String) (arguments : List String) (category : Category)
    (isGuarded : Bool) : List Statement :=
  match category with
  | .void => [.call (if isGuarded then .bare else .checked) callee arguments]
  | .pointer =>
    [.declare ⟨"auto", "result", .result callee arguments⟩, .fixed .ifSome,
      .nested (.fixed .isSome), .fixed .orElse, .nested (.fixed .isNone), .fixed .close]
  | .integer | .floating =>
    [.declare ⟨"auto", "result", .result callee arguments⟩, .fixed .atLeast, .fixed .atMost]
  | .boolean =>
    [.declare ⟨"bool", "result", .result callee arguments⟩, .fixed (.ignored "result"),
      .fixed .succeeded]
  | _ =>
    [.declare ⟨"auto&&", "result", .result callee arguments⟩, .fixed (.ignored "result"),
      .fixed .succeeded]

def callLines (kind : ScenarioKind) (callee : String) (arguments : List String)
    (category : Category) (comparable : Bool) : List Statement :=
  match kind with
  | .basicUsage | .returnValue => checkedLines callee arguments category false
  | .multipleInvocations =>
    [.loop, .nested (.call .checked callee arguments), .fixed .close]
  | .edgeCases | .boundaryCheck =>
    [.fixed .tryBlock] ++ (checkedLines callee arguments category true).map .nested ++
      [.handler, .nested (.fixed .reported), .fixed .close]
  | .consistency | .consistentResults =>
    if comparable then
      [.declare ⟨"auto", "first", .result callee arguments⟩,
        .declare ⟨"auto", "second", .result callee arguments⟩, .fixed .same]
    else
      [.call .discarded callee arguments, .call .discarded callee arguments, .fixed .succeeded]
  | _ => [.call .checked callee arguments]

def constructionLines (kind : ScenarioKind) (type : String) (arguments : List String) :
    List Statement :=
  match kind with
  | .multipleInstances =>
    [.declare ⟨type, "first", .made arguments⟩, .declare ⟨type, "second", .made arguments⟩,
      .fixed (.ignored "first"), .fixed (.ignored "second"), .fixed .succeeded]
  | .stackAllocation =>
    [.declare ⟨type, "instance", .made arguments⟩, .fixed (.ignored "instance"),
      .fixed .succeeded]
  | _ => [.construct type arguments]

/-- The lines of a deed. -/
def Deed.lines (kind : ScenarioKind) (arguments : List String) : Deed → List Statement
  | .construction type => constructionLines kind type arguments
  | .call callee category comparable => callLines kind callee arguments category comparable

theorem text_declare (v : Variable) : (Statement.declare v).text = v.text := rfl

theorem text_result (type name callee : String) (arguments : List String) :
    (Statement.declare ⟨type, name, .result callee arguments⟩).text =
      type ++ " " ++ name ++ " = " ++ (callee ++ "(" ++ listed arguments ++ ")") ++ ";" := by
  rw [text_declare, Variable.text, Initial.text]
  simp only [String.append_assoc]

theorem text_made (type name : String) (arguments : List String) :
    (Statement.declare ⟨type, name, .made arguments⟩).text =
      constructed type (listed arguments) name := by
  rw [text_declare, Variable.text, Initial.text, constructed]
  split <;>
  · simp only [String.append_assoc]
    rfl

theorem text_checkedLines (callee : String) (arguments : List String) (category : Category)
    (isGuarded : Bool) : (checkedLines callee arguments category isGuarded).map (·.text) =
      checkedCall (callee ++ "(" ++ listed arguments ++ ")") category isGuarded := by
  cases category with
  | void => cases isGuarded <;> rfl
  | pointer | integer | floating | boolean | nonConstReference | constReference | rvalueReference
  | text | custom =>
    rw [checkedLines, List.map_cons, text_result]
    · rfl
    all_goals nofun

theorem text_callLines (kind : ScenarioKind) (callee : String) (arguments : List String)
    (category : Category) (comparable : Bool) :
    (callLines kind callee arguments category comparable).map (·.text) =
      callBody kind (callee ++ "(" ++ listed arguments ++ ")") category comparable := by
  cases kind with
  | basicUsage | returnValue => exact text_checkedLines callee arguments category false
  | multipleInvocations => rfl
  | edgeCases | boundaryCheck =>
    have hnested : ((checkedLines callee arguments category true).map Statement.nested).map
        (·.text) = (checkedCall (callee ++ "(" ++ listed arguments ++ ")") category true).map
          ("    " ++ ·) := by
      rw [← text_checkedLines, List.map_map, List.map_map]
      rfl
    simp only [callLines, List.map_append, hnested]
    rfl
  | consistency | consistentResults =>
    cases comparable with
    | true =>
      simp only [callLines, if_true, List.map_cons, text_result]
      rfl
    | false => rfl
  | noThrow | basicConstruction | multipleInstances | stackAllocation | generated => rfl

theorem text_constructionLines (kind : ScenarioKind) (type : String) (arguments : List String) :
    (constructionLines kind type arguments).map (·.text) =
      constructionBody kind type (listed arguments) := by
  cases kind with
  | multipleInstances | stackAllocation =>
    simp only [constructionLines, List.map_cons, text_made]
    rfl
  | basicUsage | multipleInvocations | edgeCases | boundaryCheck | consistency | noThrow
  | basicConstruction | returnValue | consistentResults | generated => rfl

/-- The lines of a deed are its statements. -/
theorem Deed.text_lines (kind : ScenarioKind) (arguments : List String) (d : Deed) :
    (d.lines kind arguments).map (·.text) = d.statements kind (listed arguments) := by
  cases d with
  | construction type => exact text_constructionLines kind type arguments
  | call callee category comparable =>
    exact text_callLines kind callee arguments category comparable

/-- The names of the variables that deeds declare. -/
def deedNames : List String := ["result", "first", "second", "instance", "i", "e"]

theorem declared_append (lines others : List Statement) :
    declared (lines ++ others) = declared lines ++ declared others := List.flatMap_append

theorem declared_nested (lines : List Statement) :
    declared (lines.map .nested) = declared lines := by
  rw [declared, List.flatMap_map]
  rfl

theorem declared_checkedLines (callee : String) (arguments : List String) (category : Category)
    (isGuarded : Bool) : declared (checkedLines callee arguments category isGuarded) = [] ∨
      declared (checkedLines callee arguments category isGuarded) = ["result"] := by
  cases category with
  | void => exact .inl rfl
  | pointer | integer | floating | boolean | nonConstReference | constReference | rvalueReference
  | text | custom => exact .inr rfl

/-- A deed declares variables of its own names, and each only once. -/
theorem declared_lines (kind : ScenarioKind) (arguments : List String) (d : Deed) :
    (declared (d.lines kind arguments)).Sublist deedNames := by
  cases d with
  | construction type =>
    cases kind with
    | multipleInstances =>
      change ["first", "second"].Sublist deedNames
      decide
    | stackAllocation =>
      change ["instance"].Sublist deedNames
      decide
    | basicUsage | multipleInvocations | edgeCases | boundaryCheck | consistency | noThrow
    | basicConstruction | returnValue | consistentResults | generated => exact List.nil_sublist _
  | call callee category comparable =>
    cases kind with
    | basicUsage | returnValue =>
      rcases declared_checkedLines callee arguments category false with h | h <;>
      · rw [Deed.lines, callLines, h]
        decide
    | edgeCases | boundaryCheck =>
      have hsplit : declared (callLines .edgeCases callee arguments category comparable) =
          declared (checkedLines callee arguments category true) ++ ["e"] := by
        simp only [callLines, declared_append, declared_nested]
        rfl
      rcases declared_checkedLines callee arguments category true with h | h <;>
      · change (declared (callLines .edgeCases callee arguments category comparable)).Sublist _
        rw [hsplit, h]
        decide
    | multipleInvocations =>
      change ["i"].Sublist deedNames
      decide
    | consistency | consistentResults =>
      cases comparable with
      | true =>
        change ["first", "second"].Sublist deedNames
        decide
      | false => exact List.nil_sublist _
    | noThrow | basicConstruction | multipleInstances | stackAllocation | generated =>
      exact List.nil_sublist _

/-- Lines that pass nothing but those arguments. -/
def PassesOnly (arguments : List String) (lines : List Statement) : Prop :=
  ∀ s ∈ lines, ∀ passed, s.passed? = some passed → passed = arguments

theorem passesOnly_checkedLines (callee : String) (arguments : List String) (category : Category)
    (isGuarded : Bool) :
    PassesOnly arguments (checkedLines callee arguments category isGuarded) := by
  unfold PassesOnly checkedLines
  cases category <;> simp [Statement.passed?, Initial.passed?]

theorem passesOnly_lines (kind : ScenarioKind) (arguments : List String) (d : Deed) :
    PassesOnly arguments (d.lines kind arguments) := by
  cases d with
  | construction type =>
    unfold PassesOnly Deed.lines constructionLines
    cases kind <;> simp [Statement.passed?, Initial.passed?]
  | call callee category comparable =>
    cases kind with
    | basicUsage | returnValue => exact passesOnly_checkedLines callee arguments category false
    | edgeCases | boundaryCheck =>
      have hchecked := passesOnly_checkedLines callee arguments category true
      intro s hs passed hpassed
      rcases List.mem_append.1 hs with hs | hs
      · rcases List.mem_append.1 hs with hs | hs
        · cases List.mem_singleton.1 hs
          cases hpassed
        · obtain ⟨t, ht, rfl⟩ := List.mem_map.1 hs
          exact hchecked t ht passed hpassed
      · simp only [List.mem_cons, List.not_mem_nil, or_false] at hs
        rcases hs with rfl | rfl | rfl <;> cases hpassed
    | multipleInvocations | noThrow | basicConstruction | multipleInstances | stackAllocation
    | generated =>
      simp [PassesOnly, Deed.lines, callLines, Statement.passed?]
    | consistency | consistentResults =>
      cases comparable <;>
        simp [PassesOnly, Deed.lines, callLines, Statement.passed?, Initial.passed?]

/-- A deed is done with the arguments. -/
theorem exists_passed (kind : ScenarioKind) (arguments : List String) (d : Deed) :
    ∃ s ∈ d.lines kind arguments, s.passed? = some arguments := by
  have hchecked : ∀ callee category isGuarded,
      ∃ s ∈ checkedLines callee arguments category isGuarded, s.passed? = some arguments := by
    intro callee category isGuarded
    cases category <;> exact ⟨_, List.mem_cons_self, rfl⟩
  cases d with
  | construction type => cases kind <;> exact ⟨_, List.mem_cons_self, rfl⟩
  | call callee category comparable =>
    cases kind with
    | basicUsage | returnValue => exact hchecked callee category false
    | edgeCases | boundaryCheck =>
      obtain ⟨s, hs, hpassed⟩ := hchecked callee category true
      refine ⟨.nested s, ?_, hpassed⟩
      exact List.mem_append_left _ (List.mem_append_right _ (List.mem_map_of_mem hs))
    | multipleInvocations => exact ⟨_, List.mem_cons_of_mem _ List.mem_cons_self, rfl⟩
    | consistency | consistentResults => cases comparable <;> exact ⟨_, List.mem_cons_self, rfl⟩
    | noThrow | basicConstruction | multipleInstances | stackAllocation | generated =>
      exact ⟨_, List.mem_cons_self, rfl⟩

end Deeds

section Order
variable {α : Type} {xs ys before after : List α} {x : α}

/-- Of two lists in a row, an element stands in the one or the other. -/
theorem append_eq_append_cons (h : xs ++ ys = before ++ x :: after) :
    (∃ rest, xs = before ++ x :: rest) ∨ ∃ rest, before = xs ++ rest ∧ ys = rest ++ x :: after := by
  rcases List.append_eq_append_iff.1 h with ⟨rest, hbefore, hys⟩ | ⟨rest, hxs, hrest⟩
  · exact .inr ⟨rest, hbefore, hys⟩
  · cases rest with
    | nil => exact .inr ⟨[], by simpa using hxs.symm, by simpa using hrest.symm⟩
    | cons y rest =>
      obtain ⟨rfl, -⟩ := List.cons.inj hrest
      exact .inl ⟨rest, hxs⟩

end Order

/-- No two variables have one name. Every line that passes arguments passes them for the object's
constructor if it declares the object, or else for the declaration that is tested, and they refer
to what is declared before. -/
structure WellScoped (names : StandInNames) (object parameters : List Parameter)
    (flavour : Flavour) (lines : List Statement) : Prop where
  nodup : (declared lines).Nodup
  passes : ∀ before line after arguments, lines = before ++ line :: after →
    line.passed? = some arguments →
    if line.names = ["obj"] then
      Fills names object .plain parameters.length (declared before) arguments
    else Fills names parameters flavour 0 (declared before) arguments
  called : ∃ line ∈ lines, line.names ≠ ["obj"] ∧ line.passed?.isSome

/-- Lines that bring an object about, with locals from a slot on. -/
structure Opens (names : StandInNames) (object : List Parameter) (firstSlot : Nat)
    (lines : List Statement) : Prop where
  nodup : (declared lines).Nodup
  named : ∀ name ∈ declared lines, name = "obj" ∨ ∃ slot ≥ firstSlot, LocalName name slot
  passes : ∀ before line after arguments, lines = before ++ line :: after →
    line.passed? = some arguments →
    line.names = ["obj"] ∧ Fills names object .plain firstSlot (declared before) arguments

/-- What a planned constructor takes. -/
def Construction.parameters : Construction → List Parameter
  | .byConstructor m _ => m.parameters
  | .byDefault | .byStandIn _ | .infeasible _ => []

section Scopes
variable {names : StandInNames} {object parameters : List Parameter} {flavour : Flavour}
  {firstSlot slot : Nat} {name : String} {opening : List Statement}

/-- The names of locals are not those of objects or results. -/
theorem not_mem_of_localName (h : LocalName name slot) : name ∉ "obj" :: deedNames := by
  intro hmem
  have hlooks : Synthesis.looksLocal name.toList := Refers.looksLocal ⟨h, .inl rfl⟩
  have hnone : ∀ other ∈ "obj" :: deedNames, Synthesis.looksLocal other.toList = false := by decide
  rw [hnone name hmem] at hlooks
  cases hlooks

/-- The declarations of the locals of a parameter list. -/
def localLines (names : StandInNames) (parameters : List Parameter) (flavour : Flavour)
    (firstSlot : Nat) : List Statement :=
  (locals names parameters flavour firstSlot).map .declare

theorem declared_localLines (names : StandInNames) (parameters : List Parameter)
    (flavour : Flavour) (firstSlot : Nat) :
    declared (localLines names parameters flavour firstSlot) =
      (locals names parameters flavour firstSlot).map (·.name) := by
  rw [declared, localLines, List.flatMap_map, List.map_eq_flatMap]
  rfl

theorem mem_declared_localLines
    (h : name ∈ declared (localLines names parameters flavour firstSlot)) :
    ∃ i < parameters.length, LocalName name (firstSlot + i) := by
  rw [declared_localLines] at h
  obtain ⟨v, hv, rfl⟩ := List.mem_map.1 h
  exact Synthesis.mem_locals hv

theorem passed?_localLines {line : Statement}
    (h : line ∈ localLines names parameters flavour firstSlot) : line.passed? = none := by
  obtain ⟨v, hv, rfl⟩ := List.mem_map.1 h
  obtain ⟨q, -, hlocal⟩ := List.mem_filterMap.1 hv
  exact Synthesis.passed?_localOf? hlocal

/-- Arguments refer to the locals that were declared for them. -/
theorem fills_of_localLines {known : List String}
    (h : declared (localLines names parameters flavour firstSlot) ⊆ known) :
    Fills names parameters flavour firstSlot known
      (expressions names parameters flavour firstSlot) := by
  refine Synthesis.fills_expressions fun v hv => h ?_
  rw [declared_localLines]
  exact List.mem_map_of_mem hv

theorem opens_nil (names : StandInNames) (object : List Parameter) (firstSlot : Nat) :
    Opens names object firstSlot [] where
  nodup := .nil
  named := by simp [declared]
  passes before line after _ h := by simp at h

/-- An object that nothing is passed for. -/
theorem opens_plainly (names : StandInNames) (object : List Parameter) (firstSlot : Nat)
    (type : String) (initial : Initial) (hpassed : initial.passed? = none) :
    Opens names object firstSlot [.declare ⟨type, "obj", initial⟩] where
  nodup := List.nodup_singleton _
  named name h := .inl (List.mem_singleton.1 h)
  passes before line after arguments h hline := by
    have hmem : line ∈ [Statement.declare ⟨type, "obj", initial⟩] := by simp [h]
    rw [List.mem_singleton.1 hmem] at hline
    exact absurd (hpassed.symm.trans hline) nofun

/-- An object that a constructor makes from arguments. -/
theorem opens_constructed (names : StandInNames) (object : List Parameter) (firstSlot : Nat)
    (type : String) : Opens names object firstSlot
      (localLines names object .plain firstSlot ++
        [.declare ⟨type, "obj", .passed (expressions names object .plain firstSlot)⟩]) where
  nodup := by
    rw [declared_append, List.nodup_append']
    refine ⟨?_, List.nodup_singleton _, ?_⟩
    · rw [declared_localLines]
      exact Synthesis.nodup_locals _ _ _ _
    · intro name hname hobj
      obtain ⟨i, -, hlocal⟩ := mem_declared_localLines hname
      exact not_mem_of_localName hlocal (List.mem_singleton.1 hobj ▸ List.mem_cons_self)
  named name h := by
    rw [declared_append, List.mem_append] at h
    rcases h with h | h
    · obtain ⟨i, -, hlocal⟩ := mem_declared_localLines h
      exact .inr ⟨_, Nat.le_add_right firstSlot i, hlocal⟩
    · exact .inl (List.mem_singleton.1 h)
  passes before line after arguments h hline := by
    rcases append_eq_append_cons h with ⟨rest, hlocals⟩ | ⟨rest, rfl, hobject⟩
    · have hnone : line.passed? = none := passed?_localLines (by rw [hlocals]; simp)
      exact absurd (hnone.symm.trans hline) nofun
    · have hmem : line ∈ [Statement.declare
          ⟨type, "obj", .passed (expressions names object .plain firstSlot)⟩] := by simp [hobject]
      obtain rfl := List.mem_singleton.1 hmem
      cases hline
      refine ⟨rfl, fills_of_localLines ?_⟩
      rw [declared_append]
      exact List.subset_append_left _ _

/-- The lines that make an object as planned. -/
def objectLines (names : StandInNames) (type : String) (firstSlot : Nat) :
    Construction → List Statement
  | .byDefault => [.declare ⟨type, "obj", .zero⟩]
  | .byConstructor m _ =>
    localLines names m.parameters .plain firstSlot ++
      [.declare ⟨type, "obj", .passed (expressions names m.parameters .plain firstSlot)⟩]
  | .byStandIn name => [.declare ⟨name, "obj", .nothing⟩]
  | .infeasible _ => []

theorem opens_objectLines (names : StandInNames) (type : String) (firstSlot : Nat)
    (k : Construction) :
    Opens names k.parameters firstSlot (objectLines names type firstSlot k) := by
  cases k with
  | byDefault => exact opens_plainly _ _ _ type .zero rfl
  | byConstructor m _ => exact opens_constructed names m.parameters firstSlot type
  | byStandIn name => exact opens_plainly _ _ _ name .nothing rfl
  | infeasible _ => exact opens_nil _ _ _

section Bodies
variable (h : Opens names object parameters.length opening) (flavour : Flavour)
  (kind : ScenarioKind) (d : Deed)

/-- What opens a body, the locals of arguments, and a deed with the arguments. -/
def bodyLines (names : StandInNames) (parameters : List Parameter) (opening : List Statement)
    (flavour : Flavour) (kind : ScenarioKind) (d : Deed) : List Statement :=
  opening ++ (localLines names parameters flavour 0 ++
    d.lines kind (expressions names parameters flavour 0))

theorem names_lines_ne {line : Statement} {arguments : List String}
    (hline : line ∈ d.lines kind arguments) : line.names ≠ ["obj"] := by
  intro heq
  have hobj : "obj" ∈ declared (d.lines kind arguments) :=
    List.mem_flatMap.2 ⟨line, hline, by rw [heq]; exact List.mem_cons_self⟩
  exact absurd ((declared_lines kind arguments d).subset hobj) (by decide)

include h

theorem Opens.nodup_body :
    (declared (bodyLines names parameters opening flavour kind d)).Nodup := by
  have hdeed := declared_lines kind (expressions names parameters flavour 0) d
  rw [bodyLines, declared_append, declared_append, List.nodup_append', List.nodup_append']
  refine ⟨h.nodup, ⟨?_, hdeed.nodup (by decide), ?_⟩, ?_⟩
  · rw [declared_localLines]
    exact Synthesis.nodup_locals _ _ _ _
  · intro name hname hresult
    obtain ⟨i, -, hlocal⟩ := mem_declared_localLines hname
    exact not_mem_of_localName hlocal (List.mem_cons_of_mem _ (hdeed.subset hresult))
  · intro name hopening hname
    rcases List.mem_append.1 hname with hname | hname
    · -- The slots of the arguments come before those of the object.
      obtain ⟨i, hi, hlocal⟩ := mem_declared_localLines hname
      rcases h.named name hopening with rfl | ⟨slot, hslot, hobject⟩
      · exact not_mem_of_localName hlocal List.mem_cons_self
      · have heq := hlocal.slot_eq hobject
        omega
    · have hmem := hdeed.subset hname
      rcases h.named name hopening with rfl | ⟨slot, -, hobject⟩
      · exact absurd hmem (by decide)
      · exact not_mem_of_localName hobject (List.mem_cons_of_mem _ hmem)

theorem Opens.passes_body {before after : List Statement} {line : Statement}
    {arguments : List String}
    (hlines : bodyLines names parameters opening flavour kind d = before ++ line :: after)
    (hline : line.passed? = some arguments) :
    if line.names = ["obj"] then
      Fills names object .plain parameters.length (declared before) arguments
    else Fills names parameters flavour 0 (declared before) arguments := by
  -- The line stands in the opening, among the locals, which pass nothing, or in the deed.
  rcases append_eq_append_cons hlines with ⟨rest, hopening⟩ | ⟨rest, rfl, hrest⟩
  · obtain ⟨hobj, hfills⟩ := h.passes before line rest arguments hopening hline
    rwa [if_pos hobj]
  · rcases append_eq_append_cons hrest with ⟨others, hlocals⟩ | ⟨others, rfl, hdeed⟩
    · have hnone : line.passed? = none := passed?_localLines (by rw [hlocals]; simp)
      exact absurd (hnone.symm.trans hline) nofun
    · have hmem : line ∈ d.lines kind (expressions names parameters flavour 0) := by
        rw [hdeed]
        simp
      rw [if_neg (names_lines_ne kind d hmem), passesOnly_lines kind _ d line hmem arguments hline]
      refine fills_of_localLines fun name hname => ?_
      rw [declared_append, declared_append]
      exact List.mem_append_right _ (List.mem_append_left _ hname)

theorem Opens.wellScoped : WellScoped names object parameters flavour
    (bodyLines names parameters opening flavour kind d) where
  nodup := h.nodup_body flavour kind d
  passes _ _ _ _ hlines hline := h.passes_body flavour kind d hlines hline
  called := by
    obtain ⟨line, hline, hpassed⟩ := exists_passed kind (expressions names parameters flavour 0) d
    refine ⟨line, ?_, names_lines_ne kind d hline, by rw [hpassed]; rfl⟩
    exact List.mem_append_right _ (List.mem_append_right _ hline)

end Bodies

end Scopes

namespace Generator

variable {g : Generator} {c : ClassModel} {m : Method} {plan : Plan} {subject : Subject}

/-- The parameters of the constructor that objects of the class are planned with. -/
def objectParameters (g : Generator) (c : ClassModel) : List Parameter :=
  ((g.planOf? c).map (·.construction.parameters)).getD []

/-- The lines that make the object, if the member is called of one. -/
def openingLines (g : Generator) (c : ClassModel) (m : Method) : List Statement :=
  if m.flags.isConstructor || m.flags.isStatic then []
  else ((g.planOf? c).map fun plan => objectLines g.standInNames c.qualifiedName
    m.parameters.length plan.construction).getD []

/-- What is done with the arguments of a member. -/
def memberDeed (c : ClassModel) (m : Method) : Deed :=
  let category := decayedCategory m.returnType
  if m.flags.isConstructor then .construction c.qualifiedName
  else
    .call (if m.flags.isStatic then c.qualifiedName ++ "::" ++ m.name else "obj." ++ m.name)
      category (category.isComparable && (m.flags.isConst || m.flags.isStatic))

/-- The lines in the body of a test of a member. -/
def memberLines (g : Generator) (c : ClassModel) (m : Method) (flavour : Flavour)
    (kind : ScenarioKind) : List Statement :=
  bodyLines g.standInNames m.parameters (g.openingLines c m) flavour kind (memberDeed c m)

/-- The lines in the body of a test of a function outside classes. -/
def functionLines (g : Generator) (f : FreeFunction) (flavour : Flavour) (kind : ScenarioKind) :
    List Statement :=
  let category := decayedCategory f.signature.returnType
  bodyLines g.standInNames f.signature.parameters [] flavour kind
    (.call f.qualifiedName category category.isComparable)

section Scenes

theorem passedList_passings (g : Generator) (parameters : List Parameter) (flavour : Flavour)
    (firstSlot : Nat) : passedList (g.passings parameters flavour firstSlot) =
      listed (expressions g.standInNames parameters flavour firstSlot) := by
  rw [passedList, passings, Synthesis.map_expression]
  rfl

theorem declarations_passings (g : Generator) (parameters : List Parameter) (flavour : Flavour)
    (firstSlot : Nat) : (g.passings parameters flavour firstSlot).filterMap (·.declaration?) =
      (localLines g.standInNames parameters flavour firstSlot).map (·.text) := by
  rw [passings, Synthesis.filterMap_declaration?, localLines, List.map_map]
  rfl

theorem text_object (type : String) (initial : Initial) :
    (Statement.declare ⟨type, "obj", initial⟩).text = type ++ " obj" ++ initial.text ++ ";" := by
  have hname : " obj" = " " ++ "obj" := rfl
  rw [text_declare, Variable.text, hname, ← String.append_assoc]

theorem text_constructed (type : String) (arguments : List String) :
    (Statement.declare ⟨type, "obj", .passed arguments⟩).text =
      type ++ " obj(" ++ listed arguments ++ ");" := by
  have hopen : " obj(" = " obj" ++ "(" := rfl
  have hclose : ");" = ")" ++ ";" := rfl
  rw [text_object, Initial.text, hopen, hclose]
  simp only [String.append_assoc]

theorem text_standIn (type : String) :
    (Statement.declare ⟨type, "obj", .nothing⟩).text = type ++ " obj;" := by
  have hend : " obj;" = " obj" ++ ";" := rfl
  rw [text_object, Initial.text, String.append_empty, hend, String.append_assoc]

theorem declarations_subject {firstSlot : Nat} (h : g.subject? c plan firstSlot = some subject) :
    subject.declarations =
      (objectLines g.standInNames c.qualifiedName firstSlot plan.construction).map (·.text) := by
  unfold subject? at h
  split at h
  · next hconstruction =>
    cases h
    rw [hconstruction, objectLines, Subject.declarations, List.map_singleton, text_object,
      Initial.text]
  · next hconstruction =>
    cases h
    rw [hconstruction, objectLines, Subject.declarations, declarations_passings,
      passedList_passings, List.map_append, List.map_singleton, text_constructed]
  · next hconstruction =>
    cases h
    rw [hconstruction, objectLines, Subject.declarations, List.map_singleton, text_standIn]
  · cases h

theorem body_eq (opening : List Statement) {parameters : List Parameter} {flavour : Flavour}
    (hsubject : subject.declarations = opening.map (·.text)) (kind : ScenarioKind) (d : Deed) :
    (Scene.mk subject (g.passings parameters flavour 0) d).body kind =
      (bodyLines g.standInNames parameters opening flavour kind d).map (·.text) := by
  rw [Scene.body, bodyLines, List.map_append, List.map_append, d.text_lines, hsubject,
    declarations_passings, passedList_passings]

/-- The body of a member's scene consists of the lines for it. -/
theorem body_memberScene {flavour : Flavour} {scene : Scene}
    (h : g.memberScene? c m flavour = some scene) (kind : ScenarioKind) :
    scene.body kind = (g.memberLines c m flavour kind).map (·.text) := by
  unfold memberScene? at h
  unfold memberLines openingLines memberDeed
  dsimp only at h ⊢
  cases hconstructor : m.flags.isConstructor with
  | true =>
    rw [hconstructor] at h
    cases h
    exact body_eq [] rfl kind _
  | false =>
    rw [hconstructor, if_neg Bool.false_ne_true] at h
    cases hstatic : m.flags.isStatic with
    | true =>
      rw [hstatic] at h
      cases h
      exact body_eq [] rfl kind _
    | false =>
      rw [hstatic, if_neg Bool.false_ne_true] at h
      obtain ⟨plan, hplan, h⟩ := Option.bind_eq_some_iff.1 h
      obtain ⟨subject, hsubject, h⟩ := Option.bind_eq_some_iff.1 h
      cases h
      rw [hplan]
      exact body_eq _ (declarations_subject hsubject) kind _

theorem opens_openingLines (g : Generator) (c : ClassModel) (m : Method) :
    Opens g.standInNames (g.objectParameters c) m.parameters.length (g.openingLines c m) := by
  unfold openingLines objectParameters
  split
  · exact opens_nil _ _ _
  · cases g.planOf? c with
    | none => exact opens_nil _ _ _
    | some plan => exact opens_objectLines _ _ _ plan.construction

end Scenes

/-- No names clash in the bodies of tests, whatever is tested and however: no two variables have
one name, and there is one argument for each parameter, in their order, which refers to no local
but that of its own slot, declared before. -/
theorem renders_wellScoped (g : Generator) :
    (∀ c index m given q a, c.methods[index]? = some m →
      (∀ plan ∈ given, g.planOf? c = some plan) → g.renderMember? c index given q = some a →
      ∃ d, a = g.finish d q ∧ d.body = (g.memberLines c m q.flavour q.kind).map (·.text) ∧
        WellScoped g.standInNames (g.objectParameters c) m.parameters q.flavour
          (g.memberLines c m q.flavour q.kind)) ∧
    ∀ index f q a, g.table.functions[index]? = some f → g.renderFunction? index q = some a →
      ∃ d, a = g.finish d q ∧ d.body = (g.functionLines f q.flavour q.kind).map (·.text) ∧
        WellScoped g.standInNames [] f.signature.parameters q.flavour
          (g.functionLines f q.flavour q.kind) := by
  constructor
  · intro c index m given q a hm hplan hrender
    obtain ⟨d, scene, rfl, hscene, hdrafts, -⟩ := renderMember?_eq_finish hplan hm hrender
    refine ⟨d, rfl, hdrafts.body.trans (body_memberScene hscene q.kind), ?_⟩
    exact (opens_openingLines g c m).wellScoped q.flavour q.kind _
  · intro index f q a hf hrender
    obtain ⟨d, rfl, hdrafts, -⟩ := renderFunction?_eq_finish hf hrender
    refine ⟨d, rfl, hdrafts.body.trans (body_eq [] rfl q.kind _), ?_⟩
    exact (opens_nil _ _ _).wellScoped q.flavour q.kind _

/-- A class whose constructor takes a local, with a method that takes one too. -/
def pumpTests : Generator :=
  let table := ModelTable.readHeaders {} [(⟨⟨"/p/pump.h"⟩, .header⟩,
    "struct Pump \x7b Pump(int& rate); void run(const int& steps); \x7d;\n")]
  { table
    plans := (Planner.ofSettings table {} ⟨"/p"⟩).planAll
    catalogue := .ofSettings {} {}
    root := ⟨"/p"⟩ }

/-- The test of its method has both. -/
theorem renders_wellScoped_pump :
    ∃ c m a, c.methods[1]? = some m ∧ (pumpTests.objectParameters c).length = 1 ∧
      declared (pumpTests.memberLines c m .plain .basicUsage) = ["arg1", "obj", "param0"] ∧
      pumpTests.renderMember? c 1 none (.initial (.member 1) .basicUsage "Pump_run") = some a ∧
      ∃ d, a = pumpTests.finish d (.initial (.member 1) .basicUsage "Pump_run") ∧
        d.body = (pumpTests.memberLines c m .plain .basicUsage).map (·.text) ∧
        WellScoped pumpTests.standInNames (pumpTests.objectParameters c) m.parameters .plain
          (pumpTests.memberLines c m .plain .basicUsage) := by
  have hsome : ((pumpTests.table.models.filter fun c =>
      (pumpTests.objectParameters c).length = 1).head?.bind fun c => (c.methods[1]?.filter fun m =>
        declared (pumpTests.memberLines c m .plain .basicUsage) = ["arg1", "obj", "param0"]).bind
          fun m => (pumpTests.renderMember? c 1 none
            (.initial (.member 1) .basicUsage "Pump_run")).map fun a => (c, m, a)).isSome := by
    decide +kernel
  obtain ⟨⟨c, m, a⟩, h⟩ := Option.isSome_iff_exists.1 hsome
  obtain ⟨c, hc, h⟩ := Option.bind_eq_some_iff.1 h
  obtain ⟨m, hm, h⟩ := Option.bind_eq_some_iff.1 h
  obtain ⟨a, ha, h⟩ := Option.map_eq_some_iff.1 h
  have hlength := (List.mem_filter.1 (List.mem_of_head? hc)).2
  obtain ⟨hm, hdeclared⟩ := Option.filter_eq_some_iff.1 hm
  exact ⟨c, m, a, hm, of_decide_eq_true hlength, of_decide_eq_true hdeclared, ha,
    (renders_wellScoped pumpTests).1 c 1 m none _ a hm (by simp) ha⟩

end Generator

end TestSynth
