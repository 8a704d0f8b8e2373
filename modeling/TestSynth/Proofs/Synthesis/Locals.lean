import TestSynth.Proofs.Synthesis.Passing
/-!
The locals of arguments. A parameter that takes a local has it declared under the number of its slot
and refers to it; what is passed for any other parameter refers to no local at all.
-/
namespace TestSynth.Synthesis

open Typing (bareType classify valueCategory)

/-- What a variable starts from. -/
inductive Initial where
  | nothing
  | zero
  | value (text : String)
  /-- It is made from arguments. -/
  | passed (arguments : List String)
  /-- The same, but from zero if there are no arguments. -/
  | made (arguments : List String)
  /-- The result of a call. -/
  | result (callee : String) (arguments : List String)
deriving DecidableEq, Repr

/-- Arguments as they stand between the parentheses of a call. -/
def listed (arguments : List String) : String := String.intercalate ", " arguments

def Initial.text : Initial → String
  | .nothing => ""
  | .zero => braces
  | .value text => " = " ++ text
  | .passed arguments => "(" ++ listed arguments ++ ")"
  | .made arguments => if (listed arguments).isEmpty then braces else "(" ++ listed arguments ++ ")"
  | .result callee arguments => " = " ++ (callee ++ "(" ++ listed arguments ++ ")")

/-- The arguments that are passed for it. -/
def Initial.passed? : Initial → Option (List String)
  | .passed arguments | .made arguments | .result _ arguments => some arguments
  | .nothing | .zero | .value _ => none

/-- A variable that a line of a test declares. -/
structure Variable where
  type : String
  name : String
  initial : Initial
deriving DecidableEq, Repr

/-- The line that declares it. -/
def Variable.text (v : Variable) : String := v.type ++ " " ++ v.name ++ v.initial.text ++ ";"

/-- The local of the bare type that a flavour asks for. -/
def plainVariable (base name : String) (flavour : Flavour) (index : Nat) (isConst : Bool) :
    Variable :=
  let type := (if isConst then "const " else "") ++ base
  let category := valueCategory base
  if category == .custom && flavour == .plain && !isConst then ⟨type, name, .nothing⟩
  else if category == .custom || category == .void || flavour != .plain && !isConst then
    ⟨type, name, .zero⟩
  else ⟨type, name, .value (valueExpression base category flavour index)⟩

/-- The local of a reference: of a stand-in, or else of the bare type. -/
def referenceVariable (standIn : Option String) (base name : String) (flavour : Flavour)
    (index : Nat) (isConst : Bool) : Variable :=
  match standIn with
  | some stub => ⟨stub, name, .nothing⟩
  | none => plainVariable base name flavour index isConst

/-- The local of the parameter at `index`, if it takes one, which is numbered `slot`. -/
def localOf? (names : StandInNames) (parameter : Parameter) (flavour : Flavour)
    (index slot : Nat) : Option Variable :=
  let declared := Text.trimString parameter.declaredType
  let base := bareType declared
  let standIn := standInFor? names base
  match classify declared with
  | .pointer => standIn.map fun stub => ⟨stub, "param" ++ toString slot, .nothing⟩
  | .nonConstReference =>
    some (referenceVariable standIn base ("arg" ++ toString slot) flavour index false)
  | .constReference =>
    some (referenceVariable standIn base ("param" ++ toString slot) flavour index true)
  | _ => none

/-- A name for the local of a slot. -/
def LocalName (name : String) (slot : Nat) : Prop :=
  name = "arg" ++ toString slot ∨ name = "param" ++ toString slot

/-- An argument refers to the local of a slot, by its name or by its address. -/
structure Refers (e name : String) (slot : Nat) : Prop where
  named : LocalName name slot
  spelled : e = name ∨ e = "&" ++ name

section Names
variable {name other e : String} {slot i j : Nat}

theorem LocalName.slot_eq (hi : LocalName name i) (hj : LocalName name j) : i = j := by
  have harg : ∀ {i j : Nat}, "arg" ++ toString i ≠ "param" ++ toString j := by
    intro i j h
    have hlist := congrArg String.toList h
    rw [String.toList_append, String.toList_append] at hlist
    exact absurd (List.cons.inj hlist).1 (by decide)
  rcases hi with rfl | rfl
  · rcases hj with hj | hj
    · exact Nat.repr_injective (String.append_right_inj _ |>.1 hj)
    · exact absurd hj harg
  · rcases hj with hj | hj
    · exact absurd hj.symm harg
    · exact Nat.repr_injective (String.append_right_inj _ |>.1 hj)

/-- References start with a letter of a name or an ampersand, and end in a digit. -/
def looksLocal (cs : List Char) : Bool :=
  cs.head?.any (['a', 'p', '&'].contains ·) && cs.getLast?.any (·.isDigit)

theorem LocalName.starts (h : LocalName name slot) : name.toList.head? = some 'a' ∨
    name.toList.head? = some 'p' := by
  rcases h with rfl | rfl
  · exact .inl (by rw [String.toList_append]; rfl)
  · exact .inr (by rw [String.toList_append]; rfl)

theorem LocalName.ends (h : LocalName name slot) :
    ∃ c, name.toList.getLast? = some c ∧ c.isDigit := by
  have hdigits : ∃ c, (toString slot).toList.getLast? = some c ∧ c.isDigit := by
    have hlist : (toString slot).toList = Nat.toDigits 10 slot := Nat.toList_repr
    rw [hlist]
    have hne : Nat.toDigits 10 slot ≠ [] := Nat.toDigits_ne_nil
    exact ⟨_, List.getLast?_eq_getLast_of_ne_nil hne,
      Nat.isDigit_of_mem_toDigits (by omega) (by omega) (List.getLast_mem hne)⟩
  obtain ⟨c, hc, hdigit⟩ := hdigits
  rcases h with rfl | rfl
  · exact ⟨c, by rw [String.toList_append, List.getLast?_append, hc]; rfl, hdigit⟩
  · exact ⟨c, by rw [String.toList_append, List.getLast?_append, hc]; rfl, hdigit⟩

theorem Refers.looksLocal (h : Refers e name slot) : looksLocal e.toList := by
  obtain ⟨c, hc, hdigit⟩ := h.named.ends
  rcases h.spelled with rfl | rfl
  · rcases h.named.starts with hstart | hstart <;>
      simp [Synthesis.looksLocal, hstart, hc, hdigit]
  · rw [Synthesis.looksLocal, String.toList_append, List.getLast?_append, hc]
    exact hdigit

theorem LocalName.ne_address (h : LocalName name slot) (s : String) : name ≠ "&" ++ s := by
  rintro rfl
  have hstart : ("&" ++ s).toList.head? = some '&' := by
    rw [String.toList_append]
    rfl
  rcases h.starts with h | h <;>
  · rw [hstart] at h
    cases h

/-- An argument refers to one local at most. -/
theorem Refers.unique (h : Refers e name i) (h' : Refers e other j) : name = other := by
  rcases h.spelled with rfl | rfl
  · rcases h'.spelled with heq | heq
    · exact heq
    · exact absurd heq (h.named.ne_address other)
  · rcases h'.spelled with heq | heq
    · exact absurd heq.symm (h'.named.ne_address name)
    · exact (String.append_right_inj _).1 heq

/-- A text that does not end in a digit is no reference. -/
theorem looksLocal_append (s : String) {t : String}
    (ht : t.toList.getLast?.any (!·.isDigit)) : looksLocal (s ++ t).toList = false := by
  obtain ⟨c, hc, hdigit⟩ := Option.any_eq_true .. |>.1 ht
  rw [looksLocal, String.toList_append, List.getLast?_append, hc]
  simpa using fun _ => hdigit

end Names

section Contributions
variable {names : StandInNames} {parameter : Parameter} {flavour : Flavour} {index slot n : Nat}
  {base name : String} {category : Typing.Category} {v : Variable}

theorem text_nothing (type name : String) :
    (Variable.mk type name .nothing).text = type ++ " " ++ name ++ ";" := by
  rw [Variable.text, Initial.text, String.append_empty]

theorem text_plainVariable (base name : String) (flavour : Flavour) (index : Nat)
    (isConst : Bool) : (plainVariable base name flavour index isConst).text =
      localDeclaration base name flavour index isConst := by
  unfold plainVariable localDeclaration
  generalize valueCategory base = category
  cases isConst <;> cases flavour <;> cases category <;>
    simp [Variable.text, Initial.text, String.append_assoc]

theorem name_plainVariable (base name : String) (flavour : Flavour) (index : Nat)
    (isConst : Bool) : (plainVariable base name flavour index isConst).name = name := by
  unfold plainVariable
  dsimp only
  split
  · rfl
  · split <;> rfl

theorem passed?_plainVariable (base name : String) (flavour : Flavour) (index : Nat)
    (isConst : Bool) : (plainVariable base name flavour index isConst).initial.passed? = none := by
  unfold plainVariable
  dsimp only
  split
  · rfl
  · split <;> rfl

theorem name_referenceVariable (standIn : Option String) (base name : String) (flavour : Flavour)
    (index : Nat) (isConst : Bool) :
    (referenceVariable standIn base name flavour index isConst).name = name := by
  cases standIn with
  | some stub => rfl
  | none => exact name_plainVariable base name flavour index isConst

theorem passed?_referenceVariable (standIn : Option String) (base name : String)
    (flavour : Flavour) (index : Nat) (isConst : Bool) :
    (referenceVariable standIn base name flavour index isConst).initial.passed? = none := by
  cases standIn with
  | some stub => rfl
  | none => exact passed?_plainVariable base name flavour index isConst

/-- What is passed by a local is its name, and the line before declares it. -/
theorem viaLocal_eq (standIn : Option String) (base name : String) (flavour : Flavour)
    (index : Nat) (isConst : Bool) :
    viaLocal standIn name (localDeclaration base name flavour index isConst) =
      ⟨some (referenceVariable standIn base name flavour index isConst).text, name, standIn⟩ := by
  cases standIn with
  | some stub => rw [referenceVariable, text_nothing, viaLocal]
  | none => rw [referenceVariable, text_plainVariable, viaLocal]

/-- A parameter contributes the declaration of its local. -/
theorem declaration_eq (names : StandInNames) (parameter : Parameter) (flavour : Flavour)
    (index slot : Nat) : (contribution names parameter flavour index slot).declaration =
      (localOf? names parameter flavour index slot).map (·.text) := by
  unfold contribution localOf?
  dsimp only
  generalize standInFor? names (bareType (Text.trimString parameter.declaredType)) = standIn
  cases classify (Text.trimString parameter.declaredType) with
  | pointer =>
    cases standIn with
    | some stub =>
      dsimp only
      rw [Option.map_some, Option.map_some, text_nothing]
    | none => rfl
  | nonConstReference | constReference =>
    dsimp only
    rw [viaLocal_eq, Option.map_some]
  | rvalueReference | custom => cases standIn <;> rfl
  | void | integer | floating | boolean | text => rfl

theorem looksLocal_textLiteral (flavour : Flavour) :
    looksLocal (textLiteral flavour).toList = false := by
  unfold textLiteral
  split
  · exact looksLocal_append _ (by decide)
  · decide

/-- A value that is written in place is no reference. -/
theorem looksLocal_valueExpression (base : String) (category : Typing.Category)
    (flavour : Flavour) (index : Nat) :
    looksLocal (valueExpression base category flavour index).toList = false := by
  unfold valueExpression
  dsimp only
  cases category with
  | integer =>
    cases flavour with
    | boundary => exact looksLocal_append _ (by decide)
    | plain | edgeCase =>
      dsimp only
      decide
  | floating =>
    cases flavour with
    | boundary =>
      dsimp only
      split <;> split <;> decide
    | plain | edgeCase =>
      dsimp only
      split <;> decide
  | boolean =>
    dsimp only
    split <;> decide
  | text => exact looksLocal_textLiteral flavour
  | pointer =>
    dsimp only
    decide
  | void | nonConstReference | constReference | rvalueReference | custom =>
    exact looksLocal_append _ (by decide)

theorem looksLocal_viaValue (standIn : Option String) {otherwise : String}
    (h : looksLocal otherwise.toList = false) :
    looksLocal (viaValue standIn otherwise).expression.toList = false := by
  cases standIn with
  | some stub => exact looksLocal_append _ (by decide)
  | none => exact h

/-- What is passed for a parameter refers to its local, or to none. -/
theorem expression_cases (names : StandInNames) (parameter : Parameter) (flavour : Flavour)
    (index slot : Nat) :
    (∃ v, localOf? names parameter flavour index slot = some v ∧
      Refers (contribution names parameter flavour index slot).expression v.name slot) ∨
    localOf? names parameter flavour index slot = none ∧
      looksLocal (contribution names parameter flavour index slot).expression.toList = false := by
  unfold contribution localOf?
  dsimp only
  generalize standInFor? names (bareType (Text.trimString parameter.declaredType)) = standIn
  cases classify (Text.trimString parameter.declaredType) with
  | pointer =>
    cases standIn with
    | some stub => exact .inl ⟨_, rfl, .inr rfl, .inr rfl⟩
    | none =>
      refine .inr ⟨rfl, ?_⟩
      dsimp only
      decide
  | nonConstReference =>
    refine .inl ⟨_, rfl, ?_⟩
    dsimp only
    rw [name_referenceVariable, viaLocal_eq]
    exact ⟨.inl rfl, .inl rfl⟩
  | constReference =>
    refine .inl ⟨_, rfl, ?_⟩
    dsimp only
    rw [name_referenceVariable, viaLocal_eq]
    exact ⟨.inr rfl, .inl rfl⟩
  | rvalueReference | custom =>
    refine .inr ⟨rfl, ?_⟩
    dsimp only
    exact looksLocal_viaValue standIn (looksLocal_valueExpression _ _ _ _)
  | text =>
    refine .inr ⟨rfl, ?_⟩
    dsimp only
    split
    · exact looksLocal_textLiteral flavour
    · exact looksLocal_valueExpression _ _ _ _
  | void | integer | floating | boolean =>
    refine .inr ⟨rfl, ?_⟩
    dsimp only
    exact looksLocal_valueExpression _ _ _ _

/-- The local of a parameter has a name for its slot. -/
theorem localName_of_localOf? (h : localOf? names parameter flavour index slot = some v) :
    LocalName v.name slot := by
  rcases expression_cases names parameter flavour index slot with ⟨w, hw, hrefers⟩ | ⟨hnone, -⟩
  · obtain rfl := Option.some.inj (h.symm.trans hw)
    exact hrefers.named
  · rw [hnone] at h
    cases h

/-- Nothing is passed for the local of a parameter. -/
theorem passed?_localOf? (h : localOf? names parameter flavour index slot = some v) :
    v.initial.passed? = none := by
  unfold localOf? at h
  dsimp only at h
  split at h
  · obtain ⟨stub, -, rfl⟩ := Option.map_eq_some_iff.1 h
    rfl
  · cases h
    exact passed?_referenceVariable _ _ _ _ _ _
  · cases h
    exact passed?_referenceVariable _ _ _ _ _ _
  · cases h

/-- An argument that refers to a local is that of the parameter whose local it is. -/
theorem Refers.of_contribution
    (h : Refers (contribution names parameter flavour index slot).expression name n) :
    n = slot ∧ ∃ v, localOf? names parameter flavour index slot = some v ∧ v.name = name := by
  rcases expression_cases names parameter flavour index slot with ⟨v, hv, hrefers⟩ | ⟨-, hplain⟩
  · obtain rfl := h.unique hrefers
    exact ⟨h.named.slot_eq hrefers.named, v, hv, rfl⟩
  · rw [h.looksLocal] at hplain
    cases hplain

end Contributions

section Lists
variable {names : StandInNames} {parameters : List Parameter} {flavour : Flavour}
  {firstSlot : Nat} {v : Variable} {known : List String}

/-- The locals of a parameter list. -/
def locals (names : StandInNames) (parameters : List Parameter) (flavour : Flavour)
    (firstSlot : Nat) : List Variable :=
  parameters.zipIdx.filterMap fun q => localOf? names q.1 flavour q.2 (firstSlot + q.2)

/-- What is passed for a parameter list. -/
def expressions (names : StandInNames) (parameters : List Parameter) (flavour : Flavour)
    (firstSlot : Nat) : List String :=
  parameters.zipIdx.map fun q => (contribution names q.1 flavour q.2 (firstSlot + q.2)).expression

theorem filterMap_declaration? (names : StandInNames) (parameters : List Parameter)
    (flavour : Flavour) (firstSlot : Nat) :
    (passings names parameters flavour firstSlot).filterMap (·.declaration?) =
      (locals names parameters flavour firstSlot).map (·.text) := by
  rw [passings, locals, List.filterMap_map, List.map_filterMap]
  refine List.filterMap_congr fun q _ => ?_
  rw [← declaration_eq, contribution_eq]
  rfl

theorem map_expression (names : StandInNames) (parameters : List Parameter) (flavour : Flavour)
    (firstSlot : Nat) : (passings names parameters flavour firstSlot).map (·.expression) =
      expressions names parameters flavour firstSlot := by
  rw [passings, expressions, List.map_map]
  refine List.map_congr_left fun q _ => ?_
  rw [contribution_eq]
  rfl

theorem mem_locals (h : v ∈ locals names parameters flavour firstSlot) :
    ∃ i < parameters.length, LocalName v.name (firstSlot + i) := by
  obtain ⟨⟨parameter, i⟩, hmem, hlocal⟩ := List.mem_filterMap.1 h
  obtain ⟨hlt, -⟩ := List.getElem?_eq_some_iff.1 (List.mem_zipIdx_iff_getElem?.1 hmem)
  exact ⟨i, hlt, localName_of_localOf? hlocal⟩

/-- No two parameters of a list have locals of one name. -/
theorem nodup_locals (names : StandInNames) (parameters : List Parameter) (flavour : Flavour)
    (firstSlot : Nat) : ((locals names parameters flavour firstSlot).map (·.name)).Nodup := by
  have hplaces : parameters.zipIdx.Pairwise fun q r => q.2 < r.2 := by
    rw [← List.pairwise_map, List.zipIdx_map_snd]
    exact List.pairwise_lt_range'
  rw [List.Nodup, List.pairwise_map, locals, List.pairwise_filterMap]
  refine hplaces.imp fun hlt v hv w hw heq => ?_
  have hname := localName_of_localOf? hv
  rw [heq] at hname
  have hslot := hname.slot_eq (localName_of_localOf? hw)
  omega

/-- There is one argument for each parameter, in their order, and those that refer to locals refer
to the known ones of their own slots. -/
structure Fills (names : StandInNames) (parameters : List Parameter) (flavour : Flavour)
    (firstSlot : Nat) (known arguments : List String) : Prop where
  length : arguments.length = parameters.length
  inOrder : ∀ (i : Nat) parameter, parameters[i]? = some parameter →
    arguments[i]? = some (contribution names parameter flavour i (firstSlot + i)).expression
  refers : ∀ (i : Nat) e name slot, arguments[i]? = some e → Refers e name slot →
    slot = firstSlot + i ∧ name ∈ known

theorem fills_expressions
    (hknown : ∀ v ∈ locals names parameters flavour firstSlot, v.name ∈ known) :
    Fills names parameters flavour firstSlot known
      (expressions names parameters flavour firstSlot) where
  length := by rw [expressions, List.length_map, List.length_zipIdx]
  inOrder i parameter hparameter := by
    rw [expressions, List.getElem?_map, List.getElem?_zipIdx, hparameter]
    simp
  refers i e name slot he hrefers := by
    rw [expressions, List.getElem?_map, Option.map_eq_some_iff] at he
    obtain ⟨⟨parameter, place⟩, hq, rfl⟩ := he
    rw [List.getElem?_zipIdx, Option.map_eq_some_iff] at hq
    obtain ⟨_, hparameter, hpair⟩ := hq
    obtain ⟨rfl, rfl⟩ := Prod.mk.inj hpair
    obtain ⟨hslot, v, hv, rfl⟩ := hrefers.of_contribution
    rw [Nat.zero_add] at hslot hv
    refine ⟨hslot, hknown v (List.mem_filterMap.2 ⟨(_, i), ?_, hv⟩)⟩
    exact List.mem_zipIdx_iff_getElem?.2 hparameter

end Lists

end TestSynth.Synthesis
