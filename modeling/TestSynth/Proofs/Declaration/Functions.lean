import Mathlib
import TestSynth.Declaration.Signature
import TestSynth.Proofs.Declaration.Parsing
/-!
What a printed signature is read as: constructors, destructors, methods and functions give back
their names, types, parameters and flags.
-/
namespace TestSynth.Declaration

open Text

/-- The function that the head and a parameter list declare. -/
def Declared.function (d : Declared) (isStatic isConst : Bool) (access : Access)
    (parameters : List Declared) : Method :=
  { name := d.name.text, returnType := d.type.text, parameters := parameters.map Declared.parameter
    access
    flags := { isStatic, isConst } }

section Heads
variable {owner : Option String} {access : Access} {leading name before lead : List Char}

def constMark (isConst : Bool) : List Char := if isConst then " const".toList else []

def staticMark (isStatic : Bool) : List Char := if isStatic then "static ".toList else []

/-- What stands before a parameter list: the name it belongs to and what leads up to the name. -/
structure IsHead (leading name before : List Char) : Prop where
  append : leading ++ name = before
  tidy : Tidy before
  known : ∀ c ∈ before, isTypeChar c ∨ c = '~'
  nested : Nested false before
  starts : ∃ c rest, before = c :: rest ∧ c ≠ ',' ∧ c ≠ ':'
  firstWord : skippedWords.contains (String.ofList (before.takeWhile isWord)) = false
  ordinary : "operator".toList ∉ tokens before
  apart : ∀ c ∈ leading.getLast?, isNamePart c = false
  nameParts : ∀ c ∈ name, isNamePart c
  unqualified : ':' ∉ name
  identifier : isIdentifier (name.dropWhile (· == '~'))

/-- The declaration of a function as it is written. -/
def functionChars (before : List Char) (ps : List Declared) (isConst : Bool) : List Char :=
  before ++ ('(' :: listChars ps ++ [')']) ++ constMark isConst

theorem parseSuffix_constMark (isConst : Bool) : parseSuffix (constMark isConst) = { isConst } := by
  cases isConst <;> decide +kernel

theorem IsHead.not_mem {c : Char} (h : IsHead leading name before) (hc : isTypeChar c = false)
    (htilde : c ≠ '~') : c ∉ before := fun hmem => by
  rcases h.known c hmem with hk | hk
  · simp [hk] at hc
  · exact htilde hk

theorem IsHead.legible (h : IsHead leading name before) (ps : List Declared) (isConst : Bool) :
    Legible (functionChars before ps isConst) where
  tidy := by
    have hopen : isBlank '(' = false := by decide
    have hclose : Tidy [')'] := .of_solid (by simp [isBlank])
    have hlist : Tidy (before ++ ('(' :: listChars ps ++ [')'])) :=
      h.tidy.append (.cons hopen ((listChars_tidy ps).append hclose))
    cases isConst with
    | false => simpa [functionChars, constMark] using hlist
    | true =>
      have hlast : (before ++ ('(' :: listChars ps ++ [')'])).getLast? = some ')' := by
        rw [List.getLast?_append_of_ne_nil _ (by simp), List.getLast?_concat]
      refine hlist.spaced constWord.tidy (by simp) constWord.ne_nil (fun c hc => ?_)
        (TypeSyntax.name constWord).starts_apart
      rw [hlast, Option.mem_some_iff] at hc
      subst hc
      decide
  bracketless := by
    have hhead := h.not_mem (c := '[') (by decide) (by decide)
    have hlist := not_mem_listChars ps (c := '[') (by decide)
    simp only [functionChars, List.mem_append, List.mem_cons, not_or]
    refine ⟨⟨hhead, ⟨by decide, hlist⟩, by decide⟩, by cases isConst <;> decide⟩
  starts := by
    obtain ⟨c, rest, hcons, hc⟩ := h.starts
    exact ⟨c, _, by rw [functionChars, hcons]; rfl, hc⟩
  firstWord := by
    rw [functionChars, List.append_assoc, takeWhile_append_of_head (by simp [isWord])]
    exact h.firstWord

theorem IsHead.cutAtParen_eq (h : IsHead leading name before) (ps : List Declared)
    (isConst : Bool) :
    cutAtParen 0 none (functionChars before ps isConst) =
      some (before, listChars ps ++ ')' :: constMark isConst) := by
  rw [functionChars, List.append_assoc, h.nested.cutAtParen]
  simp [cutAtParen]

theorem splitGroup_listChars (ps : List Declared) (rest : List Char) :
    splitGroup '(' ')' 0 (listChars ps ++ ')' :: rest) = some (listChars ps, rest) := by
  refine splitGroup_close (fun c hc => ⟨?_, ?_⟩) (by decide) <;>
    · rintro rfl
      exact not_mem_listChars ps (by decide) hc

theorem IsHead.parseFunction_eq (h : IsHead leading name before) {returned : List Char}
    {kind : Bool × Bool}
    (hreturned : tidyType (joinWith [' '] ((words leading).filter (!isModifier ·))) = returned)
    (hkind : specialKind? owner name returned = some kind) (ps : List Declared) (isConst : Bool) :
    parseFunction owner access before (listChars ps) (constMark isConst) =
      .method
        { name := String.ofList name, returnType := String.ofList returned
          parameters := ps.map Declared.parameter, access
          flags :=
            { isConst, isStatic := (words leading).contains "static".toList
              isVirtual := (words leading).contains "virtual".toList
              isConstructor := kind.1, isDestructor := kind.2 } } := by
  have hname : takeEndWhile isNamePart before = name :=
    h.append ▸ takeEndWhile_append h.apart h.nameParts
  have hleading : dropEndWhile isNamePart before = leading :=
    h.append ▸ dropEndWhile_append h.apart h.nameParts
  have hne : name ≠ [] := by
    rintro rfl
    cases h.identifier
  have hdeclared : declaredName? owner name = some name := by
    rw [declaredName?, cutAtLast_eq_none h.unqualified]
  have hpointer : ((trimStart (listChars ps)).head?.any fun c => c == '*' || c == '&' || c == '^') =
      false := by
    rw [trimStart_eq_self (listChars_tidy ps).starts]
    cases ps with
    | nil => rfl
    | cons d ps =>
      obtain ⟨c, rest, hcons, hc⟩ := listChars_starts ps d
      rw [hcons, List.head?_cons, Option.any_some]
      simp only [Bool.or_eq_false_iff, beq_eq_false_iff_ne]
      exact ⟨⟨ne_of_holds hc (by decide), ne_of_holds hc (by decide)⟩, ne_of_holds hc (by decide)⟩
  rw [parseFunction, trimEnd_eq_self h.tidy.ends]
  simp [hname, hleading, hne, hpointer, hdeclared, h.identifier, parseSuffix_constMark, hreturned,
    hkind, parseParameters?_listChars]

/-- A printed function is read back, as what its name and its return type make it. -/
theorem IsHead.parse_eq (h : IsHead leading name before) (access : Access)
    {returned : List Char} {kind : Bool × Bool}
    (hreturned : tidyType (joinWith [' '] ((words leading).filter (!isModifier ·))) = returned)
    (hkind : specialKind? owner name returned = some kind)
    (hlead : ∀ c ∈ lead, isBlank c) (ps : List Declared) (isConst : Bool) :
    parse owner access (lead ++ functionChars before ps isConst) =
      .method
        { name := String.ofList name, returnType := String.ofList returned
          parameters := ps.map Declared.parameter, access
          flags :=
            { isConst, isStatic := (words leading).contains "static".toList
              isVirtual := (words leading).contains "virtual".toList
              isConstructor := kind.1, isDestructor := kind.2 } } := by
  have hlegible := h.legible ps isConst
  have hassign : cutAtAssign 0 none before = none :=
    cutAtAssign_eq_none (h.not_mem (by decide) (by decide))
  have hoperator : (tokens before).contains "operator".toList = false := by
    rw [Bool.eq_false_iff, ne_eq, List.contains_iff_mem]
    exact h.ordinary
  rw [parse]
  simp only [hlegible.trim_eq hlead, hlegible.dropWhile_eq, hlegible.not_skipped, h.cutAtParen_eq,
    hoperator, hassign, splitGroup_listChars, h.parseFunction_eq hreturned hkind,
    Bool.false_eq_true, if_false, Option.isSome_none]

theorem intercalate_eq_joinWith (sep : List Char) (ws : List (List Char)) :
    sep.intercalate ws = joinWith sep ws := by
  induction ws with
  | nil => rfl
  | cons w ws ih =>
    cases ws with
    | nil => simp [joinWith]
    | cons v ws => simp [joinWith, ← ih, List.intercalate]

theorem Declared.render_parameter (d : Declared) : d.parameter.render.toList = d.chars := by
  have hname : d.name.text ≠ "" := by
    rw [ne_eq, ← String.toList_eq_nil_iff]
    exact d.name.ne_nil
  simp [Parameter.render, Declared.parameter, Declared.chars, hname, TypeSyntax.text]

/-- The printed signature, from the text before its parameter list. -/
theorem signature_toList {m : Method} {before : List Char} {ps : List Declared}
    (hbefore : staticMark m.flags.isStatic ++
      ((if m.returnType.isEmpty then "" else m.returnType ++ " ").toList ++ m.name.toList) = before)
    (hps : m.parameters = ps.map Declared.parameter) :
    m.signature.toList = functionChars before ps m.flags.isConst := by
  have hrender : (m.parameters.map Parameter.render).map String.toList = ps.map Declared.chars := by
    simp [hps, Declared.render_parameter]
  have hlist : (String.intercalate ", " (m.parameters.map Parameter.render)).toList =
      listChars ps := by
    rw [String.toList_intercalate, hrender, intercalate_eq_joinWith]
    rfl
  subst hbefore
  cases hs : m.flags.isStatic <;> cases hc : m.flags.isConst <;>
    simp [Method.signature, functionChars, staticMark, constMark, hlist, hs, hc]

theorem Declared.signature_function (d : Declared) (isStatic isConst : Bool) (ps : List Declared) :
    (d.function isStatic isConst access ps).signature.toList =
      functionChars (staticMark isStatic ++ d.chars) ps isConst := by
  refine signature_toList ?_ rfl
  simp [Declared.function, Declared.chars, TypeSyntax.text, d.type.ne_nil]

theorem isHead_word (w : Word) : IsHead [] w.text.toList w.text.toList where
  append := rfl
  tidy := w.tidy
  known c hc := .inl (isTypeChar_of_isWord (w.isWord_chars c hc))
  nested := w.nested
  starts := by
    obtain ⟨c, rest, hcons, hc⟩ := w.starts
    exact ⟨c, rest, hcons, ne_of_holds hc (by decide), ne_of_holds hc (by decide)⟩
  firstWord := w.unreserved.firstWord
  ordinary := w.unreserved.ordinary
  apart := by simp
  nameParts c hc := by simp [isNamePart, w.isWord_chars c hc]
  unqualified := w.not_mem (by decide)
  identifier := by
    obtain ⟨c, rest, hcons, hc⟩ := w.starts
    have htilde : c ≠ '~' := ne_of_holds hc (by decide)
    rw [hcons, List.dropWhile_cons_of_neg (by simpa using htilde), ← hcons]
    exact w.identifier

theorem isHead_tilde (w : Word) : IsHead [] ('~' :: w.text.toList) ('~' :: w.text.toList) where
  append := rfl
  tidy := .cons (by decide) w.tidy
  known := by
    rw [List.forall_mem_cons]
    exact ⟨.inr rfl, fun c hc => .inl (isTypeChar_of_isWord (w.isWord_chars c hc))⟩
  nested := .plain (by decide) w.nested
  starts := ⟨'~', _, rfl, by decide, by decide⟩
  firstWord := by
    rw [List.takeWhile_cons_of_neg (by decide)]
    decide
  ordinary := (unreserved_nil.append_cons (by decide) w.unreserved).ordinary
  apart := by simp
  nameParts := by
    rw [List.forall_mem_cons]
    exact ⟨by decide, (isHead_word w).nameParts⟩
  unqualified := by
    rw [List.mem_cons, not_or]
    exact ⟨by decide, w.not_mem (by decide)⟩
  identifier := by
    have h := (isHead_word w).identifier
    rwa [List.dropWhile_cons_of_pos (by decide)]

theorem isHead_declared (d : Declared) :
    IsHead (d.type.chars ++ [' ']) d.name.text.toList d.chars where
  append := by simp [Declared.chars]
  tidy := d.tidy
  known c hc := .inl (d.isTypeChar_chars c hc)
  nested := d.nested
  starts := d.legible.starts
  firstWord := d.legible.firstWord
  ordinary := d.unreserved.ordinary
  apart := by
    rw [List.getLast?_concat]
    simp [isNamePart, isWord]
  nameParts := (isHead_word d.name.toWord).nameParts
  unqualified := (isHead_word d.name.toWord).unqualified
  identifier := (isHead_word d.name.toWord).identifier

/-- The word for a static function may stand in front. -/
theorem IsHead.static (h : IsHead leading name before) (hne : leading ≠ [])
    (hstart : ∀ c ∈ before.head?, isWordStart c) :
    IsHead ("static ".toList ++ leading) name ("static".toList ++ ' ' :: before) := by
  have hword : ∀ c ∈ "static".toList, isWord c := by simp [isWord]
  have hnested : Nested false "static".toList :=
    .of_plain fun c hc => isPlain_of_isWord (hword c hc)
  have hbefore : before ≠ [] := by
    rw [← h.append]
    exact List.append_ne_nil_of_left_ne_nil hne name
  exact
    { append := by simp [← h.append]
      tidy := Tidy.spaced (.of_solid fun c hc => isBlank_of_isWord (hword c hc)) h.tidy (by simp)
        hbefore (by simp) fun c hc => apart_of_isWordStart (hstart c hc)
      known := by
        rw [List.forall_mem_append, List.forall_mem_cons]
        exact ⟨fun c hc => .inl (isTypeChar_of_isWord (hword c hc)), .inl (by decide), h.known⟩
      nested := hnested.append (.plain (by decide) h.nested)
      starts := ⟨'s', _, rfl, by decide, by decide⟩
      firstWord := by
        rw [takeWhile_append_of_head (by simp [isWord])]
        decide
      ordinary := by
        rw [tokens, fields_append_cons (by decide), List.mem_append, not_or]
        exact ⟨by decide, h.ordinary⟩
      apart := by
        rw [List.getLast?_append_of_ne_nil _ hne]
        exact h.apart
      nameParts := h.nameParts
      unqualified := h.unqualified
      identifier := h.identifier }

end Heads

/-- What leads up to the name of a method. -/
def Declared.leading (d : Declared) (isStatic : Bool) : List Char :=
  staticMark isStatic ++ (d.type.chars ++ [' '])

namespace Declared

variable (d : Declared) (isStatic : Bool) {owner : Option String}

theorem isHead_leading :
    IsHead (d.leading isStatic) d.name.text.toList (staticMark isStatic ++ d.chars) := by
  cases isStatic with
  | false => exact isHead_declared d
  | true =>
    obtain ⟨c, rest, hcons, hc⟩ := d.starts
    exact (isHead_declared d).static (by simp) (by simpa [hcons] using hc)

theorem words_leading : words (d.leading isStatic) =
    (if isStatic then ["static".toList] else []) ++ words d.type.chars := by
  have htype : words (d.type.chars ++ [' ']) = words d.type.chars := by
    rw [words_append_cons (by decide), words_nil, List.append_nil]
  cases isStatic with
  | false => exact htype
  | true =>
    have hstatic : words ("static".toList ++ ' ' :: (d.type.chars ++ [' '])) =
        "static".toList :: words (d.type.chars ++ [' ']) :=
      words_word_append (by simp) (by simp [isBlank]) (by decide)
    rw [htype] at hstatic
    exact hstatic

/-- Without the modifiers, the type is left. -/
theorem tidyType_leading :
    tidyType (joinWith [' '] ((words (d.leading isStatic)).filter (!isModifier ·))) =
      d.type.chars := by
  have hfilter : ((if isStatic then ["static".toList] else []) ++ words d.type.chars).filter
      (!isModifier ·) = words d.type.chars := by
    rw [List.filter_append, d.type.unreserved.filter_modifiers]
    cases isStatic <;> rfl
  rw [words_leading, hfilter, d.type.tidy.joinWith_words, d.type.tidy.tidyType_eq]

/-- The only modifier is the one for a static method. -/
theorem contains_words_leading {w : List Char} (hw : isModifier w) :
    (words (d.leading isStatic)).contains w = (isStatic && w == "static".toList) := by
  obtain ⟨hreserved, hword⟩ := isReserved_of_isModifier hw
  have htype := d.type.unreserved.not_mem_words hreserved hword
  rw [words_leading, List.contains_append, Bool.eq_iff_iff]
  cases isStatic <;> simp [htype]

/-- A name with a return type is neither a constructor nor a destructor. -/
theorem specialKind?_name (hother : owner ≠ some d.name.text) :
    specialKind? owner d.name.text.toList d.type.chars = some (false, false) := by
  have htilde : d.name.text.toList.head? ≠ some '~' := by
    obtain ⟨c, rest, hcons, hc⟩ := d.name.starts
    rw [hcons, List.head?_cons, ne_eq, Option.some.injEq]
    exact ne_of_holds hc (by decide)
  cases owner with
  | none => simp [specialKind?, d.type.ne_nil, htilde]
  | some className =>
    have hclass : d.name.text ≠ className := fun h => hother (by rw [h])
    simp [specialKind?, d.type.ne_nil, htilde, String.toList_inj, hclass]

end Declared

section Functions
variable {owner : Option String} {access : Access}

/-- A printed constructor is read back. -/
theorem parse_constructor (w : Word) (ps : List Declared) (lead : List Char)
    (hlead : ∀ c ∈ lead, isBlank c) :
    parse (some w.text) access (lead ++ functionChars w.text.toList ps false) =
      .method
        { name := w.text, returnType := "", parameters := ps.map Declared.parameter, access
          flags := { isConstructor := true } } := by
  have hkind : specialKind? (some w.text) w.text.toList [] = some (true, false) := by
    simp [specialKind?]
  have hreturned : tidyType (joinWith [' '] ((words []).filter (!isModifier ·))) = [] := rfl
  simpa using (isHead_word w).parse_eq access hreturned hkind hlead ps false

/-- A printed destructor is read back. -/
theorem parse_destructor (w : Word) (ps : List Declared) (lead : List Char)
    (hlead : ∀ c ∈ lead, isBlank c) :
    parse (some w.text) access (lead ++ functionChars ('~' :: w.text.toList) ps false) =
      .method
        { name := "~" ++ w.text, returnType := "", parameters := ps.map Declared.parameter, access
          flags := { isDestructor := true } } := by
  have hkind : specialKind? (some w.text) ('~' :: w.text.toList) [] = some (false, true) := by
    have hne : '~' :: w.text.toList ≠ w.text.toList := List.cons_ne_self _ _
    simp [specialKind?, hne]
  have hreturned : tidyType (joinWith [' '] ((words []).filter (!isModifier ·))) = [] := rfl
  simpa using (isHead_tilde w).parse_eq access hreturned hkind hlead ps false

/-- A printed method or function with a return type is read back, whether it stands in a class of
another name or in none. -/
theorem parse_declared (d : Declared) (hother : owner ≠ some d.name.text) (isStatic isConst : Bool)
    (ps : List Declared) (lead : List Char) (hlead : ∀ c ∈ lead, isBlank c) :
    parse owner access (lead ++ functionChars (staticMark isStatic ++ d.chars) ps isConst) =
      .method (d.function isStatic isConst access ps) := by
  have hparse := (d.isHead_leading isStatic).parse_eq access
    (d.tidyType_leading isStatic) (d.specialKind?_name hother) hlead ps isConst
  have hstatic := d.contains_words_leading isStatic (w := "static".toList) (by decide)
  have hvirtual := d.contains_words_leading isStatic (w := "virtual".toList) (by decide)
  rw [hstatic, hvirtual] at hparse
  simpa [Declared.function, TypeSyntax.text] using hparse

end Functions

end TestSynth.Declaration
