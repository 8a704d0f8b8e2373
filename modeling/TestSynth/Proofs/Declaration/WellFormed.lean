import Mathlib
import TestSynth.Declaration.Basic
import TestSynth.Proofs.Declaration.Spelling
/-!
What any text is read as, however broken it is. A method that is read has an identifier for its
name, is of the kind that its name and return type give it, and has parameters that all have types.
-/
namespace TestSynth

open Text

/-- A parameter has a type, and nothing or an identifier for its name. -/
structure Parameter.WellFormed (p : Parameter) : Prop where
  typed : p.declaredType ≠ ""
  named : p.name = "" ∨ isIdentifier p.name.toList

namespace Declaration

section Types
variable {c : Char} {cs : List Char} {p : Char → Bool}

theorem dropEndWhile_cons_eq (cs : List Char) (hc : p c = false) :
    ∃ rest, dropEndWhile p (c :: cs) = c :: rest := by
  have hne : dropEndWhile p (c :: cs) ≠ [] := dropEndWhile_cons_ne_nil hc
  obtain ⟨d, rest, h⟩ := List.exists_cons_of_ne_nil hne
  have hprefix := prefix_dropEndWhile p (c :: cs)
  rw [h, List.cons_prefix_cons] at hprefix
  exact ⟨rest, hprefix.1 ▸ h⟩

/-- Array brackets are taken off the end only. -/
theorem dropArrays_cons (cs : List Char) (hsolid : isBlank c = false) (hc : c ≠ '[') :
    ∃ rest, (dropArrays (c :: cs)).1 = c :: rest := by
  induction hn : cs.length using Nat.strong_induction_on generalizing cs with
  | _ n ih =>
    subst hn
    rw [dropArrays]
    split
    · split
      · next before after hcut =>
        have happend := cutAtLast_eq_append hcut
        cases before with
        | nil =>
          simp only [List.nil_append, List.cons_append, List.cons.injEq] at happend
          exact absurd happend.1 hc
        | cons d before =>
          simp only [List.cons_append, List.cons.injEq] at happend
          obtain ⟨rfl, rfl⟩ := happend
          obtain ⟨rest, hrest⟩ := dropEndWhile_cons_eq before hsolid
          have hlength := dropEndWhile_length isBlank (c :: before)
          rw [hrest, List.length_cons, List.length_cons] at hlength
          rw [trimEnd, hrest]
          refine ih rest.length ?_ rest rfl
          simp only [List.append_assoc, List.length_append, List.length_cons]
          omega
      · exact ⟨cs, rfl⟩
    · exact ⟨cs, rfl⟩

end Types

section Parameters
variable {c : Char} {cs entry : List Char} {p : Parameter} {ps : List Parameter} {variadic : Bool}

theorem isBlank_of_starts (h : isWordStart c || c == ':') : isBlank c = false ∧ c ≠ '[' := by
  rw [Bool.or_eq_true, beq_iff_eq] at h
  rcases h with h | rfl
  · exact ⟨isBlank_of_isWord (isWord_of_isWordStart h), ne_of_holds h (by decide)⟩
  · decide

theorem Canonical.named_or_unnamed {p : Parameter} (h : Canonical p) :
    p.name = "" ∨ isIdentifier p.name.toList := by
  cases h with
  | unnamed => exact .inl rfl
  | named tidy typed closed name free => exact .inr (by simpa using name)

theorem wellFormed_splitTypeAndName (cs : List Char) (h : isWordStart c || c == ':') :
    (splitTypeAndName (c :: cs)).WellFormed := by
  refine ⟨?_, (canonical_splitTypeAndName (c :: cs)).named_or_unnamed⟩
  obtain ⟨hsolid, hc⟩ := isBlank_of_starts h
  obtain ⟨rest, hrest⟩ := dropEndWhile_cons_eq cs hsolid
  have htrim : trim (c :: cs) = c :: rest := by
    rw [trim, trimStart_eq_self (by simpa using hsolid), trimEnd, hrest]
  obtain ⟨text, htext⟩ := dropArrays_cons rest hsolid hc
  -- What stands before the name is nothing, or starts like the whole.
  have hprefix := (prefix_dropEndWhile isBlank _).trans (prefix_dropEndWhile isWord (c :: text))
  rw [← trimEnd, ← beforeWord, List.prefix_cons_iff] at hprefix
  rw [splitTypeAndName_eq, htrim]
  simp only [htext, ne_eq, String.ofList_eq_empty_iff]
  apply starred_ne_nil
  split
  · exact tidyType_ne_nil List.mem_cons_self hsolid
  · next hname =>
    rcases hprefix with hnil | ⟨tail, hcons, -⟩
    · simp [isWhole, hnil] at hname
    · rw [hcons]
      exact tidyType_ne_nil List.mem_cons_self hsolid

theorem wellFormed_parseEntry (h : parseEntry? entry = some p) : p.WellFormed := by
  unfold parseEntry? at h
  dsimp only at h
  split at h
  · next c cs hentry =>
    split at h
    · next hc =>
      cases h
      have hspec := wellFormed_splitTypeAndName cs hc
      rw [hentry]
      exact ⟨hspec.typed, hspec.named⟩
    · cases h
  · cases h

theorem wellFormed_mapM_parseEntry {entries : List (List Char)}
    (h : entries.mapM parseEntry? = some ps) : ∀ p ∈ ps, p.WellFormed := by
  induction entries generalizing ps with
  | nil =>
    cases h
    simp
  | cons entry entries ih =>
    rw [List.mapM_cons] at h
    obtain ⟨p, hp, h⟩ := Option.bind_eq_some_iff.1 h
    obtain ⟨rest, hrest, h⟩ := Option.bind_eq_some_iff.1 h
    cases h
    exact List.forall_mem_cons.2 ⟨wellFormed_parseEntry hp, ih hrest⟩

/-- Whatever a parameter list is, the parameters read from it have types. -/
theorem wellFormed_parseParameters (h : parseParameters? cs = some (ps, variadic)) :
    ∀ p ∈ ps, p.WellFormed := by
  unfold parseParameters? at h
  dsimp only at h
  split at h
  · cases h
    simp
  · obtain ⟨found, hfound, heq⟩ := Option.map_eq_some_iff.1 h
    cases heq
    exact wellFormed_mapM_parseEntry hfound

end Parameters

section Functions
variable {owner : Option String} {access : Access} {raw before parameters after : List Char}
  {m : Method}

/-- What is known of a method by how it was read: it has a name and a return type that make it a
constructor, a destructor or neither. -/
structure Reads (owner : Option String) (m : Method) : Prop where
  identifier : isIdentifier (m.name.toList.dropWhile (· == '~'))
  kind : specialKind? owner m.name.toList m.returnType.toList =
    some (m.flags.isConstructor, m.flags.isDestructor)
  virtual_of_pure : m.flags.isPureVirtual → m.flags.isVirtual
  parameters : ∀ p ∈ m.parameters, p.WellFormed

/-- The words in front of the name of a function. -/
def leadingWords (before : List Char) : List (List Char) :=
  words (dropEndWhile isNamePart (trimEnd before))

/-- The type that words spell, modifiers left out. -/
def spelledType (ws : List (List Char)) : List Char :=
  tidyType (joinWith [' '] (ws.filter (!isModifier ·)))

/-- The type in front of the name, or the trailing one where it stands for that. -/
def returnedType (spelled : List Char) (suffix : Suffix) : List Char :=
  match suffix.trailingReturn with
  | some trailing => if spelled == "auto".toList || spelled.isEmpty then trailing else spelled
  | none => spelled

/-- What a method is made of. -/
theorem parseFunction_eq_method_iff :
    parseFunction owner access before parameters after = .method m ↔
      ∃ name kind ps, takeEndWhile isNamePart (trimEnd before) ≠ [] ∧
        ((trimStart parameters).head?.any fun c => c == '*' || c == '&' || c == '^') = false ∧
        declaredName? owner (takeEndWhile isNamePart (trimEnd before)) = some name ∧
        isIdentifier (name.dropWhile (· == '~')) ∧ (parseSuffix after).isDeleted = false ∧
        specialKind? owner name
          (returnedType (spelledType (leadingWords before)) (parseSuffix after)) = some kind ∧
        parseParameters? parameters = some ps ∧
        m =
          { name := String.ofList name
            returnType := String.ofList
              (returnedType (spelledType (leadingWords before)) (parseSuffix after))
            parameters := ps.1
            access
            flags :=
              { isConst := (parseSuffix after).isConst
                isStatic := (leadingWords before).contains "static".toList
                isVirtual := (leadingWords before).contains "virtual".toList ||
                  (parseSuffix after).isOverride || (parseSuffix after).isPure
                isPureVirtual := (parseSuffix after).isPure
                isConstructor := kind.1
                isDestructor := kind.2
                isVariadic := ps.2 } } := by
  unfold parseFunction
  dsimp only
  constructor
  · intro h
    split at h
    · cases h
    next hnamed =>
    split at h
    · cases h
    next hdirect =>
    split at h
    · cases h
    next name hname =>
    split at h
    · cases h
    next hidentifier =>
    split at h
    · cases h
    next hdeleted =>
    split at h
    · cases h
    next isConstructor isDestructor hkind =>
    split at h
    · cases h
    next ps isVariadic hparameters =>
    cases h
    exact ⟨name, (isConstructor, isDestructor), (ps, isVariadic), by simpa using hnamed,
      by simpa using hdirect, hname, by simpa using hidentifier, by simpa using hdeleted, hkind,
      hparameters, rfl⟩
  · rintro ⟨name, kind, ps, hnamed, hdirect, hname, hidentifier, hdeleted, hkind, hparameters, rfl⟩
    rw [if_neg (by simpa using hnamed), if_neg (by simpa using hdirect)]
    simp only [hname, hidentifier, hdeleted, hparameters, Bool.not_true, Bool.false_eq_true,
      if_false]
    split
    · next hnone => cases hnone.symm.trans hkind
    · next hsome =>
      cases hsome.symm.trans hkind
      rfl

theorem reads_parseFunction (h : parseFunction owner access before parameters after = .method m) :
    Reads owner m := by
  obtain ⟨name, kind, ps, -, -, -, hidentifier, -, hkind, hparameters, rfl⟩ :=
    parseFunction_eq_method_iff.1 h
  constructor
  · simpa using hidentifier
  · simpa using hkind
  · intro hpure
    simp only at hpure
    simp [hpure]
  · exact wellFormed_parseParameters hparameters

theorem parseVariable_cases (cs : List Char) :
    parseVariable cs = .skip ∨ ∃ type name, parseVariable cs = .variable type name := by
  unfold parseVariable
  dsimp only
  generalize (splitTopLevel ',' (beforeColon none _)).headD [] = first
  split
  · exact .inl rfl
  · split
    · exact .inl rfl
    · exact .inr ⟨_, _, rfl⟩

theorem parseVariable_ne_method (cs : List Char) (m : Method) : parseVariable cs ≠ .method m := by
  rcases parseVariable_cases cs with h | ⟨type, name, h⟩
  · rw [h]
    nofun
  · rw [h]
    nofun

/-- A text without attributes and surplus blanks. -/
def stripped (raw : List Char) : List Char := trim (stripAttributes (normalizeSpaces raw))

/-- The text that is classified, which also has no marks in front. -/
def subject (raw : List Char) : List Char :=
  trim ((stripped raw).dropWhile fun c => c == ',' || c == ':')

/-- A text is read as the text that is classified. -/
theorem parse_eq_subject (owner : Option String) (access : Access) (raw : List Char) :
    parse owner access raw =
      if (subject raw).isEmpty ||
        skippedWords.contains (String.ofList ((subject raw).takeWhile isWord)) then .skip
      else match cutAtParen 0 none (subject raw) with
        | none => parseVariable (subject raw)
        | some (before, rest) =>
          if (tokens before).contains "operator".toList then .skip
          else if (cutAtAssign 0 none before).isSome then parseVariable (subject raw)
          else match splitGroup '(' ')' 0 rest with
            | none => .skip
            | some (parameters, after) => parseFunction owner access before parameters after := rfl

theorem parse_trim (owner : Option String) (access : Access) (cs : List Char) :
    parse owner access (trim cs) = parse owner access cs := by
  rw [parse, normalizeSpaces_trim, ← parse]

/-- A method is what stands around a list of parameters in a text that is not skipped, names no
operator and assigns nothing before the list. -/
theorem parse_eq_method_iff : parse owner access raw = .method m ↔
    skippedWords.contains (String.ofList ((subject raw).takeWhile isWord)) = false ∧
      ∃ before rest parameters after, cutAtParen 0 none (subject raw) = some (before, rest) ∧
        "operator".toList ∉ tokens before ∧ cutAtAssign 0 none before = none ∧
        splitGroup '(' ')' 0 rest = some (parameters, after) ∧
        parseFunction owner access before parameters after = .method m := by
  rw [parse_eq_subject]
  constructor
  · intro h
    split at h
    · cases h
    next hfirst =>
    split at h
    · exact absurd h (parseVariable_ne_method _ m)
    next before rest hcut =>
    split at h
    · cases h
    next hoperator =>
    split at h
    · exact absurd h (parseVariable_ne_method _ m)
    next hassign =>
    split at h
    · cases h
    next parameters after hgroup =>
    rw [Bool.or_eq_true, not_or, Bool.not_eq_true, Bool.not_eq_true] at hfirst
    rw [List.contains_iff_mem] at hoperator
    rw [Option.not_isSome_iff_eq_none] at hassign
    exact ⟨hfirst.2, before, rest, parameters, after, hcut, hoperator, hassign, hgroup, h⟩
  · rintro ⟨hfirst, before, rest, parameters, after, hcut, hoperator, hassign, hgroup, h⟩
    have hempty : (subject raw).isEmpty = false := by
      rw [Bool.eq_false_iff]
      intro hempty
      rw [List.isEmpty_iff.1 hempty] at hcut
      cases hcut
    have hword : (tokens before).contains "operator".toList = false := by
      rwa [Bool.eq_false_iff, Ne, List.contains_iff_mem]
    simp only [hempty, hfirst, Bool.or_false, Bool.false_eq_true, if_false, hcut, hword, hassign,
      Option.isSome_none, hgroup, h]

/-- A declaration that is read as a method has all that a method must have. -/
theorem reads_parse (h : parse owner access raw = .method m) : Reads owner m := by
  obtain ⟨-, _, _, _, _, -, -, -, -, hfunction⟩ := parse_eq_method_iff.1 h
  exact reads_parseFunction hfunction

end Functions

section Kinds
variable {className : String} {m : Method}

/-- What a function of a class can be, with what it is called and returns then. -/
inductive KindIn (className : String) (m : Method) : Prop
  | construct (hname : m.name = className) (htype : m.returnType = "")
      (hconstructor : m.flags.isConstructor = true) (hdestructor : m.flags.isDestructor = false)
  | destruct (hname : m.name = "~" ++ className)
      (hconstructor : m.flags.isConstructor = false) (hdestructor : m.flags.isDestructor = true)
  | ordinary (hname : m.name ≠ className) (htilde : m.name.toList.head? ≠ some '~')
      (htype : m.returnType ≠ "")
      (hconstructor : m.flags.isConstructor = false) (hdestructor : m.flags.isDestructor = false)

theorem Reads.kindIn (h : Reads (some className) m) : KindIn className m := by
  have hkind := h.kind
  unfold specialKind? at hkind
  dsimp only at hkind
  split at hkind
  · next hname =>
    split at hkind
    · next htype =>
      simp only [Option.some.injEq, Prod.mk.injEq] at hkind
      exact .construct (String.toList_inj.1 (eq_of_beq hname)) (by simpa using htype)
        hkind.1.symm hkind.2.symm
    · cases hkind
  · next hname =>
    have hname : m.name ≠ className := fun heq => hname (by rw [heq, beq_self_eq_true])
    split at hkind
    · next htilde =>
      split at hkind
      · next htail =>
        simp only [Option.some.injEq, Prod.mk.injEq] at hkind
        obtain ⟨cs, hcs⟩ := List.head?_eq_some_iff.1 (eq_of_beq htilde)
        rw [hcs, List.tail_cons] at htail
        refine .destruct (String.toList_inj.1 ?_) hkind.1.symm hkind.2.symm
        rw [hcs, String.toList_append, eq_of_beq htail]
        rfl
      · cases hkind
    · next htilde =>
      split at hkind
      · cases hkind
      · next htype =>
        simp only [Option.some.injEq, Prod.mk.injEq] at hkind
        rw [Bool.or_eq_true, not_or] at htype
        exact .ordinary hname (by simpa using htilde) (by simpa using htype.1) hkind.1.symm
          hkind.2.symm

/-- Outside classes every function is an ordinary one. -/
theorem Reads.ordinary (h : Reads none m) : m.flags.isConstructor = false ∧
    m.flags.isDestructor = false ∧ m.name.toList.head? ≠ some '~' ∧ m.returnType ≠ "" := by
  have hkind := h.kind
  unfold specialKind? at hkind
  dsimp only at hkind
  split at hkind
  · cases hkind
  · next htype =>
    simp only [Option.some.injEq, Prod.mk.injEq] at hkind
    rw [Bool.or_eq_true, not_or, beq_iff_eq] at htype
    exact ⟨hkind.1.symm, hkind.2.symm, htype.2, by simpa using htype.1⟩

theorem dropWhile_tilde {name : List Char} (h : name.head? ≠ some '~') :
    name.dropWhile (· == '~') = name := by
  cases name with
  | nil => rfl
  | cons c cs =>
    rw [List.head?_cons, ne_eq, Option.some.injEq] at h
    rw [List.dropWhile_cons_of_neg (by simpa using h)]

end Kinds

end Declaration

end TestSynth
