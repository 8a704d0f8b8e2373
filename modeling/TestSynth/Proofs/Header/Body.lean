import Mathlib
import TestSynth.Proofs.Header.Layout
/-!
What the body of a printed class is read as: it is cut at its access labels, and every section
gives back its members.
-/
namespace TestSynth.Header

open Text Declaration

section Labels
variable {cs rest sofar : List Char} {current access : Access} {previous : Option Char}

theorem after?_eq_some_iff {word : String} :
    after? word cs = some rest ↔ cs = word.toList ++ rest := by
  rw [after?]
  constructor
  · intro h
    split at h
    · next hprefix =>
      obtain ⟨tail, rfl⟩ := List.isPrefixOf_iff_prefix.1 hprefix
      simpa [← String.length_toList] using h
    · cases h
  · rintro rfl
    simp [← String.length_toList]

theorem isWord_keyword (access : Access) : ∀ c ∈ access.keyword.toList, isWord c := by
  cases access <;> simp [Access.keyword, isWord]

/-- A label is a whole word. -/
theorem label?_eq_none (h : ∀ access : Access, cs.takeWhile isWord ≠ access.keyword.toList) :
    label? cs = none := by
  rw [label?, List.findSome?_eq_none_iff]
  intro access _
  rw [Option.bind_eq_none_iff]
  intro rest hrest
  rw [after?_eq_some_iff] at hrest
  subst hrest
  -- A word character behind the keyword is no colon, so that the keyword would be all of the word.
  have hhead : ∃ c, c ∈ rest.head? ∧ isWord c := by
    by_contra hnone
    refine h access ?_
    rw [takeWhile_append_of_head fun c hc => ?_]
    · exact List.takeWhile_eq_self_iff.2 (isWord_keyword access)
    · rw [Bool.eq_false_iff]
      exact fun hword => hnone ⟨c, hc, hword⟩
  obtain ⟨c, hc, hword⟩ := hhead
  cases rest with
  | nil => cases hc
  | cons d rest =>
    obtain rfl : d = c := by simpa using hc
    have hcolon : d ≠ ':' := ne_of_holds hword (by decide)
    rw [trimStart_eq_self (by simpa using isBlank_of_isWord hword)]
    split
    · next heq => exact absurd (List.cons.inj heq).1 hcolon
    · next heq => exact absurd (List.cons.inj heq).1 hcolon
    · rfl

/-- No identifier of the text is the keyword of a label. -/
def Unlabelled (cs : List Char) : Prop :=
  ∀ w ∈ tokens cs, ∀ access : Access, w ≠ access.keyword.toList

instance (cs : List Char) : Decidable (Unlabelled cs) :=
  decidable_of_iff (∀ w ∈ tokens cs, w ≠ Access.everyone.keyword.toList ∧
    w ≠ Access.derived.keyword.toList ∧ w ≠ Access.owner.keyword.toList) <| by
    refine forall_congr' fun w => forall_congr' fun _ => ⟨fun h access => ?_, fun h => ?_⟩
    · obtain ⟨heveryone, hderived, howner⟩ := h
      cases access <;> assumption
    · exact ⟨h .everyone, h .derived, h .owner⟩

theorem isWordAnywhere_eq {c : Char} (h : c.toNat < 128) : isWordAnywhere c = isWord c := by
  rw [isWordAnywhere, if_pos h]

/-- A character that starts no label goes to the section it stands in. -/
theorem sectionsFrom_cons {c : Char}
    (h : previous.any isWordAnywhere = false → label? (c :: cs) = none) :
    sectionsFrom current previous sofar (c :: cs) =
      sectionsFrom current (some c) (c :: sofar) cs := by
  rw [sectionsFrom]
  split
  · rfl
  · next hprevious =>
    have hnone := h (by simpa using hprevious)
    split
    · rfl
    all_goals
      next hsome =>
        rw [hnone] at hsome
        cases hsome

/-- A text goes to the section it stands in if none of its identifiers is a label. The first one
counts only where no identifier stands right before the text. -/
theorem sectionsFrom_append_of_tokens {word : List Char} {others : List (List Char)}
    (htokens : tokens cs = word :: others)
    (hends : ∀ c ∈ cs.getLast?, isWord c = false)
    (hfirst : previous.any isWordAnywhere = false →
      ∀ access : Access, word ≠ access.keyword.toList)
    (hothers : ∀ w ∈ others, ∀ access : Access, w ≠ access.keyword.toList) :
    sectionsFrom current previous sofar (cs ++ rest) =
      sectionsFrom current (cs.getLast?.or previous) (cs.reverse ++ sofar) rest := by
  induction cs generalizing previous sofar word others with
  | nil => rfl
  | cons c cs ih =>
    have hends' : ∀ d ∈ cs.getLast?, isWord d = false := fun d hd => by
      refine hends d ?_
      rw [List.getLast?_cons, Option.mem_def.1 hd]
      rfl
    have hnone : previous.any isWordAnywhere = false → label? (c :: (cs ++ rest)) = none := by
      intro hprevious
      have hmem := List.getLast_mem (List.cons_ne_nil c cs)
      have hend := hends _ (List.getLast?_eq_some_getLast (List.cons_ne_nil c cs))
      obtain ⟨fs, hfs⟩ := fields_head (!isWord ·) (c :: cs)
      simp only [Bool.not_not] at hfs
      obtain ⟨rfl, -⟩ := List.cons.inj (htokens.symm.trans hfs)
      refine label?_eq_none fun access => ?_
      rw [← List.cons_append, takeWhile_append_of_mem hmem hend]
      exact hfirst hprevious access
    rw [List.cons_append, sectionsFrom_cons hnone, getLast?_cons_or, List.reverse_cons,
      List.append_assoc]
    obtain ⟨g, gs, hg⟩ := fields_eq_cons (!isWord ·) cs
    cases hc : isWord c with
    | true =>
      simp only [tokens, fields, hc, hg, Bool.not_true, Bool.false_eq_true, if_false,
        List.cons.injEq] at htokens
      obtain ⟨-, rfl⟩ := htokens
      refine ih hg hends' (fun hprevious => ?_) hothers
      simp [isWordAnywhere_of_isWord hc] at hprevious
    | false =>
      simp only [tokens, fields, hc, hg, Bool.not_false, if_true, List.cons.injEq] at htokens
      obtain ⟨-, rfl⟩ := htokens
      rw [List.forall_mem_cons] at hothers
      exact ih hg hends' (fun _ => hothers.1) hothers.2

/-- A text without labels that ends in no identifier goes to the section it stands in. -/
theorem sectionsFrom_append (cs : List Char) (hlabels : Unlabelled cs)
    (hends : ∀ c ∈ cs.getLast?, isWord c = false) :
    sectionsFrom current previous sofar (cs ++ rest) =
      sectionsFrom current (cs.getLast?.or previous) (cs.reverse ++ sofar) rest := by
  obtain ⟨word, others, htokens⟩ := fields_eq_cons (!isWord ·) cs
  rw [Unlabelled, tokens, htokens, List.forall_mem_cons] at hlabels
  exact sectionsFrom_append_of_tokens htokens hends (fun _ => hlabels.1) hlabels.2

/-- What one colon or two in front make of the keyword before them. -/
def colons? (access : Access) : List Char → Option (Access × Bool × List Char)
  | ':' :: ':' :: after => some (access, true, after)
  | ':' :: after => some (access, false, after)
  | _ => none

theorem label?_eq (cs : List Char) : label? cs =
    [Access.everyone, .derived, .owner].findSome? fun access =>
      (after? access.keyword cs).bind fun rest => colons? access (trimStart rest) := rfl

theorem colons?_single (access : Access) (h : rest.head? ≠ some ':') :
    colons? access (':' :: rest) = some (access, false, rest) := by
  rw [colons?]
  rintro after rfl
  exact h rfl

theorem label?_keyword (access : Access) {gap rest : List Char} (hgap : ∀ c ∈ gap, isBlank c)
    (hrest : rest.head? ≠ some ':') :
    label? (access.keyword.toList ++ (gap ++ ':' :: rest)) = some (access, false, rest) := by
  have hcolon : trimStart (gap ++ ':' :: rest) = ':' :: rest :=
    trimStart_append hgap (by simp [isBlank])
  have hafter : ∀ level, after? level.keyword (access.keyword.toList ++ (gap ++ ':' :: rest)) =
      if level = access then some (gap ++ ':' :: rest) else none := fun level => by
    split
    · next heq => exact heq ▸ after?_eq_some_iff.2 rfl
    · next hne => cases level <;> cases access <;> simp_all [after?, Access.keyword]
  rw [label?_eq]
  simp only [hafter]
  cases access <;> simp [hcolon, colons?_single _ hrest]

/-- A label ends the section before it. -/
theorem sectionsFrom_of_label {c : Char} (hprevious : previous.any isWordAnywhere = false)
    (h : label? (c :: cs) = some (access, false, rest)) :
    sectionsFrom current previous sofar (c :: cs) =
      (current, sofar.reverse) :: sectionsFrom access (some ':') [] rest := by
  rw [sectionsFrom, if_neg (by simp [hprevious])]
  split
  · next hread => cases h.symm.trans hread
  · next hread =>
    cases h.symm.trans hread
    rfl
  · next hread => cases h.symm.trans hread

theorem sectionsFrom_label {gap : List Char} (hprevious : previous.any isWordAnywhere = false)
    (hgap : ∀ c ∈ gap, isBlank c) (hrest : rest.head? ≠ some ':') :
    sectionsFrom current previous sofar (access.keyword.toList ++ (gap ++ ':' :: rest)) =
      (current, sofar.reverse) :: sectionsFrom access (some ':') [] rest := by
  have hlabel := label?_keyword access hgap hrest
  obtain ⟨c, cs, hcons⟩ : ∃ c cs, access.keyword.toList = c :: cs := by
    cases access <;> exact ⟨_, _, rfl⟩
  rw [hcons, List.cons_append] at hlabel ⊢
  exact sectionsFrom_of_label hprevious hlabel

theorem unlabelled_nil : Unlabelled [] := by
  intro w hw access
  obtain rfl : w = [] := by simpa [tokens, fields] using hw
  cases access <;> decide

theorem Unlabelled.append_cons {b : List Char} {c : Char} (ha : Unlabelled cs)
    (hc : isWord c = false) (hb : Unlabelled b) : Unlabelled (cs ++ c :: b) := by
  intro w hw
  rw [tokens, fields_append_cons (by simp [hc])] at hw
  exact (List.mem_append.1 hw).elim (ha w) (hb w)

theorem Unlabelled.cons {c : Char} (hc : isWord c = false) (h : Unlabelled cs) :
    Unlabelled (c :: cs) := unlabelled_nil.append_cons hc h

theorem Unlabelled.blanks_append {lead : List Char} (hlead : ∀ c ∈ lead, isBlank c)
    (h : Unlabelled cs) : Unlabelled (lead ++ cs) := by
  induction lead with
  | nil => exact h
  | cons c lead ih =>
    rw [List.forall_mem_cons] at hlead
    exact (ih hlead.2).cons (isWord_of_isBlank hlead.1)

/-- The keywords of labels are reserved. -/
theorem unlabelled_of_unreserved (h : Unreserved cs) : Unlabelled cs := by
  rintro w hw access rfl
  have := h _ hw
  revert this
  cases access <;> decide

end Labels

section Members
variable {owner : Name} {access : Access}

/-- The characters a member is written with. -/
def isMemberChar (c : Char) : Bool := isWord c || " :<>,*&()~".toList.contains c

theorem isMemberChar_ascii {c : Char} (h : isMemberChar c) : c.toNat < 128 := by
  have hmarks : ∀ d ∈ " :<>,*&()~".toList, d.toNat < 128 := by simp
  rw [isMemberChar, Bool.or_eq_true, List.contains_iff_mem] at h
  rcases h with h | h
  · have := isWord_range h
    omega
  · exact hmarks c h

theorem isMemberChar_of_isTypeChar {c : Char} (h : isTypeChar c) : isMemberChar c := by
  have hmarks : ∀ d ∈ " :<>,*&".toList, isMemberChar d := by simp [isMemberChar]
  rw [isTypeChar, Bool.or_eq_true, List.contains_iff_mem] at h
  rcases h with h | h
  · simp [isMemberChar, h]
  · exact hmarks c h

theorem isMemberChar_functionChars {before : List Char} (h : ∀ c ∈ before, isMemberChar c)
    (ps : List Declared) (isConst : Bool) :
    ∀ c ∈ functionChars before ps isConst, isMemberChar c := by
  have hlist : ∀ c ∈ listChars ps, isMemberChar c := fun c hc =>
    isMemberChar_of_isTypeChar (isTypeChar_listChars ps c hc)
  simp only [functionChars, List.forall_mem_append, List.forall_mem_cons]
  refine ⟨⟨h, ⟨by decide, hlist⟩, by decide, List.forall_mem_nil _⟩, ?_⟩
  cases isConst <;> simp [constMark, isMemberChar, isWord]

theorem unlabelled_functionChars {before : List Char} (h : Unlabelled before) (ps : List Declared)
    (isConst : Bool) : Unlabelled (functionChars before ps isConst) := by
  have hlist : Unlabelled (listChars ps) := unlabelled_of_unreserved (unreserved_listChars ps)
  have hmark : Unlabelled (constMark isConst) := by
    cases isConst with
    | false => exact unlabelled_nil
    | true => exact .cons (by decide) (unlabelled_of_unreserved constWord.unreserved)
  have hchars : functionChars before ps isConst =
      before ++ '(' :: (listChars ps ++ ')' :: constMark isConst) := by
    simp [functionChars]
  rw [hchars]
  exact h.append_cons (by decide) (hlist.append_cons (by decide) hmark)

namespace Member

variable (m : Member owner)

theorem chars_constructor (ps : List Declared) :
    ((constructor ps : Member owner).declaration access).chars =
      functionChars owner.text.toList ps false :=
  signature_toList (by simp [staticMark]) rfl

theorem chars_destructor (ps : List Declared) :
    ((destructor ps : Member owner).declaration access).chars =
      functionChars ('~' :: owner.text.toList) ps false :=
  signature_toList (by simp [staticMark]) rfl

theorem chars_field (d : Declared) :
    ((field d : Member owner).declaration access).chars = d.chars := by
  simp [declaration, Declaration.chars, TypeSyntax.text, Declared.chars]

theorem chars_method (isStatic isConst : Bool) (d : Declared) (ps : List Declared)
    (other : d.name.text ≠ owner.text) :
    ((method isStatic isConst d ps other : Member owner).declaration access).chars =
      functionChars (staticMark isStatic ++ d.chars) ps isConst :=
  d.signature_function isStatic isConst ps

/-- What stands before the parameter list of a method. -/
theorem isMemberChar_before (d : Declared) (isStatic : Bool) :
    ∀ c ∈ staticMark isStatic ++ d.chars, isMemberChar c := by
  rw [List.forall_mem_append]
  refine ⟨?_, fun c hc => isMemberChar_of_isTypeChar (d.isTypeChar_chars c hc)⟩
  cases isStatic <;> simp [staticMark, isMemberChar, isWord]

theorem unlabelled_before (d : Declared) (isStatic : Bool) :
    Unlabelled (staticMark isStatic ++ d.chars) := by
  have hd := unlabelled_of_unreserved d.unreserved
  cases isStatic with
  | false => exact hd
  | true =>
    have hstatic : Unlabelled "static".toList := by
      intro w hw access
      obtain rfl : w = "static".toList := by simpa [tokens, fields, isWord] using hw
      cases access <;> decide
    exact hstatic.append_cons (c := ' ') (by decide) hd

theorem isMemberChar_chars : ∀ c ∈ (m.declaration access).chars, isMemberChar c := by
  have howner : ∀ c ∈ owner.text.toList, isMemberChar c := fun c hc =>
    isMemberChar_of_isTypeChar (isTypeChar_of_isWord (owner.isWord_chars c hc))
  cases m with
  | field d =>
    rw [chars_field]
    exact fun c hc => isMemberChar_of_isTypeChar (d.isTypeChar_chars c hc)
  | constructor ps =>
    rw [chars_constructor]
    exact isMemberChar_functionChars howner ps false
  | destructor ps =>
    rw [chars_destructor]
    refine isMemberChar_functionChars ?_ ps false
    rw [List.forall_mem_cons]
    exact ⟨by decide, howner⟩
  | method isStatic isConst d ps =>
    rw [chars_method]
    exact isMemberChar_functionChars (isMemberChar_before d isStatic) ps isConst

theorem unlabelled : Unlabelled (m.declaration access).chars := by
  have howner := unlabelled_of_unreserved owner.unreserved
  cases m with
  | field d =>
    rw [chars_field]
    exact unlabelled_of_unreserved d.unreserved
  | constructor ps =>
    rw [chars_constructor]
    exact unlabelled_functionChars howner ps false
  | destructor ps =>
    rw [chars_destructor]
    exact unlabelled_functionChars (howner.cons (by decide)) ps false
  | method isStatic isConst d ps =>
    rw [chars_method]
    exact unlabelled_functionChars (unlabelled_before d isStatic) ps isConst

/-- A printed member is read back. -/
theorem parse_chars (lead : List Char) (hlead : ∀ c ∈ lead, isBlank c) :
    parse (some owner.text) access (lead ++ (m.declaration access).chars) =
      m.declaration access := by
  cases m with
  | field d =>
    rw [chars_field]
    exact parse_variable d lead hlead
  | constructor ps =>
    rw [chars_constructor]
    exact parse_constructor owner.toWord ps lead hlead
  | destructor ps =>
    rw [chars_destructor]
    exact parse_destructor owner.toWord ps lead hlead
  | method isStatic isConst d ps other =>
    have hother : some owner.text ≠ some d.name.text := by simpa using other.symm
    rw [chars_method]
    exact parse_declared d hother isStatic isConst ps lead hlead

end Member

end Members

section Bodies
variable {owner : Name} {current : Access} {previous : Option Char} {sofar : List Char}

/-- The characters the body of a class is written with. -/
def isBodyChar (c : Char) : Bool := isMemberChar c || c == ';'

theorem isBodyChar_of_isMemberChar {c : Char} (h : isMemberChar c) : isBodyChar c := by
  simp [isBodyChar, h]

theorem isBodyChar_ascii {c : Char} (h : isBodyChar c) : c.toNat < 128 := by
  rw [isBodyChar, Bool.or_eq_true, beq_iff_eq] at h
  rcases h with h | rfl
  · exact isMemberChar_ascii h
  · decide

theorem Section.isBodyChar_chars (s : Section owner) : ∀ c ∈ s.chars, isBodyChar c := by
  simp only [Section.chars, List.mem_flatMap, List.cons_append, List.mem_cons, List.mem_append,
    List.not_mem_nil, or_false]
  rintro c ⟨m, -, rfl | hc | rfl⟩
  · rfl
  · exact isBodyChar_of_isMemberChar (m.isMemberChar_chars c hc)
  · rfl

theorem Section.ascii (s : Section owner) : ∀ c ∈ s.chars, c.toNat < 128 := fun c hc =>
  isBodyChar_ascii (s.isBodyChar_chars c hc)

theorem Section.unlabelled (s : Section owner) : Unlabelled s.chars := by
  rw [Section.chars]
  induction s.members with
  | nil => exact unlabelled_nil
  | cons m ms ih =>
    rw [List.flatMap_cons, List.append_assoc, List.cons_append]
    exact .cons (by decide) (m.unlabelled.append_cons (by decide) ih)

theorem Section.ends (s : Section owner) : ∀ c ∈ s.chars.getLast?, isWord c = false := by
  rw [Section.chars]
  induction s.members with
  | nil => simp
  | cons m ms ih =>
    intro c hc
    rw [List.flatMap_cons, List.getLast?_append] at hc
    cases hlast : (ms.flatMap fun m => ' ' :: (m.declaration s.access).chars ++ [';']).getLast? with
    | none =>
      rw [hlast, Option.none_or, List.getLast?_concat] at hc
      cases hc
      decide
    | some d =>
      rw [hlast, Option.some_or] at hc
      exact ih c (hlast.trans hc)

/-- A body is cut into the part before its first label and one part for each section. -/
theorem sectionsFrom_sections (hprevious : previous.any isWordAnywhere = false)
    (ss : List (Section owner)) :
    sectionsFrom current previous sofar
        ((ss.flatMap fun s => ' ' :: s.access.keyword.toList ++ ':' :: s.chars) ++ [' ']) =
      (current, sofar.reverse ++ [' ']) :: ss.map fun s => (s.access, s.chars ++ [' ']) := by
  have hspace : Unlabelled [' '] := unlabelled_nil.cons (by decide)
  have hblank : ∀ {current previous sofar rest}, sectionsFrom current previous sofar (' ' :: rest) =
      sectionsFrom current (some ' ') (' ' :: sofar) rest :=
    sectionsFrom_append [' '] hspace (by simp [isWord])
  induction ss generalizing current previous sofar with
  | nil =>
    rw [List.flatMap_nil, List.nil_append, hblank, sectionsFrom]
    simp
  | cons s ss ih =>
    -- Whatever follows the label starts with a space.
    obtain ⟨rest, hrest⟩ : ∃ rest, s.chars ++
        ((ss.flatMap fun s => ' ' :: s.access.keyword.toList ++ ':' :: s.chars) ++ [' ']) =
          ' ' :: rest := by
      rw [Section.chars]
      cases s.members with
      | cons m ms => exact ⟨_, rfl⟩
      | nil =>
        cases ss with
        | nil => exact ⟨_, rfl⟩
        | cons t ss => exact ⟨_, rfl⟩
    have hafter : (s.chars.getLast?.or (some ':')).any isWordAnywhere = false := by
      cases hlast : s.chars.getLast? with
      | none => decide
      | some c =>
        have hword := isWordAnywhere_eq (s.ascii c (List.mem_of_getLast? hlast))
        simp [hword, s.ends c hlast]
    have hchars : (((s :: ss).flatMap fun s => ' ' :: s.access.keyword.toList ++ ':' :: s.chars) ++
        [' ']) = ' ' :: (s.access.keyword.toList ++ ':' :: ' ' :: rest) := by
      rw [← hrest]
      simp
    have hlabel := @sectionsFrom_label (' ' :: rest) (' ' :: sofar) current s.access (some ' ') []
      (by decide) (by simp) (by simp)
    rw [List.nil_append] at hlabel
    rw [hchars, hblank, hlabel, ← hrest,
      sectionsFrom_append _ s.unlabelled s.ends, ih hafter]
    simp

/-- A section is cut into its members. -/
theorem fields_section (s : Section owner) : fields (· == ';') (s.chars ++ [' ']) =
    (s.members.map fun m => ' ' :: (m.declaration s.access).chars) ++ [[' ']] := by
  rw [Section.chars]
  induction s.members with
  | nil => rfl
  | cons m ms ih =>
    have hmember : fields (· == ';') (' ' :: (m.declaration s.access).chars) =
        [' ' :: (m.declaration s.access).chars] := by
      refine fields_eq_singleton fun c hc => beq_eq_false_iff_ne.2 ?_
      rcases List.mem_cons.1 hc with rfl | hc
      · decide
      · exact ne_of_holds (m.isMemberChar_chars c hc) (by decide)
    rw [List.flatMap_cons, List.append_assoc, List.append_assoc, List.singleton_append,
      fields_append_cons (by simp), hmember, ih]
    rfl

/-- Reading a section declares its members one after the other. -/
theorem foldl_section (s : Section owner) (c : ClassModel) :
    (fields (· == ';') (s.chars ++ [' '])).foldl
        (fun c text => declare s.access c (parse (some owner.text) s.access text)) c =
      s.members.foldl (fun c m => declare s.access c (m.declaration s.access)) c := by
  have hparse : ∀ m : Member owner,
      parse (some owner.text) s.access (' ' :: (m.declaration s.access).chars) =
        m.declaration s.access := fun m => m.parse_chars [' '] (by simp [isBlank])
  rw [fields_section, List.foldl_append, List.foldl_map]
  simp only [hparse]
  rfl

/-- Reading the sections of a body declares all members one after the other. -/
theorem foldl_sections (current : Access) (ss : List (Section owner)) (c : ClassModel) :
    ((current, [' ']) :: ss.map fun s => (s.access, s.chars ++ [' '])).foldl
        (fun c (access, text) => (fields (· == ';') text).foldl
          (fun c text => declare access c (parse (some owner.text) access text)) c) c =
      (ss.flatMap fun s => s.members.map (s.access, ·)).foldl
        (fun c (access, m) => declare access c (m.declaration access)) c := by
  have hblank : (fields (· == ';') [' ']).foldl
      (fun c text => declare current c (parse (some owner.text) current text)) c = c := rfl
  simp only [List.foldl_cons, hblank, List.foldl_map, List.foldl_flatMap, foldl_section]

/-- What declaring members one after the other adds to a class. -/
theorem foldl_declare (ms : List (Access × Member owner)) (c : ClassModel) :
    ms.foldl (fun c (access, m) => declare access c (m.declaration access)) c =
      { c with
        methods := c.methods ++ ms.filterMap fun (access, m) => m.method? access
        memberVariables := c.memberVariables ++ ms.filterMap fun (_, m) => m.field?
        hasNonPublicDestructor := c.hasNonPublicDestructor ||
          ms.any fun (access, m) => m.isDestructor && access != .everyone
        declaredConstructors := c.declaredConstructors +
          (ms.filterMap fun (_, m) => m.constructor?).length } := by
  induction ms generalizing c with
  | nil => simp
  | cons e ms ih =>
    obtain ⟨access, m⟩ := e
    rw [List.foldl_cons, ih]
    cases m with
    | field d => simp [declare]
    | constructor ps => simp [declare, Nat.add_assoc, Nat.add_comm]
    | destructor ps => simp [declare, Bool.or_assoc]
    | method isStatic isConst d ps => simp [declare, Declared.function]

/-- A constructor without parameters can be called without arguments, and no other can. -/
theorem any_callable (ms : List (Access × Member owner)) :
    ((ms.filterMap fun (access, m) => m.method? access).filter (·.flags.isConstructor)).any
        (·.callableWithoutArguments) =
      (ms.filterMap fun (_, m) => m.constructor?).any (·.isEmpty) := by
  have hcallable : ∀ ps : List Declared,
      (ps.map Declared.parameter).all (·.hasDefault) = ps.isEmpty := by
    intro ps
    cases ps <;> simp [Declared.parameter]
  induction ms with
  | nil => rfl
  | cons e ms ih =>
    obtain ⟨access, m⟩ := e
    cases m with
    | field d => simpa using ih
    | constructor ps =>
      simpa [Method.callableWithoutArguments, hcallable] using congrArg (ps.isEmpty || ·) ih
    | destructor ps => simpa using ih
    | method isStatic isConst d ps => simpa [Declared.function] using ih

theorem ClassSyntax.isBodyChar_bodyChars (c : ClassSyntax) : ∀ x ∈ c.bodyChars, isBodyChar x := by
  have hkeyword : ∀ access : Access, ∀ x ∈ access.keyword.toList, isBodyChar x := by
    intro access x hx
    simp [isBodyChar, isMemberChar, isWord_keyword access x hx]
  simp only [ClassSyntax.bodyChars, List.mem_append, List.mem_flatMap, List.cons_append,
    List.mem_cons, List.not_mem_nil, or_false]
  rintro x (⟨s, -, rfl | hx | rfl | hx⟩ | rfl)
  · rfl
  · exact hkeyword s.access x hx
  · rfl
  · exact s.isBodyChar_chars x hx
  · rfl

/-- The body of a printed class gives back everything that the class declares. -/
theorem ClassSyntax.classModel_bodyChars (c : ClassSyntax) (scope : String) (header : SourceUnit) :
    classModel c.head c.bodyChars scope header = c.model scope header := by
  have hstrip : stripBodies c.bodyChars = c.bodyChars :=
    stripBodies_eq_self (not_mem_of_holds c.isBodyChar_bodyChars (by decide))
  have hsections : Header.sections .owner c.bodyChars =
      (.owner, [' ']) :: c.sections.map fun s => (s.access, s.chars ++ [' ']) :=
    sectionsFrom_sections Option.any_none c.sections
  have hfold := foldl_sections .owner c.sections
    { name := c.name.text, scope, bases := .ofList (c.bases.map TypeSyntax.text), methods := []
      memberVariables := [], hasDefaultConstructor := false, isAbstract := false, header
      isStruct := false }
  rw [foldl_declare] at hfold
  rw [ClassSyntax.head, classModel]
  simp only [hstrip, Bool.false_eq_true, if_false]
  rw [hsections, hfold]
  have hcount : ∀ ps : List (List Declared), (ps.length == 0) = ps.isEmpty := by
    intro ps
    cases ps <;> rfl
  simp only [ClassModel.constructors, List.nil_append, Nat.zero_add, Bool.false_or, any_callable,
    hcount]
  rfl

end Bodies

end TestSynth.Header
