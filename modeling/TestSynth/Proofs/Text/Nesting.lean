import Mathlib
import TestSynth.Proofs.Text.Words
/-!
Texts that the cuts at brackets, separators and marks pass over as a whole.
-/
namespace TestSynth.Text

/-- The characters of brackets. -/
def brackets : List Char := ['(', ')', '[', ']', '{', '}', '<', '>']

section AngleBrackets

/-- A character that is no bracket, no comma and no part of an arrow. -/
def isPlain (c : Char) : Bool :=
  !(['(', ')', '[', ']', '{', '}', '<', '>', ',', '-'].contains c)

/-- A text with its angle brackets in pairs and no other brackets. Commas stand between angle
brackets only, those around the text included if it is `inside` some. -/
inductive Nested : Bool → List Char → Prop
  | nil {inside} : Nested inside []
  | plain {inside c cs} : isPlain c → Nested inside cs → Nested inside (c :: cs)
  | comma {cs} : Nested true cs → Nested true (',' :: cs)
  | angles {inside a cs} : Nested true a → Nested inside cs →
      Nested inside ('<' :: a ++ '>' :: cs)

variable {a b cs rest : List Char} {previous : Option Char} {n : Nesting} {angles : Nat}
  {inside : Bool}

attribute [local simp] cutAtParen splitTopLevelFrom

theorem Nested.of_plain (h : ∀ c ∈ cs, isPlain c) : Nested inside cs := by
  induction cs with
  | nil => exact .nil
  | cons c cs ih =>
    rw [List.forall_mem_cons] at h
    exact .plain h.1 (ih h.2)

theorem Nested.append (ha : Nested inside a) (hb : Nested inside b) : Nested inside (a ++ b) := by
  induction ha with
  | nil => exact hb
  | plain hc _ ih => exact .plain hc (ih hb)
  | comma _ ih => exact .comma (ih hb)
  | angles h _ _ ih =>
    rw [List.append_assoc, List.cons_append]
    exact .angles h (ih hb)

theorem Nested.mono (h : Nested false a) : Nested true a := by
  generalize hi : false = inside at h
  induction h with
  | nil => exact .nil
  | plain hc _ ih => exact .plain hc (ih hi)
  | comma => cases hi
  | angles h _ _ ih => exact .angles h (ih hi)

/-- The character before the text matters for an arrow only. -/
theorem cutAtParen_previous (h : previous ≠ some '-') :
    cutAtParen angles previous cs = cutAtParen angles none cs := by
  cases cs with
  | nil => rfl
  | cons c cs =>
    rw [cutAtParen, cutAtParen]
    simp [h]

theorem splitTopLevelFrom_previous {p : Char → Bool} (h : previous ≠ some '-') :
    splitTopLevelFrom p n previous cs = splitTopLevelFrom p n none cs := by
  cases cs with
  | nil => rfl
  | cons c cs =>
    have hbracket : n.bracket? previous c = n.bracket? none c := by
      simp [Nesting.bracket?, h]
    rw [splitTopLevelFrom, splitTopLevelFrom, hbracket]

theorem bracket?_eq_none {c : Char} (h : c ∉ brackets) : n.bracket? previous c = none := by
  simp only [brackets, List.mem_cons, List.not_mem_nil, or_false, not_or] at h
  simp [Nesting.bracket?, h]

theorem bracket?_comma : n.bracket? previous ',' = none := bracket?_eq_none (by decide)

theorem bracket?_of_isPlain {c : Char} (h : isPlain c) : n.bracket? previous c = none := by
  simp only [isPlain, Bool.not_eq_true', List.contains_eq_mem, List.mem_cons,
    decide_eq_false_iff_not, not_or] at h
  exact bracket?_eq_none (by simp [brackets, h])

theorem isPlain_of_isWord {c : Char} (h : isWord c) : isPlain c := by
  have hmarks : ∀ d ∈ ['(', ')', '[', ']', '{', '}', '<', '>', ',', '-'], isWord d = false := by
    simp [isWord]
  rw [isPlain, Bool.not_eq_true', Bool.eq_false_iff, ne_eq, List.contains_iff_mem]
  intro hmem
  simp [hmarks c hmem] at h

/-- No parenthesis stands outside the angle brackets of a nested text. -/
theorem Nested.cutAtParen (h : Nested inside cs) (rest : List Char) :
    cutAtParen angles none (cs ++ rest) =
      (cutAtParen angles none rest).map fun (before, after) => (cs ++ before, after) := by
  induction h generalizing angles rest with
  | nil => simp
  | @plain inside c cs hc _ ih =>
    have hparen := ne_of_holds (d := '(') hc (by decide)
    have hopen := ne_of_holds (d := '<') hc (by decide)
    have hclose := ne_of_holds (d := '>') hc (by decide)
    have harrow : some c ≠ some '-' := by simpa using ne_of_holds (d := '-') hc (by decide)
    simp [hparen, hopen, hclose, cutAtParen_previous harrow, ih,
      Function.comp_def]
  | comma _ ih =>
    have harrow : some ',' ≠ some '-' := by decide
    simp [cutAtParen_previous harrow, ih, Function.comp_def]
  | angles _ _ iha ih =>
    have hopen : some '<' ≠ some '-' := by decide
    have hclose : some '>' ≠ some '-' := by decide
    simp [cutAtParen_previous hopen, cutAtParen_previous hclose, iha, ih,
      Function.comp_def]

theorem splitTopLevelFrom_ne_nil (p : Char → Bool) (n : Nesting) (previous : Option Char)
    (cs : List Char) : splitTopLevelFrom p n previous cs ≠ [] := by
  have hcons : ∀ (c : Char) (pieces : List (List Char)), consFirst c pieces ≠ [] := by
    intro c pieces
    cases pieces <;> simp [consFirst]
  cases cs with
  | nil => simp
  | cons c cs =>
    rw [splitTopLevelFrom]
    split
    · exact hcons _ _
    · split
      · simp
      · exact hcons _ _

theorem foldr_consFirst_cons (a p : List Char) (ps : List (List Char)) :
    a.foldr consFirst (p :: ps) = (a ++ p) :: ps := by
  induction a with
  | nil => rfl
  | cons c a ih => rw [List.foldr_cons, ih, consFirst, List.cons_append]

theorem foldr_consFirst {pieces : List (List Char)} :
    cs.foldr consFirst ([] :: pieces) = cs :: pieces := by
  rw [foldr_consFirst_cons, List.append_nil]

/-- No comma stands outside the angle brackets of a nested text. -/
theorem Nested.splitTopLevelFrom (h : Nested inside cs) (n : Nesting) (rest : List Char)
    (hinside : inside → n.angles ≠ 0) :
    splitTopLevelFrom (· == ',') n none (cs ++ rest) =
      cs.foldr consFirst (splitTopLevelFrom (· == ',') n none rest) := by
  induction h generalizing n rest with
  | nil => rfl
  | @plain inside c cs hc _ ih =>
    have hcomma := ne_of_holds (d := ',') hc (by decide)
    have harrow := ne_of_holds (d := '-') hc (by decide)
    rw [List.cons_append, Text.splitTopLevelFrom, bracket?_of_isPlain hc]
    simp only [beq_eq_false_iff_ne.2 hcomma, Bool.false_and, Bool.false_eq_true, if_false,
      List.foldr_cons]
    rw [splitTopLevelFrom_previous (by simpa using harrow), ih _ _ hinside]
  | @comma cs _ ih =>
    have hopen : n.isClosed = false := by
      simp [Nesting.isClosed, hinside rfl]
    rw [List.cons_append, Text.splitTopLevelFrom, bracket?_comma]
    simp only [hopen, Bool.and_false, Bool.false_eq_true, if_false, List.foldr_cons]
    rw [splitTopLevelFrom_previous (by decide), ih _ _ hinside]
  | @angles inside a cs _ _ iha ih =>
    have hopen : n.bracket? none '<' = some { n with angles := n.angles + 1 } := rfl
    have hclose : Nesting.bracket? { n with angles := n.angles + 1 } none '>' = some n := rfl
    rw [List.append_assoc, List.cons_append, Text.splitTopLevelFrom, hopen]
    simp only [List.foldr_cons, List.foldr_append, List.cons_append]
    rw [splitTopLevelFrom_previous (by decide), iha _ _ (by simp), Text.splitTopLevelFrom, hclose]
    simp only
    rw [splitTopLevelFrom_previous (by decide), ih _ _ hinside]

theorem Nested.splitTopLevelFrom_comma (h : Nested false cs) :
    Text.splitTopLevelFrom (· == ',') {} none (cs ++ ',' :: rest) =
      cs :: Text.splitTopLevelFrom (· == ',') {} none rest := by
  have hcomma : Text.splitTopLevelFrom (· == ',') {} none (',' :: rest) =
      [] :: Text.splitTopLevelFrom (· == ',') {} none rest := by
    rw [Text.splitTopLevelFrom, bracket?_comma]
    simp only [beq_self_eq_true, Bool.true_and]
    rw [if_pos (by decide), splitTopLevelFrom_previous (by decide)]
  rw [h.splitTopLevelFrom {} _ (by simp), hcomma, foldr_consFirst]

theorem joinWith_cons_cons {sep p : List Char} {c : Char} {ps : List (List Char)} :
    joinWith sep ((c :: p) :: ps) = c :: joinWith sep (p :: ps) := by
  cases ps <;> rfl

/-- The pieces of a list written with `, ` are its items, all but the first after a space. -/
theorem splitTopLevel_joinWith {p : List Char} {ps : List (List Char)} (hp : Nested false p)
    (hps : ∀ q ∈ ps, Nested false q) :
    splitTopLevel ',' (joinWith [',', ' '] (p :: ps)) = p :: ps.map (' ' :: ·) := by
  induction ps generalizing p with
  | nil =>
    have h := hp.splitTopLevelFrom {} [] (by simp)
    rw [List.append_nil, Text.splitTopLevelFrom, foldr_consFirst] at h
    exact h
  | cons q ps ih =>
    rw [List.forall_mem_cons] at hps
    have hjoin : joinWith [',', ' '] (p :: q :: ps) =
        p ++ ',' :: joinWith [',', ' '] ((' ' :: q) :: ps) := by
      rw [joinWith_cons_cons]
      simp [joinWith]
    rw [splitTopLevel, hjoin, hp.splitTopLevelFrom_comma]
    exact congrArg (p :: ·) (ih (.plain (by decide) hps.1) hps.2)

end AngleBrackets

section Groups
variable {opening closing x : Char} {depth : Nat} {a pat cs inside rest : List Char} {c : Char}

theorem splitGroup_append {α : Type} [BEq α] [LawfulBEq α] {opening closing : α} {depth : Nat}
    {rest : List α} (cs : List α) (h : ∀ c ∈ cs, c ≠ opening ∧ c ≠ closing) :
    splitGroup opening closing depth (cs ++ rest) =
      (splitGroup opening closing depth rest).map fun (inside, after) => (cs ++ inside, after) := by
  induction cs with
  | nil => simp
  | cons c cs ih =>
    rw [List.forall_mem_cons] at h
    cases depth <;> simp [splitGroup, h.1, ih h.2, Function.comp_def]

/-- A group ends at its first closing bracket if nothing opens in it. -/
theorem splitGroup_close (h : ∀ c ∈ cs, c ≠ opening ∧ c ≠ closing) (hne : opening ≠ closing) :
    splitGroup opening closing 0 (cs ++ closing :: rest) = some (cs, rest) := by
  rw [splitGroup_append cs h]
  simp [splitGroup, hne.symm]

/-- A group inside another is passed over. -/
theorem splitGroup_group (h : ∀ c ∈ cs, c ≠ opening ∧ c ≠ closing) (hne : opening ≠ closing) :
    splitGroup opening closing depth (opening :: cs ++ closing :: rest) =
      (splitGroup opening closing depth rest).map fun (inside, after) =>
        (opening :: cs ++ closing :: inside, after) := by
  cases depth <;> simp [splitGroup, splitGroup_append cs h, hne.symm, Function.comp_def]

theorem stripBodies_cons (h : c ≠ '{') : stripBodies (c :: cs) = c :: stripBodies cs := by
  rw [stripBodies, if_neg (by simpa using h)]

theorem stripBodies_eq_self (h : '{' ∉ cs) : stripBodies cs = cs := by
  induction cs with
  | nil => simp [stripBodies]
  | cons c cs ih =>
    rw [List.mem_cons, not_or] at h
    rw [stripBodies_cons (Ne.symm h.1), ih h.2]

theorem stripBodies_append_of_not_mem {a : List Char} (h : '{' ∉ a) (b : List Char) :
    stripBodies (a ++ b) = a ++ stripBodies b := by
  induction a with
  | nil => rfl
  | cons c a ih =>
    rw [List.mem_cons, not_or] at h
    rw [List.cons_append, stripBodies_cons (Ne.symm h.1), ih h.2, List.cons_append]

theorem cutAt_eq_none {x : Char} {pat : List Char} (h : x ∉ cs) : cutAt (x :: pat) cs = none := by
  induction cs with
  | nil => rfl
  | cons c cs ih =>
    rw [List.mem_cons, not_or] at h
    simp [cutAt, ih h.2, h.1]

theorem cutAt_length {before after : List Char} (h : cutAt pat cs = some (before, after)) :
    before.length + pat.length + after.length = cs.length := by
  induction cs generalizing before with
  | nil =>
    rw [cutAt] at h
    split at h
    · next hpat =>
      cases h
      rw [List.isEmpty_iff.1 hpat]
      rfl
    · cases h
  | cons c cs ih =>
    rw [cutAt] at h
    split at h
    · next hpat =>
      cases h
      have hlength := (List.isPrefixOf_iff_prefix.1 hpat).length_le
      simp only [List.length_nil, List.length_drop]
      omega
    · obtain ⟨cut, hcut, heq⟩ := Option.map_eq_some_iff.1 h
      cases heq
      have hlength := ih hcut
      simp only [List.length_cons]
      omega

/-- A text without the first character of what is looked for is passed over. -/
theorem cutAt_append (h : c ∉ a) (b : List Char) :
    cutAt (c :: pat) (a ++ b) = (cutAt (c :: pat) b).map fun cut => (a ++ cut.1, cut.2) := by
  induction a with
  | nil => simp
  | cons d a ih =>
    rw [List.mem_cons, not_or] at h
    have hne : (c == d) = false := by simpa using h.1
    rw [List.cons_append, cutAt, List.isPrefixOf_cons_cons, hne, Bool.false_and, if_neg (by simp),
      ih h.2, Option.map_map]
    rfl

/-- A text contains what is a part of it. -/
theorem containsText_iff {pat : List Char} : containsText pat cs ↔ pat <:+: cs := by
  rw [containsText]
  induction cs with
  | nil => simp [cutAt, List.isEmpty_iff]
  | cons c cs ih =>
    rw [cutAt, List.infix_cons_iff, ← ih, ← List.isPrefixOf_iff_prefix]
    split
    · next hfits => simp [hfits]
    · next hfits => simp [hfits]

theorem cutAtLast_eq_none {x : Char} {pat : List Char} (h : x ∉ cs) :
    cutAtLast (x :: pat) cs = none := by
  induction cs with
  | nil => rfl
  | cons c cs ih =>
    rw [List.mem_cons, not_or] at h
    simp [cutAtLast, ih h.2, h.1]

theorem cutAtLast_eq_none_iff : cutAtLast [c] cs = none ↔ c ∉ cs := by
  constructor
  · intro h
    induction cs with
    | nil => simp
    | cons d cs ih =>
      rw [cutAtLast] at h
      split at h
      · cases h
      · simp_all
  · exact cutAtLast_eq_none

theorem cutAtLast_append_cons (a : List Char) {b : List Char} (h : c ∉ b) :
    cutAtLast [c] (a ++ c :: b) = some (a, b) := by
  induction a with
  | nil => simp [cutAtLast, cutAtLast_eq_none h]
  | cons d a ih => rw [List.cons_append, cutAtLast, ih]

end Groups

section Infixes
variable {pat a b cs : List Char} {c : Char}

/-- What lacks a character does not reach over it. -/
theorem prefix_append_cons (hc : c ∉ pat) : pat <+: a ++ c :: b ↔ pat <+: a := by
  refine ⟨fun h => ?_, fun h => h.trans (List.prefix_append _ _)⟩
  rcases List.prefix_or_prefix_of_prefix h (List.prefix_append a (c :: b)) with h' | ⟨rest, rfl⟩
  · exact h'
  · rw [List.prefix_append_right_inj] at h
    cases rest with
    | nil => rw [List.append_nil]
    | cons e rest =>
      obtain ⟨rfl, -⟩ := List.cons_prefix_cons.1 h
      exact absurd (List.mem_append_right _ List.mem_cons_self) hc

/-- What lacks a character stands on one side of it. -/
theorem infix_append_cons (hc : c ∉ pat) (hne : pat ≠ []) :
    pat <:+: a ++ c :: b ↔ pat <:+: a ∨ pat <:+: b := by
  induction a with
  | nil =>
    have hprefix : ¬ pat <+: c :: b := fun h =>
      hne (List.prefix_nil.1 ((@prefix_append_cons pat [] b c hc).1 h))
    simp [List.infix_cons_iff, hprefix, hne]
  | cons d a ih =>
    rw [List.cons_append, List.infix_cons_iff, List.infix_cons_iff, ← List.cons_append,
      prefix_append_cons hc, ih, or_assoc]

end Infixes

section LastOccurrence
variable {a cs before after pat : List Char}

theorem cutAtLast_eq_append (h : cutAtLast pat cs = some (before, after)) :
    cs = before ++ pat ++ after := by
  induction cs generalizing before with
  | nil =>
    unfold cutAtLast at h
    split at h
    · next hpat =>
      cases h
      simpa using hpat
    · cases h
  | cons d cs ih =>
    unfold cutAtLast at h
    split at h
    · next hcut =>
      cases h
      rw [ih hcut]
      rfl
    · split at h
      · next hpat =>
        cases h
        obtain ⟨rest, hrest⟩ := List.isPrefixOf_iff_prefix.1 hpat
        rw [← hrest, List.drop_left]
        rfl
      · cases h

theorem cutAtLast_of_suffix (hsuffix : a <:+ cs) (h : cutAtLast pat cs = none) :
    cutAtLast pat a = none := by
  obtain ⟨lead, rfl⟩ := hsuffix
  induction lead with
  | nil => exact h
  | cons c lead ih =>
    refine ih ?_
    rw [List.cons_append, cutAtLast] at h
    split at h
    · cases h
    · next hnone => exact hnone

/-- Behind its last occurrence a text has no other one. -/
theorem cutAtLast_after (hpat : pat ≠ []) (h : cutAtLast pat cs = some (before, after)) :
    cutAtLast pat after = none := by
  induction cs generalizing before with
  | nil =>
    rw [cutAtLast, if_neg (by simpa using hpat)] at h
    cases h
  | cons c cs ih =>
    rw [cutAtLast] at h
    split at h
    · next hcut =>
      cases h
      exact ih hcut
    · next hnone =>
      split at h
      · cases h
        obtain ⟨d, pat, rfl⟩ := List.exists_cons_of_ne_nil hpat
        exact cutAtLast_of_suffix (List.drop_suffix pat.length cs) hnone
      · cases h

end LastOccurrence

section Braces
variable {depth : Nat} {a b cs inside rest : List Char} {c opening closing : Char}

attribute [local simp] openBraces

theorem openBraces_cons (hopen : c ≠ '{') (hclose : c ≠ '}') :
    openBraces depth (c :: cs) = openBraces depth cs := by
  rw [openBraces]
  · exact hopen
  · exact fun _ => hclose
  · exact fun _ _ => hclose

/-- A brace group goes on behind a character at another depth. -/
def consInside (c : Char) (cut : List Char × List Char) : List Char × List Char :=
  (c :: cut.1, cut.2)

theorem splitGroup_cons_open : splitGroup opening closing depth (opening :: cs) =
    (splitGroup opening closing (depth + 1) cs).map (consInside opening) := by
  have hinside : ∀ cut : List Char × List Char,
      (opening :: cut.1, cut.2) = consInside opening cut := fun _ => rfl
  cases depth <;> simp [splitGroup, hinside]

theorem splitGroup_cons_close (hne : opening ≠ closing) :
    splitGroup opening closing (depth + 1) (closing :: cs) =
      (splitGroup opening closing depth cs).map (consInside closing) := by
  have hinside : ∀ cut : List Char × List Char,
      (closing :: cut.1, cut.2) = consInside closing cut := fun _ => rfl
  simp [splitGroup, hne.symm, hinside]

theorem splitGroup_cons_other (hopen : c ≠ opening) (hclose : c ≠ closing) :
    splitGroup opening closing depth (c :: cs) =
      (splitGroup opening closing depth cs).map (consInside c) := by
  have hinside : ∀ cut : List Char × List Char, (c :: cut.1, cut.2) = consInside c cut :=
    fun _ => rfl
  cases depth <;> simp [splitGroup, hopen, hclose, hinside]

/-- A group is closed by the first brace that no brace of its inside needs. -/
theorem splitGroup_braces_iff :
    splitGroup '{' '}' depth cs = some (inside, rest) ↔
      cs = inside ++ '}' :: rest ∧ openBraces depth inside = some 0 := by
  have hbraces : '{' ≠ '}' := by decide
  constructor
  · intro h
    induction cs generalizing depth inside with
    | nil => cases h
    | cons c cs ih =>
      have hstep : ∀ {d}, (splitGroup '{' '}' d cs).map (consInside c) = some (inside, rest) →
          (∀ xs, openBraces depth (c :: xs) = openBraces d xs) →
          c :: cs = inside ++ '}' :: rest ∧ openBraces depth inside = some 0 := by
        intro d heq hbraces
        obtain ⟨⟨i, r⟩, hcut, hpair⟩ := Option.map_eq_some_iff.1 heq
        cases hpair
        obtain ⟨rfl, hopen⟩ := ih hcut
        exact ⟨rfl, (hbraces _).trans hopen⟩
      rcases eq_or_ne c '{' with rfl | hopen
      · exact hstep (splitGroup_cons_open ▸ h) fun _ => by rw [openBraces]
      · rcases eq_or_ne c '}' with rfl | hclose
        · cases depth with
          | zero =>
            cases h
            exact ⟨rfl, rfl⟩
          | succ depth =>
            exact hstep (splitGroup_cons_close hbraces ▸ h) fun _ => by rw [openBraces]
        · exact hstep (splitGroup_cons_other hopen hclose ▸ h) fun _ =>
            openBraces_cons hopen hclose
  · rintro ⟨rfl, h⟩
    fun_induction openBraces depth inside with
    | case1 depth =>
      cases h
      rfl
    | case2 depth cs ih =>
      rw [List.cons_append, splitGroup_cons_open, ih h]
      rfl
    | case3 => cases h
    | case4 depth cs ih =>
      rw [List.cons_append, splitGroup_cons_close hbraces, ih h]
      rfl
    | case5 depth c cs hopen hzero hsucc ih =>
      have hclose : c ≠ '}' := by
        cases depth with
        | zero => exact hzero rfl
        | succ depth => exact hsucc depth rfl
      rw [List.cons_append, splitGroup_cons_other hopen hclose, ih h]
      rfl

theorem splitGroup_of_balanced (h : bracesBalanced inside) (rest : List Char) :
    splitGroup '{' '}' 0 (inside ++ '}' :: rest) = some (inside, rest) :=
  splitGroup_braces_iff.2 ⟨rfl, by simpa [bracesBalanced] using h⟩

/-- Where all braces are closed in the end, the innermost open group is closed. -/
theorem splitGroup_of_openBraces (h : openBraces (depth + 1) cs = some 0) :
    ∃ inside rest, splitGroup '{' '}' depth cs = some (inside, rest) ∧
      openBraces 0 rest = some 0 := by
  simp only [splitGroup_braces_iff]
  induction cs generalizing depth with
  | nil => cases h
  | cons c cs ih =>
    have hstep : ∀ {d}, openBraces (d + 1) cs = some 0 →
        (∀ xs, openBraces depth (c :: xs) = openBraces d xs) →
        ∃ inside rest, (c :: cs = inside ++ '}' :: rest ∧ openBraces depth inside = some 0) ∧
          openBraces 0 rest = some 0 := by
      rintro d hcs hbraces
      obtain ⟨i, r, ⟨rfl, hinside⟩, hrest⟩ := ih hcs
      exact ⟨c :: i, r, ⟨rfl, (hbraces i).trans hinside⟩, hrest⟩
    rcases eq_or_ne c '{' with rfl | hopen
    · exact hstep (by rwa [openBraces] at h) fun _ => by rw [openBraces]
    · rcases eq_or_ne c '}' with rfl | hclose
      · rw [openBraces] at h
        cases depth with
        | zero => exact ⟨[], cs, ⟨rfl, rfl⟩, h⟩
        | succ depth => exact hstep h fun _ => by rw [openBraces]
      · exact hstep (by rwa [openBraces_cons hopen hclose] at h) fun _ =>
          openBraces_cons hopen hclose

theorem openBraces_cases (c : Char) : c = '{' ∨ c = '}' ∨ c ≠ '{' ∧ c ≠ '}' := by
  by_cases hopen : c = '{'
  · exact .inl hopen
  · by_cases hclose : c = '}'
    · exact .inr (.inl hclose)
    · exact .inr (.inr ⟨hopen, hclose⟩)

theorem openBraces_append_bind (depth : Nat) (a b : List Char) :
    openBraces depth (a ++ b) = (openBraces depth a).bind (openBraces · b) := by
  induction a generalizing depth with
  | nil => simp [openBraces]
  | cons c a ih =>
    rw [List.cons_append]
    rcases openBraces_cases c with rfl | rfl | ⟨hopen, hclose⟩
    · rw [openBraces, openBraces, ih]
    · cases depth with
      | zero => simp [openBraces]
      | succ depth => rw [openBraces, openBraces, ih]
    · rw [openBraces_cons hopen hclose, openBraces_cons hopen hclose, ih]

/-- Braces that were open before the text stay open. -/
theorem openBraces_add {k : Nat} (h : openBraces depth cs = some k) (n : Nat) :
    openBraces (depth + n) cs = some (k + n) := by
  induction cs generalizing depth with
  | nil =>
    cases h
    rfl
  | cons c cs ih =>
    rcases openBraces_cases c with rfl | rfl | ⟨hopen, hclose⟩
    · rw [openBraces] at h ⊢
      rw [Nat.add_right_comm]
      exact ih h
    · cases depth with
      | zero => cases h
      | succ depth =>
        rw [openBraces] at h
        rw [Nat.add_right_comm, openBraces]
        exact ih h
    · rw [openBraces_cons hopen hclose] at h ⊢
      exact ih h

/-- What opens more braces than it closes is followed by what closes them. -/
theorem openBraces_append {k : Nat} (h : openBraces k a = some 0) (depth : Nat) (b : List Char) :
    openBraces (depth + k) (a ++ b) = openBraces depth b := by
  have hadd := openBraces_add h depth
  rw [Nat.zero_add] at hadd
  rw [openBraces_append_bind, Nat.add_comm, hadd, Option.bind_some]

theorem bracesBalanced_cons (hopen : c ≠ '{') (hclose : c ≠ '}') :
    bracesBalanced (c :: cs) = bracesBalanced cs := by
  rw [bracesBalanced, openBraces_cons hopen hclose, bracesBalanced]

theorem bracesBalanced_append (ha : bracesBalanced a) (b : List Char) :
    bracesBalanced (a ++ b) = bracesBalanced b := by
  have h := openBraces_append (by simpa [bracesBalanced] using ha) 0 b
  rw [bracesBalanced, bracesBalanced, h]

theorem bracesBalanced_block (hinside : bracesBalanced inside) (rest : List Char) :
    bracesBalanced ('{' :: (inside ++ '}' :: rest)) = bracesBalanced rest := by
  have h := openBraces_append (by simpa [bracesBalanced] using hinside) 1 ('}' :: rest)
  rw [bracesBalanced, openBraces, h, openBraces, bracesBalanced]

/-- A balanced text is empty, or begins with a group or another character before such a text. -/
@[elab_as_elim]
theorem balanced_induction {motive : List Char → Prop} (nil : motive [])
    (group : ∀ inside rest, bracesBalanced inside → bracesBalanced rest → motive rest →
      motive ('{' :: (inside ++ '}' :: rest)))
    (char : ∀ c cs, c ≠ '{' → c ≠ '}' → bracesBalanced cs → motive cs → motive (c :: cs))
    (h : bracesBalanced cs) : motive cs := by
  induction hn : cs.length using Nat.strong_induction_on generalizing cs with
  | _ n ih =>
    subst hn
    cases cs with
    | nil => exact nil
    | cons c cs =>
      rcases openBraces_cases c with rfl | rfl | ⟨hopen, hclose⟩
      · rw [bracesBalanced, beq_iff_eq, openBraces] at h
        obtain ⟨inside, rest, hcut, hrest⟩ := splitGroup_of_openBraces h
        have hlength := splitGroup_length hcut
        obtain ⟨rfl, hinside⟩ := splitGroup_braces_iff.1 hcut
        have hrest : bracesBalanced rest := by simpa [bracesBalanced] using hrest
        have hinside : bracesBalanced inside := by simpa [bracesBalanced] using hinside
        have hmotive := ih rest.length (by simp only [List.length_cons]; omega) hrest rfl
        exact group inside rest hinside hrest hmotive
      · cases h
      · rw [bracesBalanced_cons hopen hclose] at h
        exact char c cs hopen hclose h (ih cs.length (Nat.lt_succ_self _) h rfl)

end Braces

section Cuts
variable {σ : Type} {stops : σ → Char → Option Char → Bool} {next : σ → Char → σ} {s : σ}
  {a cs before after rest : List Char} {opening closing : Char}

/-- A cut at the first character that stops it, by what is kept of the characters before it and by
the character behind it. -/
def cutBy (stops : σ → Char → Option Char → Bool) (next : σ → Char → σ) :
    σ → List Char → Option (List Char × List Char)
  | _, [] => none
  | s, c :: cs =>
    if stops s c cs.head? then some ([], cs)
    else (cutBy stops next (next s c) cs).map (consInside c)

/-- What stands behind the cut does not move it. -/
theorem cutBy_append (h : cutBy stops next s cs = some (before, after))
    (hrest : ∀ s c, stops s c rest.head? = stops s c none) :
    cutBy stops next s (cs ++ rest) = some (before, after ++ rest) := by
  induction cs generalizing s before with
  | nil => cases h
  | cons c cs ih =>
    have hstops : stops s c (cs ++ rest).head? = stops s c cs.head? := by
      cases cs with
      | nil => exact hrest s c
      | cons d ds => rfl
    rw [cutBy] at h
    rw [List.cons_append, cutBy, hstops]
    split at h
    · next hstop =>
      cases h
      rw [if_pos hstop]
    · next hstop =>
      obtain ⟨⟨b, a⟩, hcut, hpair⟩ := Option.map_eq_some_iff.1 h
      cases hpair
      rw [if_neg hstop, ih hcut]
      rfl

/-- A text that is not cut is passed over. What follows may keep its last character from cutting,
and never makes it cut. -/
theorem cutBy_append_of_none (hlook : ∀ s c look, stops s c look → stops s c none)
    (h : cutBy stops next s a = none) (b : List Char) :
    cutBy stops next s (a ++ b) =
      (cutBy stops next (a.foldl next s) b).map fun cut => (a ++ cut.1, cut.2) := by
  induction a generalizing s with
  | nil => simp
  | cons c a ih =>
    rw [cutBy] at h
    split at h
    · cases h
    next hgoes =>
    have hstops : stops s c (a ++ b).head? = false := by
      cases a with
      | nil =>
        rw [Bool.eq_false_iff]
        exact fun hstop => hgoes (hlook s c _ hstop)
      | cons d a => simpa using hgoes
    rw [List.cons_append, cutBy, hstops, if_neg (by simp), ih (Option.map_eq_none_iff.1 h),
      Option.map_map]
    rfl

theorem cutBy_eq_append (h : cutBy stops next s cs = some (before, after)) :
    ∃ c, cs = before ++ c :: after ∧ ∃ t look, stops t c look := by
  induction cs generalizing s before with
  | nil => cases h
  | cons c cs ih =>
    rw [cutBy] at h
    split at h
    · next hstop =>
      cases h
      exact ⟨c, rfl, s, _, hstop⟩
    · obtain ⟨⟨inside, rest⟩, hcut, hpair⟩ := Option.map_eq_some_iff.1 h
      cases hpair
      obtain ⟨d, rfl, hstop⟩ := ih hcut
      exact ⟨d, rfl, hstop⟩

/-- What is known of the open groups before a character. -/
def groupNext (opening closing : Char) (depth : Nat) (c : Char) : Nat :=
  if c == opening then depth + 1 else if c == closing then depth - 1 else depth

def groupStops (closing : Char) (depth : Nat) (c : Char) (_ : Option Char) : Bool :=
  c == closing && depth == 0

theorem splitGroup_eq_cutBy (hne : opening ≠ closing) (depth : Nat) (cs : List Char) :
    splitGroup opening closing depth cs =
      cutBy (groupStops closing) (groupNext opening closing) depth cs := by
  induction cs generalizing depth with
  | nil => rfl
  | cons c cs ih =>
    rcases eq_or_ne c opening with rfl | hopen
    · rw [splitGroup_cons_open, ih]
      simp [cutBy, groupStops, groupNext, hne]
    · rcases eq_or_ne c closing with rfl | hclose
      · cases depth with
        | zero => simp [splitGroup, cutBy, groupStops, hopen]
        | succ depth =>
          rw [splitGroup_cons_close hne, ih]
          simp [cutBy, groupStops, groupNext, hopen]
      · rw [splitGroup_cons_other hopen hclose, ih]
        simp [cutBy, groupStops, groupNext, hopen, hclose]

def parenNext (s : Nat × Bool) (c : Char) : Nat × Bool :=
  (if c == '<' then s.1 + 1 else if c == '>' && !s.2 then s.1 - 1 else s.1, c == '-')

def parenStops (s : Nat × Bool) (c : Char) (_ : Option Char) : Bool := c == '(' && s.1 == 0

theorem cutAtParen_eq_cutBy (angles : Nat) (previous : Option Char) (cs : List Char) :
    cutAtParen angles previous cs =
      cutBy parenStops parenNext (angles, previous == some '-') cs := by
  induction cs generalizing angles previous with
  | nil => rfl
  | cons c cs ih =>
    rw [cutAtParen, cutBy]
    simp only [ih]
    rfl

/-- A text that no parenthesis cuts stands before the cut of every longer one. -/
theorem cutAtParen_append {a b before rest : List Char} (ha : cutAtParen 0 none a = none)
    (h : cutAtParen 0 none (a ++ b) = some (before, rest)) :
    ∃ tail, before = a ++ tail ∧ b = tail ++ '(' :: rest := by
  rw [cutAtParen_eq_cutBy] at ha h
  generalize ((0 : Nat), (none : Option Char) == some '-') = s at ha h
  induction a generalizing s before with
  | nil =>
    obtain ⟨c, hb, t, look, hstop⟩ := cutBy_eq_append h
    obtain rfl : c = '(' := by
      rw [parenStops, Bool.and_eq_true, beq_iff_eq] at hstop
      exact hstop.1
    exact ⟨before, rfl, hb⟩
  | cons c a ih =>
    rw [cutBy] at ha
    rw [List.cons_append, cutBy] at h
    split at ha
    · cases ha
    · next hstop =>
      have hstop' : parenStops s c (a ++ b).head? = false := by
        simpa [parenStops] using hstop
      rw [hstop', if_neg Bool.false_ne_true] at h
      obtain ⟨⟨inside, rest⟩, hcut, hpair⟩ := Option.map_eq_some_iff.1 h
      cases hpair
      obtain ⟨tail, rfl, hb⟩ := ih _ (Option.map_eq_none_iff.1 ha) hcut
      exact ⟨tail, rfl, hb⟩

end Cuts

section Grouping

/-- A bracket with the one that closes it. -/
def groups : List (Char × Char) := [('(', ')'), ('[', ']'), ('{', '}'), ('<', '>')]

/-- Every bracket of the text is closed in its turn, and there are no arrows. -/
inductive Grouped : List Char → Prop
  | nil : Grouped []
  | char {c cs} : c ∉ brackets → Grouped cs → Grouped (c :: cs)
  | group {g a cs} : g ∈ groups → (g.2 = '>' → (g.1 :: a).getLast? ≠ some '-') → Grouped a →
    Grouped cs → Grouped (g.1 :: (a ++ g.2 :: cs))

variable {a b cs : List Char} {s : Nat × Bool} {next : Nat × Bool → Char → Nat × Bool}

theorem Grouped.of_plain (h : ∀ c ∈ cs, c ∉ brackets) : Grouped cs := by
  induction cs with
  | nil => exact .nil
  | cons c cs ih =>
    rw [List.forall_mem_cons] at h
    exact .char h.1 (ih h.2)

theorem Grouped.append (ha : Grouped a) (hb : Grouped b) : Grouped (a ++ b) := by
  induction ha with
  | nil => exact hb
  | char hc _ ih => exact .char hc ih
  | group hg hdash ha _ _ ih =>
    rw [List.cons_append, List.append_assoc, List.cons_append]
    exact .group hg hdash ha ih

/-- Some bracket is open before each character. -/
def Within (next : Nat × Bool → Char → Nat × Bool) : Nat × Bool → List Char → Prop
  | _, [] => True
  | s, c :: cs => 0 < s.1 ∧ Within next (next s c) cs

theorem within_append :
    Within next s (a ++ b) ↔ Within next s a ∧ Within next (a.foldl next s) b := by
  induction a generalizing s with
  | nil => simp [Within]
  | cons c a ih => simp [Within, ih, and_assoc]

theorem Within.cutBy_eq_none {stops : Nat × Bool → Char → Option Char → Bool}
    (h : Within next s cs) (hstops : ∀ s c look, stops s c look → s.1 = 0) :
    cutBy stops next s cs = none := by
  induction cs generalizing s with
  | nil => rfl
  | cons c cs ih =>
    rw [cutBy, if_neg fun hstop => h.1.ne' (hstops s c _ hstop), ih h.2]
    rfl

/-- A count of brackets that a closed group leaves as it was. -/
structure Counts (next : Nat × Bool → Char → Nat × Bool) : Prop where
  char : ∀ s, ∀ c ∉ brackets, (next s c).1 = s.1
  opens : ∀ s, ∀ g ∈ groups, s.1 ≤ (next s g.1).1
  closes : ∀ s t c, ∀ g ∈ groups, (g.2 = '>' → c ≠ '-') → (next t c).1 = (next s g.1).1 →
    (next (next t c) g.2).1 = s.1

/-- Inside a bracket a text whose brackets are all closed stays inside it. -/
theorem Grouped.within (hnext : Counts next) (h : Grouped cs) (hs : 0 < s.1) :
    Within next s cs ∧ (cs.foldl next s).1 = s.1 := by
  induction h generalizing s with
  | nil => exact ⟨trivial, rfl⟩
  | @char c cs hc _ ih =>
    have hcount := hnext.char s c hc
    obtain ⟨hwithin, hfold⟩ := @ih (next s c) (by omega)
    exact ⟨⟨hs, hwithin⟩, by rw [List.foldl_cons, hfold, hcount]⟩
  | @group g a cs hg hdash _ _ iha ih =>
    have hopens := hnext.opens s g hg
    obtain ⟨hinside, hfold⟩ := @iha (next s g.1) (by omega)
    -- The bracket is closed behind the last character of the group.
    obtain ⟨front, c, hsplit⟩ : ∃ front c, g.1 :: a = front ++ [c] :=
      ⟨_, _, (List.dropLast_append_getLast (List.cons_ne_nil g.1 a)).symm⟩
    have hlast : a.foldl next (next s g.1) = next (front.foldl next s) c := by
      have hwhole := congrArg (List.foldl next s) hsplit
      rwa [List.foldl_cons, List.foldl_append, List.foldl_cons, List.foldl_nil] at hwhole
    have hdash : g.2 = '>' → c ≠ '-' := by
      rintro hclose rfl
      have harrow := hdash hclose
      rw [hsplit] at harrow
      simp at harrow
    rw [hlast] at hfold
    have hcloses := hnext.closes s (front.foldl next s) c g hg hdash hfold
    obtain ⟨hbehind, hend⟩ :=
      @ih (next (next (front.foldl next s) c) g.2) (by omega)
    refine ⟨⟨hs, within_append.2 ⟨hinside, ?_⟩⟩, ?_⟩
    · rw [hlast]
      exact ⟨by omega, hbehind⟩
    · rw [List.foldl_cons, List.foldl_append, List.foldl_cons, hlast, hend, hcloses]

/-- Inside a bracket more angle brackets may be opened before a closed text. -/
theorem within_open (hnext : Counts next) (ha : ∀ c ∈ a, c = '<' ∨ c = '=') (hb : Grouped b)
    (hs : 0 < s.1) : Within next s (a ++ b) := by
  induction a generalizing s with
  | nil => exact (hb.within hnext hs).1
  | cons c a ih =>
    rw [List.forall_mem_cons] at ha
    have hraise : s.1 ≤ (next s c).1 := by
      rcases ha.1 with rfl | rfl
      · exact hnext.opens s ('<', '>') (by decide)
      · exact (hnext.char s '=' (by decide)).ge
    exact ⟨hs, ih ha.2 (by omega)⟩

theorem counts_parenNext : Counts parenNext where
  char s c hc := by
    simp only [brackets, List.mem_cons, List.not_mem_nil, not_or] at hc
    simp [parenNext, hc]
  opens s g hg := by
    simp only [groups, List.mem_cons, List.not_mem_nil, or_false] at hg
    rcases hg with rfl | rfl | rfl | rfl <;> simp [parenNext]
  closes s t c g hg hc h := by
    simp only [groups, List.mem_cons, List.not_mem_nil, or_false] at hg
    rcases hg with rfl | rfl | rfl | rfl
    · rw [parenNext, h]
      simp [parenNext]
    · rw [parenNext, h]
      simp [parenNext]
    · rw [parenNext, h]
      simp [parenNext]
    · have hdash : (parenNext t c).2 = false := by simpa [parenNext] using hc rfl
      rw [parenNext, h, hdash]
      simp [parenNext]

theorem angles_bracket? (n : Nesting) (previous : Option Char) (c : Char) :
    ((n.bracket? previous c).getD n).angles = (parenNext (n.angles, previous == some '-') c).1 := by
  have hother : ∀ d, c = d → d ≠ '<' → d ≠ '>' →
      (parenNext (n.angles, previous == some '-') c).1 = n.angles := by
    rintro d rfl hopen hclose
    simp [parenNext, hopen, hclose]
  unfold Nesting.bracket?
  split
  · next h =>
    simp only [Bool.or_eq_true, beq_iff_eq, or_assoc] at h
    rcases h with h | h | h <;> exact (hother _ h (by decide) (by decide)).symm
  · split
    · next h =>
      simp only [Bool.or_eq_true, beq_iff_eq, or_assoc] at h
      rcases h with h | h | h <;> exact (hother _ h (by decide) (by decide)).symm
    · by_cases hopen : c = '<'
      · simp [parenNext, hopen]
      · by_cases hclose : c = '>'
        · by_cases hdash : previous = some '-' <;> simp [parenNext, hclose, hdash]
        · simp [parenNext, hopen, hclose]

/-- Inside an angle bracket nothing is cut at a comma. -/
theorem splitTopLevelFrom_within {p : Char → Bool} {n : Nesting} {previous : Option Char}
    (h : Within parenNext (n.angles, previous == some '-') cs) :
    splitTopLevelFrom p n previous cs = [cs] := by
  induction cs generalizing n previous with
  | nil => rfl
  | cons c cs ih =>
    obtain ⟨hpos, hrest⟩ := h
    have hclosed : n.isClosed = false := by
      have hangles : n.angles ≠ 0 := hpos.ne'
      simp [Nesting.isClosed, hangles]
    have hnext : splitTopLevelFrom p ((n.bracket? previous c).getD n) (some c) cs = [cs] := by
      apply ih
      rw [angles_bracket?]
      exact hrest
    rw [splitTopLevelFrom]
    cases hbracket : n.bracket? previous c with
    | none =>
      rw [hbracket, Option.getD_none] at hnext
      simp only [hclosed, Bool.and_false, Bool.false_eq_true, if_false, hnext, consFirst]
    | some n' =>
      rw [hbracket, Option.getD_some] at hnext
      simp only [hnext, consFirst]

end Grouping

end TestSynth.Text
