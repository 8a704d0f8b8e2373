import Mathlib
import TestSynth.Declaration.Parameter
/-!
Cutting a text into fields, words and identifiers, and the texts that the normal spelling of
spaces leaves alone.
-/
namespace TestSynth.Text

section Characters
variable {p : Char → Bool} {c d : Char}

theorem ne_of_holds (hc : p c) (hd : p d = false) : c ≠ d := by
  rintro rfl
  simp [hd] at hc

theorem not_mem_of_holds {cs : List Char} (h : ∀ c ∈ cs, p c) (hd : p d = false) : d ∉ cs :=
  fun hmem => ne_of_holds (h d hmem) hd rfl

theorem isAlpha_range (h : c.isAlpha) :
    65 ≤ c.toNat ∧ c.toNat ≤ 90 ∨ 97 ≤ c.toNat ∧ c.toNat ≤ 122 := by
  simpa [Char.isAlpha, Char.isUpper, Char.isLower, UInt32.le_iff_toNat_le] using h

theorem isWord_range (h : isWord c) :
    48 ≤ c.toNat ∧ c.toNat ≤ 57 ∨ 65 ≤ c.toNat ∧ c.toNat ≤ 90 ∨ c.toNat = 95 ∨
      97 ≤ c.toNat ∧ c.toNat ≤ 122 := by
  simp only [isWord, Char.isAlphanum, Bool.or_eq_true, beq_iff_eq] at h
  rcases h with (h | h) | rfl
  · rcases isAlpha_range h with h | h <;> omega
  · have : 48 ≤ c.toNat ∧ c.toNat ≤ 57 := by
      simpa [Char.isDigit, UInt32.le_iff_toNat_le] using h
    omega
  · decide

theorem isBlank_of_isWord (h : isWord c) : isBlank c = false := by
  have := isWord_range h
  simp only [isBlank, Bool.or_eq_false_iff, Bool.and_eq_false_iff, decide_eq_false_iff_not,
    beq_eq_false_iff_ne]
  omega

theorem isWord_of_isBlank (h : isBlank c) : isWord c = false := by
  rw [Bool.eq_false_iff]
  exact fun hword => by cases h.symm.trans (isBlank_of_isWord hword)

theorem isWordAnywhere_of_isWord (h : isWord c) : isWordAnywhere c := by
  have := isWord_range h
  rw [isWordAnywhere, if_pos (by omega)]
  exact h

theorem isWord_of_isWordStart (h : isWordStart c) : isWord c := by
  simp only [isWordStart, isWord, Char.isAlphanum, Bool.or_eq_true] at h ⊢
  exact h.imp_left .inl

theorem isDigit_of_isWordStart (h : isWordStart c) : c.isDigit = false := by
  simp only [isWordStart, Bool.or_eq_true, beq_iff_eq] at h
  rcases h with h | rfl
  · have hrange := isAlpha_range h
    have hdigit : ¬ (48 ≤ c.toNat ∧ c.toNat ≤ 57) := by omega
    simpa [Char.isDigit, UInt32.le_iff_toNat_le] using hdigit
  · decide

theorem flipsInside_eq (flips : Array Nat) (point : Nat) : flipsInside flips point =
    flips.toList.foldl (fun inside flip => bif flip.ble point then !inside else inside) false := by
  simp [flipsInside, cond_eq_ite]

/-- Whether no flip lies behind the first point of a stretch and up to its last. -/
def flipless (flips : Array Nat) (stretch : Nat × Nat) : Bool :=
  flips.toList.all fun flip => flip.ble stretch.1 || stretch.2.blt flip

/-- All points of a stretch without flips are alike. -/
theorem flipsInside_of_flipless {flips : Array Nat} {stretch : Nat × Nat} {point : Nat}
    (h : flipless flips stretch) (hfirst : stretch.1 ≤ point) (hlast : point ≤ stretch.2) :
    flipsInside flips point = flipsInside flips stretch.1 := by
  rw [flipsInside_eq, flipsInside_eq]
  refine List.foldl_ext _ _ _ fun inside flip hflip => ?_
  have hsame : flip ≤ point ↔ flip ≤ stretch.1 := by
    have hout := List.all_eq_true.1 h flip hflip
    simp only [Bool.or_eq_true, Nat.ble_eq, Nat.blt_eq] at hout
    omega
  simp [cond_eq_ite, hsame]

/-- Stretches without flips that hold the blanks beyond ASCII. -/
def blankStretches : List (Nat × Nat) :=
  [(0x85, 0xa0), (0x1680, 0x1680), (0x2000, 0x200a), (0x2028, 0x202f), (0x205f, 0x205f),
    (0x3000, 0x3000)]

-- The table of flips is long, so the kernel goes through it once a stretch and not once a blank.
theorem flipless_blankStretches : ∀ stretch ∈ blankStretches,
    flipless wordFlips stretch ∧ flipsInside wordFlips stretch.1 = false := by
  simp only [flipsInside_eq]
  decide +kernel

/-- No blank is part of a word, in any script. -/
theorem isWordAnywhere_of_isBlank (h : isBlank c) : isWordAnywhere c = false := by
  rw [isWordAnywhere]
  split
  · exact isWord_of_isBlank h
  · have hstretch : ∃ s ∈ blankStretches, s.1 ≤ c.toNat ∧ c.toNat ≤ s.2 := by
      simp only [isBlank, Bool.or_eq_true, Bool.and_eq_true, decide_eq_true_eq, beq_iff_eq] at h
      simp only [blankStretches, List.exists_mem_cons_iff, List.not_mem_nil, false_and,
        exists_false]
      omega
    obtain ⟨s, hmem, hfirst, hlast⟩ := hstretch
    obtain ⟨hflipless, hinside⟩ := flipless_blankStretches s hmem
    rw [flipsInside_of_flipless hflipless hfirst hlast, hinside]

theorem isWordStart_of_isBlank (h : isBlank c) : isWordStart c = false := by
  rw [Bool.eq_false_iff]
  intro hc
  rw [isBlank_of_isWord (isWord_of_isWordStart hc)] at h
  cases h

theorem apart_of_isWordStart (h : isWordStart c) : c ≠ '*' ∧ c ≠ '&' ∧ c ≠ '>' :=
  ⟨ne_of_holds h (by decide), ne_of_holds h (by decide), ne_of_holds h (by decide)⟩

end Characters

section Fields
variable {p q : Char → Bool} {a b cs w : List Char} {c d : Char}

attribute [local simp] fields

theorem fields_ne_nil : fields p cs ≠ [] := by
  cases cs with
  | nil => simp
  | cons c cs =>
    rw [fields]
    split
    · simp
    · split <;> simp

theorem fields_eq_cons (p : Char → Bool) (cs : List Char) : ∃ f fs, fields p cs = f :: fs :=
  List.exists_cons_of_ne_nil fields_ne_nil

theorem fields_cons_of_pos (h : p c) : fields p (c :: cs) = [] :: fields p cs := by
  rw [fields, if_pos h]

theorem fields_cons_of_neg (cs : List Char) (h : p c = false) :
    ∃ f fs, fields p cs = f :: fs ∧ fields p (c :: cs) = (c :: f) :: fs := by
  obtain ⟨f, fs, hfs⟩ := fields_eq_cons p cs
  exact ⟨f, fs, hfs, by simp [h, hfs]⟩

/-- A separator cuts the fields on its two sides apart. -/
theorem fields_append_cons (h : p c) : fields p (a ++ c :: b) = fields p a ++ fields p b := by
  induction a with
  | nil => simp [h]
  | cons x a ih =>
    obtain ⟨f, fs, hfs⟩ := fields_eq_cons p a
    cases hx : p x <;> simp [hx, ih, hfs]

/-- A character that does not separate joins the fields on its two sides. -/
theorem fields_append_of_neg (h : p c = false) {f : List Char} {gs : List (List Char)}
    (a : List Char) (hb : fields p b = f :: gs) :
    ∃ fs l, fields p a = fs ++ [l] ∧ fields p (a ++ c :: b) = fs ++ (l ++ c :: f) :: gs := by
  induction a with
  | nil =>
    obtain ⟨f', gs', hfields, hcons⟩ := fields_cons_of_neg b h
    rw [hb] at hfields
    cases hfields
    exact ⟨[], [], rfl, hcons⟩
  | cons d a ih =>
    obtain ⟨fs, l, ha, hall⟩ := ih
    cases hd : p d with
    | true =>
      exact ⟨[] :: fs, l, by rw [fields_cons_of_pos hd, ha]; rfl,
        by rw [List.cons_append, fields_cons_of_pos hd, hall]; rfl⟩
    | false =>
      obtain ⟨f₁, gs₁, hfirst, hcons⟩ := fields_cons_of_neg a hd
      obtain ⟨f₂, gs₂, hsecond, hcons'⟩ := fields_cons_of_neg (a ++ c :: b) hd
      rw [List.cons_append, hcons, hcons']
      rw [hfirst] at ha
      rw [hsecond] at hall
      cases fs with
      | nil =>
        cases ha
        cases hall
        exact ⟨[], d :: l, rfl, rfl⟩
      | cons g fs =>
        cases ha
        cases hall
        exact ⟨(d :: f₁) :: fs, l, rfl, rfl⟩

theorem fields_eq_singleton (h : ∀ c ∈ cs, p c = false) : fields p cs = [cs] := by
  induction cs with
  | nil => rfl
  | cons c cs ih =>
    rw [List.forall_mem_cons] at h
    simp [h.1, ih h.2]

theorem apart_of_mem_fields (hw : w ∈ fields p cs) : ∀ c ∈ w, p c = false := by
  induction cs generalizing w with
  | nil =>
    cases List.mem_singleton.1 hw
    simp
  | cons c cs ih =>
    cases hc : p c with
    | true =>
      rw [fields_cons_of_pos hc] at hw
      rcases List.mem_cons.1 hw with rfl | hw
      · simp
      · exact ih hw
    | false =>
      obtain ⟨f, fs, hf, hcons⟩ := fields_cons_of_neg cs hc
      rw [hcons] at hw
      rw [hf] at ih
      rcases List.mem_cons.1 hw with rfl | hw
      · rw [List.forall_mem_cons]
        exact ⟨hc, ih List.mem_cons_self⟩
      · exact ih (List.mem_cons_of_mem _ hw)

theorem fields_head (p : Char → Bool) (cs : List Char) :
    ∃ fs, fields p cs = cs.takeWhile (!p ·) :: fs := by
  induction cs with
  | nil => exact ⟨[], rfl⟩
  | cons c cs ih =>
    obtain ⟨fs, hfs⟩ := ih
    cases h : p c with
    | true => exact ⟨fields p cs, by simp [h]⟩
    | false => exact ⟨fs, by simp [h, hfs]⟩

/-- Joined by their separator, the fields are the text. -/
theorem joinWith_fields (h : ∀ c ∈ cs, p c → c = d) : joinWith [d] (fields p cs) = cs := by
  induction cs with
  | nil => rfl
  | cons c cs ih =>
    rw [List.forall_mem_cons] at h
    have ih := ih h.2
    obtain ⟨f, fs, hfs⟩ := fields_eq_cons p cs
    rw [hfs] at ih
    cases hc : p c with
    | true =>
      obtain rfl := h.1 hc
      simp [hc, hfs, joinWith, ih]
    | false =>
      simp only [fields, hc, hfs]
      cases fs <;> simpa [joinWith] using ih

theorem forall_mem_joinWith {P : Char → Prop} {sep : List Char} {ws : List (List Char)}
    (hsep : ∀ c ∈ sep, P c) (hws : ∀ w ∈ ws, ∀ c ∈ w, P c) : ∀ c ∈ joinWith sep ws, P c := by
  induction ws with
  | nil => simp [joinWith]
  | cons w ws ih =>
    rw [List.forall_mem_cons] at hws
    cases ws with
    | nil => exact hws.1
    | cons v ws =>
      simp only [joinWith, List.forall_mem_append]
      exact ⟨⟨hws.1, hsep⟩, ih hws.2⟩

/-- With more separators, the first field and any other that hold none of them stay. The first one
is told apart from the others because it grows to the left. -/
theorem fields_agree (himp : ∀ c, p c → q c) {f g : List Char} {fs gs : List (List Char)}
    (hf : fields p cs = f :: fs) (hg : fields q cs = g :: gs) :
    ((∀ c ∈ f, q c = false) → f = g) ∧ ∀ w ∈ fs, (∀ c ∈ w, q c = false) → w ∈ gs := by
  induction cs generalizing f fs g gs with
  | nil =>
    cases hf
    cases hg
    simp
  | cons c cs ih =>
    obtain ⟨f', fs', hf'⟩ := fields_eq_cons p cs
    obtain ⟨g', gs', hg'⟩ := fields_eq_cons q cs
    obtain ⟨hhead, htail⟩ := ih hf' hg'
    cases hpc : p c with
    | true =>
      simp only [fields, hpc, himp c hpc, if_true, List.cons.injEq, hf', hg'] at hf hg
      obtain ⟨rfl, rfl⟩ := hf
      obtain ⟨rfl, rfl⟩ := hg
      refine ⟨fun _ => rfl, fun w hw hq => ?_⟩
      rcases List.mem_cons.1 hw with rfl | hw
      · exact hhead hq ▸ List.mem_cons_self
      · exact List.mem_cons_of_mem _ (htail w hw hq)
    | false =>
      simp only [fields, hpc, hf', Bool.false_eq_true, if_false, List.cons.injEq] at hf
      obtain ⟨rfl, rfl⟩ := hf
      cases hqc : q c with
      | true =>
        simp only [fields, hqc, hg', if_true, List.cons.injEq] at hg
        obtain ⟨rfl, rfl⟩ := hg
        refine ⟨fun h => ?_, fun w hw hq => List.mem_cons_of_mem _ (htail w hw hq)⟩
        rw [h c List.mem_cons_self] at hqc
        cases hqc
      | false =>
        simp only [fields, hqc, hg', Bool.false_eq_true, if_false, List.cons.injEq] at hg
        obtain ⟨rfl, rfl⟩ := hg
        refine ⟨fun h => ?_, htail⟩
        rw [hhead fun x hx => h x (List.mem_cons_of_mem _ hx)]

theorem mem_fields_of_imp (himp : ∀ c, p c → q c) (hw : w ∈ fields p cs)
    (hq : ∀ c ∈ w, q c = false) : w ∈ fields q cs := by
  obtain ⟨f, fs, hf⟩ := fields_eq_cons p cs
  obtain ⟨g, gs, hg⟩ := fields_eq_cons q cs
  obtain ⟨hhead, htail⟩ := fields_agree himp hf hg
  rw [hf] at hw
  rw [hg]
  rcases List.mem_cons.1 hw with rfl | hw
  · exact hhead hq ▸ List.mem_cons_self
  · exact List.mem_cons_of_mem _ (htail w hw hq)

end Fields

section Identifiers
variable {cs : List Char}

theorem isIdentifier_cons (h : isIdentifier cs) : ∃ c rest, cs = c :: rest ∧ isWordStart c := by
  cases cs with
  | nil => simp [isIdentifier] at h
  | cons c rest =>
    simp only [isIdentifier, Bool.and_eq_true] at h
    exact ⟨c, rest, rfl, h.1⟩

theorem isWord_of_mem_isIdentifier (h : isIdentifier cs) : ∀ c ∈ cs, isWord c := by
  cases cs with
  | nil => simp
  | cons c rest =>
    simp only [isIdentifier, Bool.and_eq_true, List.all_eq_true] at h
    exact List.forall_mem_cons.2 ⟨isWord_of_isWordStart h.1, h.2⟩

/-- Identifiers with colons between them. -/
def QualifiedName (cs : List Char) : Prop :=
  ∃ parts, parts ≠ [] ∧ (∀ w ∈ parts, isIdentifier w) ∧ cs = joinWith [':', ':'] parts

theorem QualifiedName.of_isIdentifier (h : isIdentifier cs) : QualifiedName cs :=
  ⟨[cs], by simp, by simpa using h, rfl⟩

theorem QualifiedName.isWord_or_colon (h : QualifiedName cs) : ∀ c ∈ cs, isWord c ∨ c = ':' := by
  obtain ⟨parts, -, hparts, rfl⟩ := h
  refine forall_mem_joinWith (by simp) fun w hw c hc => ?_
  exact .inl (isWord_of_mem_isIdentifier (hparts w hw) c hc)

theorem QualifiedName.not_mem (h : QualifiedName cs) {c : Char} (hword : isWord c = false)
    (hc : c ≠ ':') : c ∉ cs := fun hmem =>
  (h.isWord_or_colon c hmem).elim (fun hc => by simp [hword] at hc) hc

theorem QualifiedName.isBlank_eq_false (h : QualifiedName cs) : ∀ c ∈ cs, isBlank c = false :=
  fun c hc => by
    rcases h.isWord_or_colon c hc with hc | rfl
    · exact isBlank_of_isWord hc
    · decide

theorem QualifiedName.starts (h : QualifiedName cs) : ∃ c rest, cs = c :: rest ∧ isWordStart c := by
  obtain ⟨parts, hne, hparts, rfl⟩ := h
  obtain ⟨w, ws, rfl⟩ := List.exists_cons_of_ne_nil hne
  obtain ⟨c, rest, rfl, hc⟩ := isIdentifier_cons (hparts w List.mem_cons_self)
  cases ws with
  | nil => exact ⟨c, rest, rfl, hc⟩
  | cons v ws => exact ⟨c, _, rfl, hc⟩

end Identifiers

section Words
variable {a b cs : List Char} {c : Char}

@[simp] theorem words_nil : words [] = [] := rfl

theorem words_append_cons (h : isBlank c) : words (a ++ c :: b) = words a ++ words b := by
  rw [words, fields_append_cons h, List.filter_append]
  rfl

theorem words_cons (h : isBlank c) : words (c :: cs) = words cs := by
  simp [words, fields, h]

theorem normalizeSpaces_cons (h : isBlank c) : normalizeSpaces (c :: cs) = normalizeSpaces cs := by
  rw [normalizeSpaces, words_cons h, normalizeSpaces]

theorem words_eq_singleton (hne : cs ≠ []) (h : ∀ c ∈ cs, isBlank c = false) :
    words cs = [cs] := by
  simp [words, fields_eq_singleton h, hne]

theorem words_word_append {w : List Char} (hw : w ≠ []) (hsolid : ∀ c ∈ w, isBlank c = false)
    (hc : isBlank c) : words (w ++ c :: b) = w :: words b := by
  rw [words_append_cons hc, words_eq_singleton hw hsolid]
  rfl

theorem solid_of_mem_words {w : List Char} (hw : w ∈ words cs) :
    w ≠ [] ∧ ∀ c ∈ w, isBlank c = false := by
  obtain ⟨hw, hne⟩ := List.mem_filter.1 hw
  exact ⟨by simpa using hne, apart_of_mem_fields hw⟩

theorem mem_joinWith {w sep : List Char} {ws : List (List Char)} (hw : w ∈ ws) (hc : c ∈ w) :
    c ∈ joinWith sep ws := by
  induction ws with
  | nil => cases hw
  | cons v ws ih =>
    cases ws with
    | nil =>
      cases List.mem_singleton.1 hw
      exact hc
    | cons u ws =>
      rw [joinWith, List.mem_append]
      · rcases List.mem_cons.1 hw with rfl | hw
        · exact .inl (List.mem_append_left _ hc)
        · exact .inr (ih hw)
      · exact List.cons_ne_nil _ _

/-- A run of identifier characters between others is a token. -/
theorem mem_tokens {w : List Char} (ha : ∀ c ∈ a.getLast?, isWord c = false)
    (hw : ∀ c ∈ w, isWord c) (hb : ∀ c ∈ b.head?, isWord c = false) :
    w ∈ tokens (a ++ (w ++ b)) := by
  have hself : fields (!isWord ·) w = [w] := fields_eq_singleton fun c hc => by simp [hw c hc]
  have hfront : w ∈ tokens (w ++ b) := by
    cases b with
    | nil => simp [tokens, hself]
    | cons c b =>
      have hc : isWord c = false := hb c rfl
      simp [tokens, fields_append_cons, hc, hself]
  rcases List.eq_nil_or_concat' a with rfl | ⟨a, c, rfl⟩
  · exact hfront
  · have hc : isWord c = false := ha c (List.getLast?_concat ..)
    rw [List.append_assoc, List.singleton_append, tokens, fields_append_cons (by simp [hc])]
    exact List.mem_append_right _ hfront

/-- A token stands behind blanks as it stands by itself. -/
theorem mem_tokens_blanks_append {lead w : List Char} (hlead : ∀ c ∈ lead, isBlank c)
    (hw : w ≠ []) :
    w ∈ tokens (lead ++ cs) ↔ w ∈ tokens cs := by
  induction lead with
  | nil => rfl
  | cons c lead ih =>
    rw [List.forall_mem_cons] at hlead
    rw [List.cons_append, tokens, fields_cons_of_pos (by simp [isWord_of_isBlank hlead.1]),
      List.mem_cons, or_iff_right hw]
    exact ih hlead.2

/-- A word of identifier characters only is one of the identifiers of the text. -/
theorem mem_tokens_of_mem_words {w : List Char} (hw : w ∈ words cs) (hword : ∀ c ∈ w, isWord c) :
    w ∈ tokens cs := by
  refine mem_fields_of_imp (fun c hc => ?_) (List.mem_of_mem_filter hw) (by simpa using hword)
  cases h : isWord c with
  | true => simp [isBlank_of_isWord h] at hc
  | false => rfl

theorem words_append_blanks (hb : ∀ c ∈ b, isBlank c) : words (a ++ b) = words a := by
  cases b with
  | nil => rw [List.append_nil]
  | cons c b =>
    rw [List.forall_mem_cons] at hb
    rw [words_append_cons hb.1]
    have hnil : words b = [] := by
      induction b with
      | nil => rfl
      | cons d b ih =>
        rw [List.forall_mem_cons] at hb
        rw [words_cons hb.2.1, ih ⟨hb.1, hb.2.2⟩]
    rw [hnil, List.append_nil]

theorem words_blanks_append (ha : ∀ c ∈ a, isBlank c) : words (a ++ b) = words b := by
  induction a with
  | nil => rfl
  | cons c a ih =>
    rw [List.forall_mem_cons] at ha
    rw [List.cons_append, words_cons ha.1, ih ha.2]

theorem head?_append_holds {q : Char → Prop} (ha : ∀ c ∈ a.head?, q c)
    (hb : ∀ c ∈ b.head?, q c) : ∀ c ∈ (a ++ b).head?, q c := by
  cases a with
  | nil => exact hb
  | cons c a => exact ha

end Words

section Trimming
variable {p : Char → Bool} {a b cs lead : List Char}

/-- The last character of a text, or the one before the text. -/
theorem getLast?_cons_or {previous : Option Char} (c : Char) (cs : List Char) :
    ((c :: cs).getLast?).or previous = cs.getLast?.or (some c) := by
  cases cs <;> simp [List.getLast?_cons]

theorem dropEndWhile_eq_self (h : ∀ c ∈ cs.getLast?, p c = false) : dropEndWhile p cs = cs := by
  induction cs with
  | nil => rfl
  | cons c cs ih =>
    cases cs with
    | nil => simpa [dropEndWhile] using h
    | cons d ds =>
      rw [dropEndWhile, ih (by simpa using h)]

theorem dropEndWhile_eq_nil_iff : dropEndWhile p cs = [] ↔ ∀ c ∈ cs, p c := by
  induction cs with
  | nil => simp [dropEndWhile]
  | cons c cs ih =>
    rw [List.forall_mem_cons, dropEndWhile]
    split
    · next hnil => simp [← ih, hnil]
    · next hcons => simp [← ih, hcons]

theorem dropEndWhile_append_of_all (h : ∀ c ∈ b, p c) :
    dropEndWhile p (a ++ b) = dropEndWhile p a := by
  induction a with
  | nil => exact dropEndWhile_eq_nil_iff.2 h
  | cons c a ih => rw [List.cons_append, dropEndWhile, dropEndWhile, ih]

theorem dropEndWhile_append_of_ne_nil (h : dropEndWhile p b ≠ []) :
    dropEndWhile p (a ++ b) = a ++ dropEndWhile p b := by
  induction a with
  | nil => rfl
  | cons c a ih =>
    obtain ⟨d, ds, hcons⟩ := List.exists_cons_of_ne_nil
      (List.append_ne_nil_of_right_ne_nil a h)
    rw [List.cons_append, dropEndWhile, ih, hcons, List.cons_append, hcons]

theorem prefix_dropEndWhile (p : Char → Bool) (cs : List Char) : dropEndWhile p cs <+: cs := by
  induction cs with
  | nil => exact List.prefix_rfl
  | cons c cs ih =>
    rw [dropEndWhile]
    split
    · split
      · exact List.nil_prefix
      · exact ⟨cs, rfl⟩
    · next hcons => exact List.cons_prefix_cons.2 ⟨rfl, hcons ▸ ih⟩

/-- What satisfies `p` to the end is dropped down to the last character that does not. -/
theorem dropEndWhile_append (ha : ∀ c ∈ a.getLast?, p c = false) (hb : ∀ c ∈ b, p c) :
    dropEndWhile p (a ++ b) = a := by
  rw [dropEndWhile_append_of_all hb, dropEndWhile_eq_self ha]

theorem dropEndWhile_cons_ne_nil {c : Char} (h : p c = false) : dropEndWhile p (c :: cs) ≠ [] := by
  rw [dropEndWhile]
  split <;> simp [h]

theorem takeEndWhile_append (ha : ∀ c ∈ a.getLast?, p c = false) (hb : ∀ c ∈ b, p c) :
    takeEndWhile p (a ++ b) = b := by
  rw [takeEndWhile, List.reverse_append,
    List.takeWhile_append_of_pos fun c hc => hb c (List.mem_reverse.1 hc)]
  have hnil : a.reverse.takeWhile p = [] := by
    rw [← List.head?_reverse] at ha
    cases h : a.reverse with
    | nil => rfl
    | cons c cs =>
      have hc : p c = false := by simpa [h] using ha
      simp [hc]
  rw [hnil, List.append_nil, List.reverse_reverse]

theorem takeWhile_append_of_head (h : ∀ c ∈ b.head?, p c = false) :
    (a ++ b).takeWhile p = a.takeWhile p := by
  induction a with
  | nil =>
    cases b with
    | nil => rfl
    | cons c b =>
      have hc : p c = false := by simpa using h
      simp [hc]
  | cons c a ih => simp [List.takeWhile_cons, ih]

theorem takeWhile_append_of_mem {c : Char} (hmem : c ∈ a) (h : p c = false) :
    (a ++ b).takeWhile p = a.takeWhile p := by
  induction a with
  | nil => cases hmem
  | cons d a ih =>
    rw [List.cons_append, List.takeWhile_cons, List.takeWhile_cons]
    rcases List.mem_cons.1 hmem with rfl | hmem
    · simp [h]
    · rw [ih hmem]

theorem trimStart_eq_self (h : ∀ c ∈ cs.head?, isBlank c = false) : trimStart cs = cs := by
  cases cs with
  | nil => rfl
  | cons c cs =>
    have hc : isBlank c = false := by simpa using h
    simp [trimStart, hc]

theorem trimStart_append (hlead : ∀ c ∈ lead, isBlank c) (h : ∀ c ∈ cs.head?, isBlank c = false) :
    trimStart (lead ++ cs) = cs := by
  rw [trimStart, List.dropWhile_append_of_pos hlead]
  exact trimStart_eq_self h

theorem trimEnd_eq_self (h : ∀ c ∈ cs.getLast?, isBlank c = false) : trimEnd cs = cs :=
  dropEndWhile_eq_self h

theorem dropEndWhile_split (p : Char → Bool) (cs : List Char) :
    ∃ tail, cs = dropEndWhile p cs ++ tail ∧ (∀ c ∈ tail, p c) ∧
      ∀ c ∈ (dropEndWhile p cs).getLast?, p c = false := by
  induction cs with
  | nil => exact ⟨[], rfl, by simp, by simp [dropEndWhile]⟩
  | cons c cs ih =>
    obtain ⟨tail, hcs, htail, hlast⟩ := ih
    rw [dropEndWhile]
    cases hrest : dropEndWhile p cs with
    | nil =>
      rw [hrest, List.nil_append] at hcs
      cases hc : p c with
      | true => exact ⟨c :: tail, by simp [hcs], List.forall_mem_cons.2 ⟨hc, htail⟩, by simp⟩
      | false => exact ⟨tail, by simp [hcs], htail, by simp [hc]⟩
    | cons d ds =>
      rw [hrest] at hcs hlast
      exact ⟨tail, by simp [hcs], htail, by simpa using hlast⟩

theorem takeEndWhile_append_cons {c : Char} (h : p c = false) (a b : List Char) :
    takeEndWhile p (a ++ c :: b) = takeEndWhile p b ∧
      dropEndWhile p (a ++ c :: b) = a ++ c :: dropEndWhile p b := by
  obtain ⟨w, hsplit, hw, hlast⟩ := dropEndWhile_split p b
  have hfront : ∀ d ∈ (a ++ c :: dropEndWhile p b).getLast?, p d = false := by
    intro d hd
    rw [List.getLast?_append_of_ne_nil _ (List.cons_ne_nil _ _), List.getLast?_cons] at hd
    cases hend : (dropEndWhile p b).getLast? with
    | none =>
      rw [hend] at hd
      cases hd
      exact h
    | some e =>
      rw [hend] at hd
      cases hd
      exact hlast _ hend
  have hwhole : a ++ c :: b = (a ++ c :: dropEndWhile p b) ++ w := by
    rw [List.append_assoc, List.cons_append, ← hsplit]
  constructor
  · rw [hwhole, takeEndWhile_append hfront hw]
    conv_rhs => rw [hsplit, takeEndWhile_append hlast hw]
  · rw [hwhole, dropEndWhile_append hfront hw]

theorem takeEndWhile_append_of_getLast? (ha : ∀ c ∈ a.getLast?, p c = false) (b : List Char) :
    takeEndWhile p (a ++ b) = takeEndWhile p b ∧
      dropEndWhile p (a ++ b) = a ++ dropEndWhile p b := by
  rcases a.eq_nil_or_concat with rfl | ⟨front, c, rfl⟩
  · exact ⟨rfl, rfl⟩
  · have hc : p c = false := ha c (by simp)
    simpa using takeEndWhile_append_cons hc front b

/-- A text ends in no blank, or it is something with a blank behind. -/
theorem solid_or_blank (cs : List Char) :
    (∀ c ∈ cs.getLast?, isBlank c = false) ∨ ∃ front c, cs = front ++ [c] ∧ isBlank c := by
  rcases cs.eq_nil_or_concat with rfl | ⟨front, c, rfl⟩
  · exact .inl (by simp)
  · cases hc : isBlank c with
    | true => exact .inr ⟨front, c, by simp, hc⟩
    | false => exact .inl (by simpa using hc)

/-- Blanks stand around what trimming leaves, which starts and ends with none. -/
theorem trim_split (cs : List Char) : ∃ lead tail, cs = lead ++ trim cs ++ tail ∧
    (∀ c ∈ lead, isBlank c) ∧ (∀ c ∈ tail, isBlank c) ∧
    (∀ c ∈ (trim cs).head?, isBlank c = false) ∧ ∀ c ∈ (trim cs).getLast?, isBlank c = false := by
  obtain ⟨tail, hcs, htail, hlast⟩ := dropEndWhile_split isBlank (trimStart cs)
  refine ⟨cs.takeWhile isBlank, tail, ?_, fun c hc => List.mem_takeWhile_imp hc, htail, ?_, hlast⟩
  · rw [List.append_assoc, trim, trimEnd, ← hcs, trimStart, List.takeWhile_append_dropWhile]
  · intro c hc
    have hstart : c ∈ (trimStart cs).head? := by
      rw [hcs, List.head?_append]
      exact Option.mem_def.2 (by rw [← trimEnd, ← trim, Option.mem_def.1 hc]; rfl)
    have := List.head?_dropWhile_not isBlank cs
    rw [← trimStart, Option.mem_def.1 hstart] at this
    simpa using this

theorem trim_trim (cs : List Char) : trim (trim cs) = trim cs := by
  obtain ⟨-, -, -, -, -, hhead, hlast⟩ := trim_split cs
  rw [trim, trimStart_eq_self hhead, trimEnd_eq_self hlast]

end Trimming

section Spacing
variable {a b cs : List Char}

/-- Whether two characters may stand side by side in the normal spelling. -/
def fits (c d : Char) : Bool :=
  !(c == '<' && d == ' ') && !(c == ' ' && (d == ' ' || d == '*' || d == '&' || d == '>'))

/-- A text that the normal spelling of spaces leaves as it is. -/
structure Tidy (cs : List Char) : Prop where
  chain : cs.IsChain fun c d => fits c d
  blanks : ∀ c ∈ cs, isBlank c → c = ' '
  starts : ∀ c ∈ cs.head?, isBlank c = false
  ends : ∀ c ∈ cs.getLast?, isBlank c = false

theorem fits_of_not_isBlank {c d : Char} (hc : isBlank c = false) (hd : isBlank d = false) :
    fits c d := by
  have hc : c ≠ ' ' := by
    rintro rfl
    cases hc
  have hd : d ≠ ' ' := by
    rintro rfl
    cases hd
  simp [fits, hc, hd]

theorem Tidy.of_solid (h : ∀ c ∈ cs, isBlank c = false) : Tidy cs where
  chain := by
    induction cs with
    | nil => exact .nil
    | cons c cs ih =>
      rw [List.forall_mem_cons] at h
      rw [List.isChain_cons]
      exact ⟨fun d hd => fits_of_not_isBlank h.1 (h.2 d (List.mem_of_mem_head? hd)), ih h.2⟩
  blanks c hc hb := by simp [h c hc] at hb
  starts c hc := h c (List.mem_of_mem_head? hc)
  ends c hc := h c (List.mem_of_getLast? hc)

theorem Tidy.append (ha : Tidy a) (hb : Tidy b) : Tidy (a ++ b) where
  chain := List.isChain_append.2 ⟨ha.chain, hb.chain, fun c hc d hd =>
    fits_of_not_isBlank (ha.ends c hc) (hb.starts d hd)⟩
  blanks := by
    simpa [or_imp, forall_and] using ⟨ha.blanks, hb.blanks⟩
  starts c hc := by
    cases a with
    | nil => exact hb.starts c hc
    | cons x a => exact ha.starts c hc
  ends c hc := by
    rw [List.getLast?_append] at hc
    cases h : b.getLast? with
    | none => exact ha.ends c (by simpa [h] using hc)
    | some d => exact hb.ends c (by simpa [h] using hc)

theorem Tidy.cons {c : Char} (hc : isBlank c = false) (h : Tidy cs) : Tidy (c :: cs) :=
  Tidy.append (a := [c]) (.of_solid (by simpa using hc)) h

/-- One space may stand between two tidy texts, if neither side keeps it away. -/
theorem Tidy.spaced (ha : Tidy a) (hb : Tidy b) (hane : a ≠ []) (hbne : b ≠ [])
    (hleft : ∀ c ∈ a.getLast?, c ≠ '<') (hright : ∀ c ∈ b.head?, c ≠ '*' ∧ c ≠ '&' ∧ c ≠ '>') :
    Tidy (a ++ ' ' :: b) where
  chain := by
    refine List.isChain_append.2 ⟨ha.chain, List.isChain_cons.2 ⟨fun d hd => ?_, hb.chain⟩,
      fun c hc d hd => ?_⟩
    · have hblank : d ≠ ' ' := by
        rintro rfl
        cases hb.starts _ hd
      simp [fits, hblank, hright d hd]
    · have hblank : c ≠ ' ' := by
        rintro rfl
        cases ha.ends _ hc
      simp [fits, hblank, hleft c hc]
  blanks := by
    simpa [or_imp, forall_and] using ⟨ha.blanks, hb.blanks⟩
  starts c hc := by
    cases a with
    | nil => exact absurd rfl hane
    | cons x a => exact ha.starts c hc
  ends c hc := by
    rw [List.getLast?_append, List.getLast?_cons_of_ne_nil hbne] at hc
    cases h : b.getLast? with
    | none => exact absurd (List.getLast?_eq_none_iff.1 h) hbne
    | some d => exact hb.ends c (by simpa [h] using hc)

/-- A list of tidy items is tidy, if every item starts with a word. -/
theorem tidy_joinWith {ws : List (List Char)} (h : ∀ w ∈ ws, Tidy w)
    (hstarts : ∀ w ∈ ws, ∃ c rest, w = c :: rest ∧ isWordStart c) :
    Tidy (joinWith [',', ' '] ws) := by
  induction ws with
  | nil => exact .of_solid (by simp [joinWith])
  | cons w ws ih =>
    rw [List.forall_mem_cons] at h hstarts
    cases ws with
    | nil => exact h.1
    | cons v ws =>
      have hcomma : Tidy [','] := .of_solid (by simp [isBlank])
      have hjoin : joinWith [',', ' '] (w :: v :: ws) =
          w ++ [','] ++ ' ' :: joinWith [',', ' '] (v :: ws) := by
        simp [joinWith]
      obtain ⟨c, rest, hcons, hc⟩ := hstarts.2 v List.mem_cons_self
      obtain ⟨tail, htail⟩ : ∃ tail, joinWith [',', ' '] (v :: ws) = c :: tail := by
        subst hcons
        cases ws <;> exact ⟨_, rfl⟩
      rw [hjoin]
      refine (h.1.append hcomma).spaced (ih h.2 hstarts.2) (by simp) (by simp [htail]) (by simp) ?_
      simp only [htail, List.head?_cons, Option.mem_some_iff, forall_eq']
      exact apart_of_isWordStart hc

theorem Tidy.trim_eq (h : Tidy cs) : trim cs = cs := by
  rw [trim, trimStart_eq_self h.starts, trimEnd_eq_self h.ends]

/-- Trimming leaves a tidy text and takes the blanks around it. -/
theorem Tidy.trim_append (h : Tidy cs) (lead tail : List Char) (hne : cs ≠ [])
    (hlead : ∀ c ∈ lead, isBlank c) (htail : ∀ c ∈ tail, isBlank c) :
    trim (lead ++ (cs ++ tail)) = cs := by
  have hstarts : ∀ c ∈ (cs ++ tail).head?, isBlank c = false := by
    cases cs with
    | nil => exact absurd rfl hne
    | cons d cs => exact h.starts
  rw [trim, trimStart_append hlead hstarts, trimEnd, dropEndWhile_append h.ends htail]

theorem Tidy.trim_cons (h : Tidy cs) (hne : cs ≠ []) : trim (' ' :: cs) = cs := by
  simpa using h.trim_append [' '] [] hne (by simp [isBlank]) (by simp)

/-- Only the first field of a part of a tidy text can be empty. -/
theorem fields_tail_ne_nil (hchain : cs.IsChain fun c d => fits c d)
    (hblanks : ∀ c ∈ cs, isBlank c → c = ' ') (hends : ∀ c ∈ cs.getLast?, isBlank c = false) :
    ∀ w ∈ (fields isBlank cs).tail, w ≠ [] := by
  induction cs with
  | nil => simp [fields]
  | cons c cs ih =>
    rw [List.forall_mem_cons] at hblanks
    rw [List.isChain_cons] at hchain
    cases cs with
    | nil =>
      have hc : isBlank c = false := by simpa using hends
      simp [fields, hc]
    | cons d ds =>
      have ih := ih hchain.2 hblanks.2 (by simpa using hends)
      cases hc : isBlank c with
      | false =>
        obtain ⟨f, fs, hfs, hcons⟩ := fields_cons_of_neg (d :: ds) hc
        rw [hcons]
        simpa [hfs] using ih
      | true =>
        -- The character after a blank is none, so that it starts a word.
        have hd : isBlank d = false := by
          cases hd : isBlank d with
          | false => rfl
          | true =>
            have := hchain.1 d (by simp)
            rw [hblanks.1 hc, hblanks.2 d (by simp) hd] at this
            cases this
        obtain ⟨f, fs, hfs, hcons⟩ := fields_cons_of_neg ds hd
        rw [hcons] at ih
        rw [fields_cons_of_pos hc, hcons]
        simpa using ih

theorem Tidy.words_eq (h : Tidy cs) (hne : cs ≠ []) : words cs = fields isBlank cs := by
  refine List.filter_eq_self.2 fun w hw => ?_
  cases cs with
  | nil => exact absurd rfl hne
  | cons c cs =>
    have htail := fields_tail_ne_nil h.chain h.blanks h.ends
    obtain ⟨f, fs, -, hcons⟩ := fields_cons_of_neg cs (h.starts c (by simp))
    rw [hcons] at hw htail
    rcases List.mem_cons.1 hw with rfl | hw
    · rfl
    · simpa using htail w hw

theorem Tidy.joinWith_words (h : Tidy cs) : joinWith [' '] (words cs) = cs := by
  rcases eq_or_ne cs [] with rfl | hne
  · rfl
  · rw [h.words_eq hne, joinWith_fields h.blanks]

theorem Tidy.normalizeSpaces_eq (h : Tidy cs) : normalizeSpaces cs = cs := h.joinWith_words

theorem Tidy.tightenSpaces_eq (h : Tidy cs) : Declaration.tightenSpaces cs = cs := by
  have hchain := h.chain
  clear h
  fun_induction Declaration.tightenSpaces cs with
  | case1 => rfl
  | case2 cs => simp [fits] at hchain
  | case3 c cs hc =>
    have hfits := (List.isChain_cons_cons.1 hchain).1
    simp only [Bool.or_eq_true, beq_iff_eq] at hc
    rcases hc with (rfl | rfl) | rfl <;> cases hfits
  | case4 c cs hc ih => rw [ih hchain.tail]
  | case5 c cs _ _ ih => rw [ih hchain.tail]

theorem Tidy.tidyType_eq (h : Tidy cs) : Declaration.tidyType cs = cs := by
  rw [Declaration.tidyType, h.normalizeSpaces_eq, h.tightenSpaces_eq]

end Spacing

end TestSynth.Text
