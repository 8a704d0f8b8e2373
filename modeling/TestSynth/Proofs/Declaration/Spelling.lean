import Mathlib
import TestSynth.Declaration.Parameter
import TestSynth.Declaration.Signature
import TestSynth.Proofs.Text.Squeezing
/-!
The normal spelling of types, and parameters that are printed and read again. A text is spelled one
character after the other, each behind the spelling of what stands before it. What decides whether
its last word is a name is decided alike in every spelling.
-/
namespace TestSynth.Declaration

open Text

section Spelling
variable {cs pat : List Char} {c d : Char}

theorem tightenSpaces_cons_cons (hc : c ≠ ' ') (hd : d ≠ ' ') (rest : List Char) :
    tightenSpaces (c :: d :: rest) = c :: tightenSpaces (d :: rest) := by
  rw [tightenSpaces]
  · intro tail _ htail
    simp_all
  · intro e tail heq
    simp_all

theorem tightenSpaces_space (hd : d ≠ ' ') (rest : List Char) : tightenSpaces (' ' :: d :: rest) =
    (if fits ' ' d then [' '] else []) ++ tightenSpaces (d :: rest) := by
  rw [tightenSpaces]
  by_cases hapart : d = '*' ∨ d = '&' ∨ d = '>'
  · rcases hapart with rfl | rfl | rfl <;> rfl
  · simp_all [fits]

theorem tightenSpaces_gap (hc : c ≠ ' ') (hd : d ≠ ' ') : tightenSpaces [c, ' ', d] =
    [c] ++ (if fits c ' ' && fits ' ' d then [' '] else []) ++ [d] := by
  by_cases hopen : c = '<'
  · subst hopen
    simp [tightenSpaces, fits]
  · have hfits : fits c ' ' := by simp [fits, hc, hopen]
    rw [tightenSpaces]
    · rw [tightenSpaces_space hd]
      simp [hfits, tightenSpaces]
    · simp [hopen]
    · simp [hc]

/-- What stands before a character is spelled without regard to what follows the character. -/
theorem tightenSpaces_append_cons (hd : d ≠ ' ') (cs : List Char) :
    ∃ front, ∀ rest, tightenSpaces (cs ++ d :: rest) = front ++ tightenSpaces (d :: rest) := by
  fun_induction tightenSpaces cs with
  | case1 => exact ⟨[], fun _ => rfl⟩
  | case2 cs ih =>
    obtain ⟨front, h⟩ := ih
    refine ⟨'<' :: front, fun rest => ?_⟩
    simp [tightenSpaces, h]
  | case3 c cs hc ih =>
    obtain ⟨front, h⟩ := ih
    refine ⟨front, fun rest => ?_⟩
    rw [List.cons_append, List.cons_append, tightenSpaces, if_pos hc]
    exact h rest
  | case4 c cs hc ih =>
    obtain ⟨front, h⟩ := ih
    refine ⟨' ' :: front, fun rest => ?_⟩
    rw [List.cons_append, List.cons_append, tightenSpaces, if_neg hc]
    simpa using h rest
  | case5 c cs hopen hspace ih =>
    obtain ⟨front, h⟩ := ih
    cases cs with
    | nil =>
      by_cases hc : c = ' '
      · subst hc
        exact ⟨_, tightenSpaces_space hd⟩
      · exact ⟨[c], tightenSpaces_cons_cons hc hd⟩
    | cons e es =>
      refine ⟨c :: front, fun rest => ?_⟩
      rw [List.cons_append, tightenSpaces]
      · rw [h, List.cons_append]
      · simp_all
      · simp_all

/-- What stands before a character that is no blank is spelled without regard to what follows. -/
theorem tidyType_append_cons (hd : isBlank d = false) (cs : List Char) :
    ∃ front, ∀ rest, tidyType (cs ++ d :: rest) =
      front ++ tightenSpaces (d :: trimEnd (squeeze rest)) := by
  have hspace : d ≠ ' ' := by
    rintro rfl
    cases hd
  obtain ⟨front, h⟩ := tightenSpaces_append_cons hspace (trimStart (squeeze cs))
  refine ⟨front, fun rest => ?_⟩
  rw [tidyType, normalizeSpaces_eq, squeeze_append _ _ hd, trim_append_cons hd, h]

theorem tidyType_append_blanks {gap : List Char} (h : ∀ c ∈ gap, isBlank c) (cs : List Char) :
    tidyType (cs ++ gap) = tidyType cs := by
  rw [tidyType, normalizeSpaces, words_append_blanks h]
  rfl

@[simp] theorem tidyType_nil : tidyType [] = [] := rfl

theorem mem_tightenSpaces (hc : isBlank c = false) :
    c ∈ tightenSpaces cs ↔ c ∈ cs := by
  have hspace : c ≠ ' ' := fun heq => by
    rw [heq] at hc
    cases hc
  fun_induction tightenSpaces cs <;> simp_all

theorem mem_tidyType (hc : isBlank c = false) : c ∈ tidyType cs ↔ c ∈ cs := by
  rw [tidyType, mem_tightenSpaces hc, mem_normalizeSpaces hc]

/-- The spelling of a type with anything but blanks in it is not empty. -/
theorem tidyType_ne_nil (hc : c ∈ cs) (hsolid : isBlank c = false) : tidyType cs ≠ [] :=
  List.ne_nil_of_mem ((mem_tidyType hsolid).2 hc)

/-- The space that is spelled between a text and a character behind it: one for blanks, unless the
text or the character keeps it away. -/
def joint (cs : List Char) (c : Char) : List Char :=
  if cs.getLast?.any isBlank && (tidyType cs).getLast?.any (fits · ' ') && fits ' ' c then [' ']
  else []

/-- Behind mere blanks a character stands alone. -/
theorem tidyType_blanks_concat (hcs : ∀ d ∈ cs, isBlank d) (hc : isBlank c = false) :
    tidyType (cs ++ [c]) = [c] := by
  rw [tidyType, normalizeSpaces, words_blanks_append hcs,
    words_eq_singleton (by simp) (by simpa using hc)]
  simp [joinWith, tightenSpaces]

/-- One more character is spelled behind the spelling of a text. -/
theorem tidyType_concat (hc : isBlank c = false) (cs : List Char) :
    tidyType (cs ++ [c]) = tidyType cs ++ joint cs c ++ [c] := by
  have hcspace : c ≠ ' ' := by
    rintro rfl
    cases hc
  obtain ⟨gap, hsplit, hgap, hlast⟩ := dropEndWhile_split isBlank cs
  rcases (dropEndWhile isBlank cs).eq_nil_or_concat with hnil | ⟨r, d, hrest⟩
  · rw [hnil, List.nil_append] at hsplit
    have hblank : tidyType cs = [] := hsplit ▸ tidyType_append_blanks hgap []
    rw [tidyType_blanks_concat (hsplit ▸ hgap) hc]
    simp [hblank, joint]
  · rw [hrest, List.concat_eq_append] at hsplit hlast
    have hd : isBlank d = false := hlast d (by simp)
    have hdspace : d ≠ ' ' := by
      rintro rfl
      cases hd
    obtain ⟨front, h⟩ := tidyType_append_cons hd r
    have hcs : tidyType cs = front ++ [d] := by
      rw [hsplit, tidyType_append_blanks hgap, h]
      simp [trimEnd, dropEndWhile, tightenSpaces]
    have hwhole : cs ++ [c] = r ++ d :: (gap ++ [c]) := by simp [hsplit]
    have hend : ∀ lead : List Char, trimEnd (lead ++ [c]) = lead ++ [c] := by
      intro lead
      apply trimEnd_eq_self
      simpa using hc
    rw [hwhole, h, hcs]
    by_cases hnone : gap = []
    · have hsolid : joint cs c = [] := by simp [joint, hsplit, hd, hnone]
      have hsqueeze : squeeze (gap ++ [c]) = [] ++ [c] := by simp [hnone, squeeze_solid hc]
      rw [hsqueeze, hend, List.nil_append, tightenSpaces_cons_cons hdspace hcspace, hsolid]
      simp [tightenSpaces]
    · have hblank : cs.getLast?.any isBlank := by
        rw [hsplit, List.getLast?_append_of_ne_nil _ hnone, List.getLast?_eq_some_getLast hnone]
        exact hgap _ (List.getLast_mem hnone)
      have hsqueeze : squeeze (gap ++ [c]) = [' '] ++ [c] := squeeze_gap hgap hnone hc
      rw [hsqueeze, hend, List.singleton_append, tightenSpaces_gap hdspace hcspace]
      simp [joint, hblank, hcs]

/-- No space is spelled behind a text that does not end in a blank. -/
theorem joint_of_solid (h : ∀ c ∈ cs.getLast?, isBlank c = false) (c : Char) :
    joint cs c = [] := by
  cases hlast : cs.getLast? with
  | none => simp [joint, hlast]
  | some d => simp [joint, hlast, h d hlast]

/-- Behind blanks there is a space, unless the text is empty or opens angles or the character is a
declarator or closes them. -/
theorem joint_cases (cs : List Char) (c : Char) : joint cs c = [] ∨
    joint cs c = [' '] ∧ tidyType cs ≠ [] ∧ (∀ d ∈ (tidyType cs).getLast?, fits d ' ') ∧
      fits ' ' c := by
  unfold joint
  split
  · next h =>
    simp only [Bool.and_eq_true] at h
    obtain ⟨⟨-, hleft⟩, hright⟩ := h
    right
    refine ⟨rfl, ?_, ?_, hright⟩
    · rintro hnil
      simp [hnil] at hleft
    · intro d hd
      rw [Option.mem_def.1 hd] at hleft
      simpa using hleft
  · exact .inl rfl

/-- Behind a blank the next word finds a space, an opening bracket or nothing. -/
theorem getLast?_joint (hblank : isBlank d) (hc : fits ' ' c) :
    ∀ e ∈ (tidyType (cs ++ [d]) ++ joint (cs ++ [d]) c).getLast?, e = ' ' ∨ e = '<' := by
  intro e he
  cases hlast : (tidyType (cs ++ [d])).getLast? with
  | none =>
    rw [joint, hlast, List.getLast?_eq_none_iff.1 hlast] at he
    simp at he
  | some l =>
    cases hl : fits l ' ' with
    | true =>
      have hspace : joint (cs ++ [d]) c = [' '] := by simp [joint, hblank, hlast, hl, hc]
      rw [hspace, List.getLast?_concat] at he
      exact .inl (Option.some.inj he).symm
    | false =>
      have hnone : joint (cs ++ [d]) c = [] := by simp [joint, hlast, hl]
      rw [hnone, List.append_nil, hlast] at he
      obtain rfl : l = e := Option.some.inj he
      by_contra hother
      rw [not_or] at hother
      simp [fits, hother] at hl

/-- Spelling leaves every text tidy. -/
theorem tidy_tidyType (cs : List Char) : Tidy (tidyType cs) := by
  induction cs using List.reverseRecOn with
  | nil => exact .of_solid (by simp)
  | append_singleton cs c ih =>
    cases hc : isBlank c with
    | true =>
      rw [tidyType_append_blanks (by simpa using hc)]
      exact ih
    | false =>
      have hlone : Tidy [c] := .of_solid (by simpa using hc)
      rw [tidyType_concat hc]
      rcases joint_cases cs c with hnone | ⟨hspace, hne, hleft, hright⟩
      · rw [hnone, List.append_nil]
        exact ih.append hlone
      · rw [hspace, List.append_assoc, List.singleton_append]
        apply ih.spaced hlone hne (by simp)
        · rintro d hd rfl
          exact absurd (hleft _ hd) (by decide)
        · simp only [List.head?_cons, Option.mem_some_iff, forall_eq']
          refine ⟨?_, ?_, ?_⟩ <;> rintro rfl <;> exact absurd hright (by decide)

/-- The texts in normal spelling are those that spelling leaves as they are. -/
theorem tidyType_eq_self_iff : tidyType cs = cs ↔ Tidy cs := by
  constructor
  · intro h
    rw [← h]
    exact tidy_tidyType cs
  · exact Tidy.tidyType_eq

theorem tidyType_tidyType (cs : List Char) : tidyType (tidyType cs) = tidyType cs :=
  (tidy_tidyType cs).tidyType_eq

end Spelling

section Ends
variable {cs pat : List Char} {c : Char}

theorem endsWith_eq_false_of_getLast? (h : c ∉ cs.getLast?) : endsWith (pat ++ [c]) cs = false := by
  rw [endsWith, Bool.eq_false_iff, ne_eq, List.isSuffixOf_iff_suffix]
  rintro ⟨before, rfl⟩
  exact h (by rw [← List.append_assoc, List.getLast?_concat, Option.mem_def])

theorem endsWith_concat (pat cs : List Char) (c d : Char) :
    endsWith (pat ++ [c]) (cs ++ [d]) = (endsWith pat cs && c == d) := by
  rw [Bool.eq_iff_iff, Bool.and_eq_true, beq_iff_eq]
  simp [endsWith, List.suffix_append_inj_of_length_eq]

end Ends

section LastWord
variable {cs pat : List Char} {c d : Char}

/-- The word that a text ends in: the name, if it declares one. -/
def lastWord (cs : List Char) : List Char := takeEndWhile isWord cs

/-- What stands before the last word: the type, if that word is a name. -/
def beforeWord (cs : List Char) : List Char := trimEnd (dropEndWhile isWord cs)

theorem lastWord_concat (hc : isWord c) (cs : List Char) :
    lastWord (cs ++ [c]) = lastWord cs ++ [c] ∧ beforeWord (cs ++ [c]) = beforeWord cs := by
  obtain ⟨w, hsplit, hw, hlast⟩ := dropEndWhile_split isWord cs
  have hword : ∀ d ∈ w ++ [c], isWord d := by
    simpa [or_imp, forall_and] using ⟨hw, hc⟩
  have hwhole : cs ++ [c] = dropEndWhile isWord cs ++ (w ++ [c]) := by
    rw [← List.append_assoc, ← hsplit]
  have htake : takeEndWhile isWord cs = w := by
    conv_lhs => rw [hsplit, takeEndWhile_append hlast hw]
  constructor
  · rw [lastWord, lastWord, htake, hwhole, takeEndWhile_append hlast hword]
  · rw [beforeWord, beforeWord, hwhole, dropEndWhile_append hlast hword]

/-- A text that does not end in a word character is all type. -/
theorem lastWord_of_getLast? (h : ∀ c ∈ cs.getLast?, isWord c = false) :
    lastWord cs = [] ∧ beforeWord cs = trimEnd cs := by
  have htake := takeEndWhile_append h (b := []) (by simp)
  have hdrop := dropEndWhile_eq_self h
  rw [List.append_nil] at htake
  exact ⟨htake, by rw [beforeWord, hdrop]⟩

theorem tidyType_trimEnd (cs : List Char) : tidyType (trimEnd cs) = tidyType cs := by
  obtain ⟨gap, hsplit, hgap, -⟩ := dropEndWhile_split isBlank cs
  conv_rhs => rw [hsplit, tidyType_append_blanks hgap]
  rfl

theorem fits_space_of_isWord (hc : isWord c) : fits ' ' c := by
  have hspace : c ≠ ' ' := ne_of_holds hc (by decide)
  have hstar : c ≠ '*' := ne_of_holds hc (by decide)
  have hreference : c ≠ '&' := ne_of_holds hc (by decide)
  have hclose : c ≠ '>' := ne_of_holds hc (by decide)
  simp [fits, hspace, hstar, hreference, hclose]

/-- Spelling a text does not touch its last word, and spells what stands before it. -/
theorem lastWord_tidyType (h : ∀ c ∈ cs.getLast?, isBlank c = false) :
    lastWord (tidyType cs) = lastWord cs ∧ beforeWord (tidyType cs) = tidyType (beforeWord cs) := by
  induction cs using List.reverseRecOn with
  | nil => exact ⟨rfl, rfl⟩
  | append_singleton cs c ih =>
    have hc : isBlank c = false := h c (by simp)
    have hends := (tidy_tidyType cs).ends
    rw [tidyType_concat hc]
    cases hw : isWord c with
    | false =>
      obtain ⟨hleft, hbefore⟩ := @lastWord_of_getLast? (cs ++ [c]) (by simpa using hw)
      obtain ⟨hleft', hbefore'⟩ :=
        @lastWord_of_getLast? (tidyType cs ++ joint cs c ++ [c]) (by simpa using hw)
      rw [hleft, hleft', hbefore, hbefore', tidyType_trimEnd, ← tidyType_concat hc]
      exact ⟨rfl, trimEnd_eq_self (tidy_tidyType _).ends⟩
    | true =>
      obtain ⟨hleft, hbefore⟩ := lastWord_concat hw cs
      obtain ⟨hleft', hbefore'⟩ := lastWord_concat hw (tidyType cs ++ joint cs c)
      rw [hleft, hleft', hbefore, hbefore', List.append_cancel_right_eq]
      rcases solid_or_blank cs with hsolid | ⟨front, d, rfl, hd⟩
      · rw [joint_of_solid hsolid, List.append_nil]
        exact ih hsolid
      · -- A word that stands alone is the last word of either text.
        have hlast : ∀ e ∈ (tidyType (front ++ [d]) ++ joint (front ++ [d]) c).getLast?,
            isWord e = false := by
          intro e he
          rcases getLast?_joint hd (fits_space_of_isWord hw) e he with rfl | rfl <;> rfl
        have hjoint : ∀ e ∈ joint (front ++ [d]) c, isBlank e := by
          rcases joint_cases (front ++ [d]) c with hnone | ⟨hspace, -⟩
          · simp [hnone]
          · simp [hspace]
        obtain ⟨hnone, hfront⟩ :=
          @lastWord_of_getLast? (front ++ [d]) (by simpa using isWord_of_isBlank hd)
        obtain ⟨hnone', hfront'⟩ := lastWord_of_getLast? hlast
        rw [hnone, hnone', hfront, hfront', tidyType_trimEnd]
        exact ⟨rfl, dropEndWhile_append hends hjoint⟩

/-- Spelling keeps what a text ends in, if no blank between two of its characters would go. -/
theorem endsWith_tidyType (hpat : pat.IsChain fun c d => fits c ' ' ∧ fits ' ' d)
    (hsolid : ∀ c ∈ pat, isBlank c = false) (h : ∀ c ∈ cs.getLast?, isBlank c = false) :
    endsWith pat (tidyType cs) = endsWith pat cs := by
  induction pat using List.reverseRecOn generalizing cs with
  | nil => rfl
  | append_singleton pat d ih =>
    rcases cs.eq_nil_or_concat with rfl | ⟨cs, c, rfl⟩
    · rfl
    · rw [List.concat_eq_append] at h ⊢
      rw [tidyType_concat (h c (by simp)), endsWith_concat, endsWith_concat]
      by_cases hdc : d = c
      · subst hdc
        rw [List.isChain_append] at hpat
        rw [List.forall_mem_append] at hsolid
        congr 1
        rcases solid_or_blank cs with hend | ⟨front, b, rfl, hb⟩
        · rw [joint_of_solid hend, List.append_nil]
          exact ih hpat.1 hsolid.1 hend
        · rcases pat.eq_nil_or_concat with rfl | ⟨pat, e, rfl⟩
          · rfl
          · -- Behind a blank the text ends in nothing that the pattern could end in.
            rw [List.concat_eq_append] at hpat hsolid ⊢
            obtain ⟨hopen, hnext⟩ := hpat.2.2 e (by simp) d (by simp)
            have he : isBlank e = false := hsolid.1 e (by simp)
            rw [endsWith_eq_false_of_getLast?, endsWith_eq_false_of_getLast?]
            · rw [List.getLast?_concat, Option.mem_some_iff]
              rintro rfl
              rw [hb] at he
              cases he
            · intro hmem
              rcases getLast?_joint hb hnext e hmem with rfl | rfl
              · cases he
              · cases hopen
      · rw [beq_false_of_ne hdc, Bool.and_false, Bool.and_false]

end LastWord

section Reading
variable {cs : List Char}

/-- Whether a type goes on behind its end, so that no name can stand there. -/
def isOpen (cs : List Char) : Bool :=
  endsWith [':', ':'] cs || endsWith ['<'] cs || endsWith [','] cs

/-- Whether the last word of a text belongs to the type. -/
def isWhole (cs : List Char) : Bool :=
  !isIdentifier (lastWord cs) || (beforeWord cs).isEmpty ||
    typeWords.contains (String.ofList (lastWord cs)) || isOpen (beforeWord cs)

/-- An array is passed as a pointer. -/
def starred (isArray : Bool) (cs : List Char) : List Char := if isArray then cs ++ ['*'] else cs

theorem starred_ne_nil (isArray : Bool) (h : cs ≠ []) : starred isArray cs ≠ [] := by
  cases isArray with
  | true => simp [starred]
  | false => exact h

/-- What a text is read as, by its last word and what stands before that. -/
theorem splitTypeAndName_eq (cs : List Char) : splitTypeAndName cs =
    let (text, isArray) := dropArrays (trim cs)
    ⟨String.ofList (starred isArray (tidyType (if isWhole text then text else beforeWord text))),
      if isWhole text then "" else String.ofList (lastWord text), false⟩ := by
  simp only [splitTypeAndName, isWhole, isOpen, starred, lastWord, beforeWord, Bool.or_assoc]

theorem isOpen_of_getLast? (h : ∀ c ∈ cs.getLast?, c ∉ [':', '<', ',']) : isOpen cs = false := by
  have hmark : ∀ (pat : List Char) {c : Char}, c ∈ [':', '<', ','] →
      endsWith (pat ++ [c]) cs = false := fun pat c hc =>
    endsWith_eq_false_of_getLast? fun hmem => h c hmem hc
  have hcolons := hmark [':'] (c := ':') (by decide)
  have hangle := hmark [] (c := '<') (by decide)
  have hcomma := hmark [] (c := ',') (by decide)
  simp_all [isOpen]

theorem isOpen_tidyType (h : ∀ c ∈ cs.getLast?, isBlank c = false) :
    isOpen (tidyType cs) = isOpen cs := by
  have hcolons := @endsWith_tidyType cs [':', ':'] (by simp [fits]) (by simp [isBlank]) h
  have hangle := @endsWith_tidyType cs ['<'] (by simp [fits]) (by simp [isBlank]) h
  have hcomma := @endsWith_tidyType cs [','] (by simp [fits]) (by simp [isBlank]) h
  rw [isOpen, isOpen, hcolons, hangle, hcomma]

theorem isEmpty_tidyType (h : ∀ c ∈ cs.getLast?, isBlank c = false) :
    (tidyType cs).isEmpty = cs.isEmpty := by
  rcases cs.eq_nil_or_concat with rfl | ⟨cs, c, rfl⟩
  · rfl
  · rw [List.concat_eq_append] at h ⊢
    have hne : tidyType (cs ++ [c]) ≠ [] :=
      tidyType_ne_nil (List.mem_append_right cs List.mem_cons_self) (h c (by simp))
    have hne' : cs ++ [c] ≠ [] := by simp
    rw [List.isEmpty_eq_false_iff.2 hne, List.isEmpty_eq_false_iff.2 hne']

theorem beforeWord_ends (cs : List Char) : ∀ c ∈ (beforeWord cs).getLast?, isBlank c = false := by
  obtain ⟨-, -, -, hlast⟩ := dropEndWhile_split isBlank (dropEndWhile isWord cs)
  exact hlast

/-- Whether the last word of a text is a name is the same in every spelling of it. -/
theorem isWhole_tidyType (h : ∀ c ∈ cs.getLast?, isBlank c = false) :
    isWhole (tidyType cs) = isWhole cs := by
  obtain ⟨hlast, hbefore⟩ := lastWord_tidyType h
  have hends := beforeWord_ends cs
  rw [isWhole, isWhole, hlast, hbefore, isEmpty_tidyType hends, isOpen_tidyType hends]

/-- A text ends in array brackets. -/
def Bracketed (cs : List Char) : Prop := endsWith [']'] cs ∧ '[' ∈ cs

theorem dropArrays_of_not_bracketed (h : ¬ Bracketed cs) : dropArrays cs = (cs, false) := by
  rw [dropArrays]
  split
  · next hend =>
    have hmem : '[' ∉ cs := fun hmem => h ⟨hend, hmem⟩
    split
    · next before after hcut =>
      rw [cutAtLast_eq_none hmem] at hcut
      cases hcut
    · rfl
  · rfl

theorem dropArrays_of_bracketed (h : Bracketed cs) : (dropArrays cs).2 = true := by
  rw [dropArrays, if_pos h.1]
  split
  · rfl
  · next hcut => exact absurd h.2 (cutAtLast_eq_none_iff.1 hcut)

/-- Dropping arrays leaves a text that ends in no blank. -/
theorem dropArrays_ends (h : ∀ c ∈ cs.getLast?, isBlank c = false) :
    ∀ c ∈ (dropArrays cs).1.getLast?, isBlank c = false := by
  fun_induction dropArrays cs with
  | case1 cs hend before after hcut ih =>
    obtain ⟨-, -, -, hlast⟩ := dropEndWhile_split isBlank before
    exact ih hlast
  | case2 => exact h
  | case3 => exact h

theorem not_bracketed_of_getLast? (h : ']' ∉ cs.getLast?) : ¬ Bracketed cs := by
  rintro ⟨hend, -⟩
  rw [← List.nil_append [']'], endsWith_eq_false_of_getLast? h] at hend
  cases hend

theorem bracketed_tidyType (h : ∀ c ∈ cs.getLast?, isBlank c = false) :
    Bracketed (tidyType cs) ↔ Bracketed cs := by
  have hbracket := @endsWith_tidyType cs [']'] (by simp) (by simp [isBlank]) h
  rw [Bracketed, Bracketed, hbracket, mem_tidyType (by decide)]

section Starred

theorem getLast?_starred (cs : List Char) : (starred true cs).getLast? = some '*' := by
  simp [starred]

theorem isWhole_starred (cs : List Char) : isWhole (starred true cs) := by
  have hstar : ∀ c ∈ (starred true cs).getLast?, isWord c = false := by
    simp [getLast?_starred, isWord]
  rw [isWhole, (lastWord_of_getLast? hstar).1]
  rfl

theorem isOpen_starred (cs : List Char) : isOpen (starred true cs) = false :=
  isOpen_of_getLast? (by simp [getLast?_starred])

theorem not_bracketed_starred (cs : List Char) : ¬ Bracketed (starred true cs) :=
  not_bracketed_of_getLast? (by simp [getLast?_starred])

theorem tidy_starred (isArray : Bool) (h : Tidy cs) : Tidy (starred isArray cs) := by
  cases isArray with
  | true => exact h.append (.of_solid (by simp [isBlank]))
  | false => exact h

end Starred

/-- Parameters as reading gives them: the type in normal spelling, and a name where one can
stand. -/
inductive Canonical : Parameter → Prop where
  | unnamed {t : List Char} (tidy : Tidy t) (whole : isWhole t) (plain : ¬ Bracketed t) :
      Canonical ⟨String.ofList t, "", false⟩
  | named {t n : List Char} (tidy : Tidy t) (typed : t ≠ []) (closed : isOpen t = false)
      (name : isIdentifier n) (free : typeWords.contains (String.ofList n) = false) :
      Canonical ⟨String.ofList t, String.ofList n, false⟩

/-- Every text is read as a canonical parameter. -/
theorem canonical_splitTypeAndName (cs : List Char) : Canonical (splitTypeAndName cs) := by
  obtain ⟨-, -, -, -, -, -, htrim⟩ := trim_split cs
  have hends := dropArrays_ends htrim
  have hplain : (dropArrays (trim cs)).2 = false → ¬ Bracketed (dropArrays (trim cs)).1 := by
    intro hnone hbracketed
    have hself : ¬ Bracketed (trim cs) := fun h => by
      rw [dropArrays_of_bracketed h] at hnone
      cases hnone
    rw [dropArrays_of_not_bracketed hself] at hbracketed
    exact hself hbracketed
  rw [splitTypeAndName_eq]
  generalize dropArrays (trim cs) = read at hends hplain
  obtain ⟨text, isArray⟩ := read
  dsimp only at hends hplain ⊢
  cases hwhole : isWhole text with
  | true =>
    rw [if_pos rfl, if_pos rfl]
    apply Canonical.unnamed (tidy_starred isArray (tidy_tidyType text))
    · cases isArray with
      | true => exact isWhole_starred _
      | false => exact (isWhole_tidyType hends).trans hwhole
    · cases isArray with
      | true => exact not_bracketed_starred _
      | false => exact fun h => hplain rfl ((bracketed_tidyType hends).1 h)
  | false =>
    rw [if_neg Bool.false_ne_true, if_neg Bool.false_ne_true]
    have hbefore := beforeWord_ends text
    simp only [isWhole, Bool.or_eq_false_iff, Bool.not_eq_false'] at hwhole
    obtain ⟨⟨⟨hname, hsome⟩, hfree⟩, hclosed⟩ := hwhole
    apply Canonical.named (tidy_starred isArray (tidy_tidyType _)) _ _ hname hfree
    · rw [← isEmpty_tidyType hbefore] at hsome
      exact starred_ne_nil isArray (List.isEmpty_eq_false_iff.1 hsome)
    · cases isArray with
      | true => exact isOpen_starred _
      | false => exact (isOpen_tidyType hbefore).trans hclosed

section ReadBack
variable {t n : List Char}

theorem splitTypeAndName_unnamed (htidy : Tidy t) (hwhole : isWhole t) (hplain : ¬ Bracketed t) :
    splitTypeAndName t = ⟨String.ofList t, "", false⟩ := by
  rw [splitTypeAndName_eq, htidy.trim_eq, dropArrays_of_not_bracketed hplain]
  simp [hwhole, starred, htidy.tidyType_eq]

theorem splitTypeAndName_named (htidy : Tidy t) (htyped : t ≠ []) (hclosed : isOpen t = false)
    (hname : isIdentifier n) (hfree : typeWords.contains (String.ofList n) = false) :
    splitTypeAndName (t ++ ' ' :: n) = ⟨String.ofList t, String.ofList n, false⟩ := by
  have hword := isWord_of_mem_isIdentifier hname
  have hne : n ≠ [] := by
    rintro rfl
    cases hname
  have hsplit : t ++ ' ' :: n = (t ++ [' ']) ++ n := by simp
  have hlast : (t ++ ' ' :: n).getLast? = n.getLast? := by
    rw [hsplit, List.getLast?_append_of_ne_nil _ hne]
  have hends : ∀ c ∈ (t ++ ' ' :: n).getLast?, isWord c := fun c hc =>
    hword c (List.mem_of_getLast? (hlast ▸ hc))
  have htrim : trim (t ++ ' ' :: n) = t ++ ' ' :: n := by
    rw [trim, trimStart_eq_self, trimEnd_eq_self]
    · exact fun c hc => isBlank_of_isWord (hends c hc)
    · rw [List.head?_append_of_ne_nil _ htyped]
      exact htidy.starts
  have hplain : ¬ Bracketed (t ++ ' ' :: n) :=
    not_bracketed_of_getLast? fun hmem => by cases hends _ hmem
  have hblank : ∀ c ∈ (t ++ [' ']).getLast?, isWord c = false := by simp [isWord]
  have hleft : lastWord (t ++ ' ' :: n) = n := by
    rw [lastWord, hsplit, takeEndWhile_append hblank hword]
  have hbefore : beforeWord (t ++ ' ' :: n) = t := by
    rw [beforeWord, hsplit, dropEndWhile_append hblank hword]
    exact dropEndWhile_append htidy.ends (by simp)
  have hnamed : isWhole (t ++ ' ' :: n) = false := by
    rw [isWhole, hleft, hbefore, hname, hfree, hclosed, List.isEmpty_eq_false_iff.2 htyped]
    rfl
  rw [splitTypeAndName_eq, htrim, dropArrays_of_not_bracketed hplain]
  simp [hnamed, hleft, hbefore, starred, htidy.tidyType_eq]

end ReadBack

/-- A canonical parameter is read back from how it is printed. -/
theorem Canonical.splitTypeAndName_render {p : Parameter} (h : Canonical p) :
    splitTypeAndName p.render.toList = p := by
  cases h with
  | unnamed tidy whole plain =>
    simpa [Parameter.render] using splitTypeAndName_unnamed tidy whole plain
  | @named t n tidy typed closed name free =>
    have hne : n ≠ [] := by
      rintro rfl
      cases name
    simpa [Parameter.render, hne] using splitTypeAndName_named tidy typed closed name free

/-- Printing a parameter that was read and reading it again gives the parameter, and the parameters
that are read back are those with a type in normal spelling and a name where one can stand. Spelling
a type again changes nothing, and leaves the tidy texts as they are. -/
theorem splitTypeAndName_rereads :
    (∀ cs, splitTypeAndName (splitTypeAndName cs).render.toList = splitTypeAndName cs) ∧
    (∀ p, splitTypeAndName p.render.toList = p ↔ Canonical p) ∧
    (∀ cs, tidyType (tidyType cs) = tidyType cs) ∧ ∀ cs, tidyType cs = cs ↔ Tidy cs := by
  refine ⟨fun cs => ?_, fun p => ⟨fun h => ?_, ?_⟩, tidyType_tidyType, fun cs => ?_⟩
  · exact (canonical_splitTypeAndName cs).splitTypeAndName_render
  · rw [← h]
    exact canonical_splitTypeAndName _
  · exact Canonical.splitTypeAndName_render
  · exact tidyType_eq_self_iff

end Reading

end TestSynth.Declaration
