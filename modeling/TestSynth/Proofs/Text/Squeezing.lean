import Mathlib
import TestSynth.Proofs.Text.Nesting
/-!
Texts with one space for every run of blanks, and the cuts that are made at the same places of a
text however its blanks are laid out.
-/
namespace TestSynth.Text

/-- The text with one space for every run of blanks. -/
def squeeze : List Char → List Char
  | [] => []
  | c :: cs =>
    if !isBlank c then c :: squeeze cs
    else if cs.head?.any isBlank then squeeze cs
    else ' ' :: squeeze cs

section Characters
variable {a b cs : List Char} {c d : Char}

@[simp] theorem isBlank_space : isBlank ' ' = true := rfl

@[simp] theorem squeeze_nil : squeeze [] = [] := rfl

theorem squeeze_solid (h : isBlank c = false) : squeeze (c :: cs) = c :: squeeze cs := by
  simp [squeeze, h]

/-- A blank goes, or becomes the space of its run. -/
theorem squeeze_blank (h : isBlank c) :
    squeeze (c :: cs) = if cs.head?.any isBlank then squeeze cs else ' ' :: squeeze cs := by
  simp [squeeze, h]

theorem head?_squeeze (cs : List Char) :
    (squeeze cs).head? = cs.head?.map fun c => if isBlank c then ' ' else c := by
  induction cs with
  | nil => rfl
  | cons c cs ih =>
    cases hc : isBlank c with
    | false => simp [squeeze_solid hc, hc]
    | true =>
      rw [squeeze_blank hc]
      split
      · next hnext =>
        cases cs with
        | nil => cases hnext
        | cons d ds =>
          have hd : isBlank d := by simpa using hnext
          simp [ih, hc, hd]
      · simp [hc]

theorem head?_any_squeeze (cs : List Char) :
    (squeeze cs).head?.any isBlank = cs.head?.any isBlank := by
  rw [head?_squeeze]
  cases cs with
  | nil => rfl
  | cons c cs => cases hc : isBlank c <;> simp [hc]

theorem getLast?_squeeze (cs : List Char) :
    (squeeze cs).getLast? = cs.getLast?.map fun c => if isBlank c then ' ' else c := by
  induction cs with
  | nil => rfl
  | cons c cs ih =>
    cases cs with
    | nil => cases hc : isBlank c <;> simp [squeeze, hc]
    | cons d ds =>
      have hlast : ∀ x, (x :: squeeze (d :: ds)).getLast? = (squeeze (d :: ds)).getLast? := by
        intro x
        have hhead := head?_squeeze (d :: ds)
        cases hs : squeeze (d :: ds) with
        | nil => simp [hs] at hhead
        | cons e es => rw [List.getLast?_cons_cons]
      rw [List.getLast?_cons_cons, ← ih]
      cases hc : isBlank c with
      | false => rw [squeeze_solid hc, hlast]
      | true =>
        rw [squeeze_blank hc]
        split
        · rfl
        · exact hlast ' '

@[simp] theorem squeeze_eq_nil_iff : squeeze cs = [] ↔ cs = [] := by
  have h := head?_squeeze cs
  cases cs <;> cases hs : squeeze _ <;> simp_all

theorem mem_squeeze (h : isBlank c = false) : c ∈ squeeze cs ↔ c ∈ cs := by
  induction cs with
  | nil => rfl
  | cons d ds ih =>
    cases hd : isBlank d with
    | false => rw [squeeze_solid hd, List.mem_cons, List.mem_cons, ih]
    | true =>
      have hne : c ≠ d := by
        rintro rfl
        cases h.symm.trans hd
      have hspace : c ≠ ' ' := by
        rintro rfl
        cases h
      rw [squeeze_blank hd]
      split <;> simp [ih, hne, hspace]

theorem squeeze_blanks {b : List Char} (hb : ∀ c ∈ b, isBlank c) :
    ∀ c ∈ squeeze b, isBlank c := by
  intro c hc
  by_contra hsolid
  rw [Bool.not_eq_true] at hsolid
  exact hsolid.symm.trans (hb c ((mem_squeeze hsolid).1 hc)) |> Bool.false_ne_true

/-- A character that is no blank parts the runs on its two sides. -/
theorem squeeze_append (a : List Char) (b : List Char) (h : isBlank c = false) :
    squeeze (a ++ c :: b) = squeeze a ++ c :: squeeze b := by
  induction a with
  | nil => exact squeeze_solid h
  | cons d a ih =>
    have hhead : (a ++ c :: b).head?.any isBlank = a.head?.any isBlank := by
      cases a <;> simp [h]
    cases hd : isBlank d with
    | false => rw [List.cons_append, squeeze_solid hd, squeeze_solid hd, ih, List.cons_append]
    | true =>
      rw [List.cons_append, squeeze_blank hd, squeeze_blank hd, hhead, ih]
      split <;> rfl

theorem squeeze_append_of_solid (h : ∀ c ∈ a, isBlank c = false) (b : List Char) :
    squeeze (a ++ b) = a ++ squeeze b := by
  induction a with
  | nil => rfl
  | cons c a ih =>
    rw [List.forall_mem_cons] at h
    rw [List.cons_append, squeeze_solid h.1, ih h.2, List.cons_append]

theorem squeeze_eq_self (h : ∀ c ∈ a, isBlank c = false) : squeeze a = a := by
  simpa using squeeze_append_of_solid h []

theorem squeeze_squeeze (cs : List Char) : squeeze (squeeze cs) = squeeze cs := by
  induction cs with
  | nil => rfl
  | cons c cs ih =>
    cases hc : isBlank c with
    | false => rw [squeeze_solid hc, squeeze_solid hc, ih]
    | true =>
      rw [squeeze_blank hc]
      split
      · exact ih
      · next hnext => rw [squeeze_blank isBlank_space, head?_any_squeeze, if_neg hnext, ih]

/-- Two texts one after the other are squeezed as one. -/
theorem squeeze_append_squeeze (a b : List Char) :
    squeeze (squeeze a ++ squeeze b) = squeeze (a ++ b) := by
  induction a with
  | nil => exact squeeze_squeeze b
  | cons c a ih =>
    have hhead : (squeeze a ++ squeeze b).head?.any isBlank = (a ++ b).head?.any isBlank := by
      rw [List.head?_append, List.head?_append, head?_squeeze, head?_squeeze]
      cases a with
      | nil => simpa [head?_squeeze] using head?_any_squeeze b
      | cons d ds => cases hd : isBlank d <;> simp [hd]
    cases hc : isBlank c with
    | false =>
      rw [squeeze_solid hc, List.cons_append, List.cons_append, squeeze_solid hc,
        squeeze_solid hc, ih]
    | true =>
      rw [List.cons_append, squeeze_blank hc, squeeze_blank hc]
      split
      · next hnext =>
        have hblank : (a ++ b).head?.any isBlank := by
          cases a with
          | nil => cases hnext
          | cons d ds => exact hnext
        rw [if_pos hblank, ih]
      · rw [List.cons_append, squeeze_blank isBlank_space, hhead, ih]

/-- How a text is squeezed depends on how its parts are. -/
theorem squeeze_append_congr {a' b' : List Char} (ha : squeeze a = squeeze a')
    (hb : squeeze b = squeeze b') : squeeze (a ++ b) = squeeze (a' ++ b') := by
  rw [← squeeze_append_squeeze, ha, hb, squeeze_append_squeeze]

theorem squeeze_cons_blank_congr (hc : isBlank c) (hd : isBlank d)
    (h : squeeze a = squeeze b) : squeeze (c :: a) = squeeze (d :: b) := by
  have hcd : squeeze [c] = squeeze [d] := by simp [squeeze, hc, hd]
  exact squeeze_append_congr hcd h

end Characters

section Ends
variable {p : Char → Bool} {cs word tail : List Char} {c : Char}

/-- Where blanks go on, the cut behind the front is made at the same character. -/
theorem dropWhile_squeeze (h : ∀ c, isBlank c → p c) (cs : List Char) :
    (squeeze cs).dropWhile p = squeeze (cs.dropWhile p) := by
  induction cs with
  | nil => rfl
  | cons c cs ih =>
    cases hc : isBlank c with
    | false =>
      rw [squeeze_solid hc, List.dropWhile_cons, List.dropWhile_cons]
      split
      · exact ih
      · exact (squeeze_solid hc).symm
    | true =>
      rw [squeeze_blank hc, List.dropWhile_cons, if_pos (h c hc)]
      split
      · exact ih
      · rw [List.dropWhile_cons, if_pos (h ' ' isBlank_space), ih]

theorem trimStart_squeeze (cs : List Char) : trimStart (squeeze cs) = squeeze (trimStart cs) :=
  dropWhile_squeeze (fun _ h => h) cs

theorem exists_squeeze_blank (h : isBlank c) (cs : List Char) :
    ∃ rest, squeeze (c :: cs) = ' ' :: rest := by
  have hhead := head?_squeeze (c :: cs)
  rw [List.head?_cons, Option.map_some, if_pos h, List.head?_eq_some_iff] at hhead
  exact hhead

/-- A text starts with a mark that is no blank where its squeezed form does. -/
theorem squeeze_mark_cases (mark : Char) (h : isBlank mark = false) (cs : List Char) :
    (∃ rest, cs = mark :: rest ∧ squeeze cs = mark :: squeeze rest) ∨
      (∀ rest, cs ≠ mark :: rest) ∧ ∀ rest, squeeze cs ≠ mark :: rest := by
  cases cs with
  | nil => exact .inr ⟨by simp, by simp⟩
  | cons c cs =>
    rcases eq_or_ne c mark with rfl | hne
    · exact .inl ⟨cs, rfl, squeeze_solid h⟩
    · refine .inr ⟨fun rest heq => hne (List.cons.inj heq).1, fun rest heq => ?_⟩
      have hhead := head?_squeeze (c :: cs)
      rw [heq, List.head?_cons, List.head?_cons, Option.map_some, Option.some.injEq] at hhead
      split at hhead
      · rw [hhead] at h
        cases h
      · exact hne hhead.symm

/-- A run of blanks becomes one space. -/
theorem squeeze_run (h : isBlank c) (cs : List Char) :
    squeeze (c :: cs) = ' ' :: squeeze (trimStart cs) := by
  induction cs generalizing c with
  | nil => simp [squeeze, h, trimStart]
  | cons d ds ih =>
    cases hd : isBlank d with
    | false =>
      rw [trimStart_eq_self (by simpa using hd), squeeze_blank h, if_neg (by simp [hd])]
    | true =>
      have hstart : trimStart (d :: ds) = trimStart ds := by simp [trimStart, hd]
      rw [squeeze_blank h, if_pos (by simpa using hd), ih hd, hstart]

/-- Where blanks end a word, the word and what follows it are the same. -/
theorem takeWhile_squeeze_of_solid (h : ∀ c, isBlank c → p c = false) (cs : List Char) :
    (squeeze cs).takeWhile p = cs.takeWhile p := by
  induction cs with
  | nil => rfl
  | cons c cs ih =>
    cases hc : isBlank c with
    | false => rw [squeeze_solid hc, List.takeWhile_cons, List.takeWhile_cons, ih]
    | true =>
      obtain ⟨rest, hrest⟩ := exists_squeeze_blank hc cs
      simp [hrest, h c hc, h ' ' isBlank_space]

theorem dropWhile_squeeze_of_solid (h : ∀ c, isBlank c → p c = false) (cs : List Char) :
    (squeeze cs).dropWhile p = squeeze (cs.dropWhile p) := by
  induction cs with
  | nil => rfl
  | cons c cs ih =>
    cases hc : isBlank c with
    | false =>
      rw [squeeze_solid hc, List.dropWhile_cons, List.dropWhile_cons, ih]
      split
      · rfl
      · exact (squeeze_solid hc).symm
    | true =>
      obtain ⟨rest, hrest⟩ := exists_squeeze_blank hc cs
      rw [List.dropWhile_cons, if_neg (by simp [h c hc]), hrest, List.dropWhile_cons,
        if_neg (by simp [h ' ' isBlank_space])]

/-- What stands behind the word in front. -/
theorem drop_squeeze_of_solid (h : ∀ c, isBlank c → p c = false) (cs : List Char) :
    (squeeze cs).drop (cs.takeWhile p).length = squeeze (cs.drop (cs.takeWhile p).length) := by
  have hdrop : ∀ l : List Char, l.drop (l.takeWhile p).length = l.dropWhile p := fun l => by
    have hleft : (l.takeWhile p ++ l.dropWhile p).drop (l.takeWhile p).length = l.dropWhile p :=
      List.drop_left
    rwa [List.takeWhile_append_dropWhile] at hleft
  rw [hdrop, ← dropWhile_squeeze_of_solid h, ← hdrop, takeWhile_squeeze_of_solid h]

theorem trimEnd_squeeze (cs : List Char) : trimEnd (squeeze cs) = squeeze (trimEnd cs) := by
  have hcons : ∀ c cs, trimEnd (c :: cs) =
      if trimEnd cs = [] then (if isBlank c then [] else [c]) else c :: trimEnd cs := fun c cs => by
    rw [trimEnd, trimEnd, dropEndWhile]
    split
    · next hnil => rw [if_pos hnil]
    · next hne => rw [hne, if_neg (by simp)]
  induction cs with
  | nil => rfl
  | cons c cs ih =>
    have hnil : trimEnd (squeeze cs) = [] ↔ trimEnd cs = [] := by rw [ih, squeeze_eq_nil_iff]
    cases hc : isBlank c with
    | false =>
      rw [squeeze_solid hc, hcons, hcons]
      by_cases hend : trimEnd cs = []
      · simp [hend, hnil.2 hend, hc, squeeze_solid hc]
      · rw [if_neg (hnil.not.2 hend), if_neg hend, ih, squeeze_solid hc]
    | true =>
      rw [squeeze_blank hc, hcons c cs]
      by_cases hend : trimEnd cs = []
      · rw [if_pos hend, if_pos hc]
        split
        · exact hnil.2 hend
        · rw [hcons, if_pos (hnil.2 hend), if_pos isBlank_space]
          rfl
      · have hhead : (trimEnd cs).head?.any isBlank = cs.head?.any isBlank := by
          obtain ⟨d, ds, hd⟩ := List.exists_cons_of_ne_nil hend
          obtain ⟨tail, htail⟩ := prefix_dropEndWhile isBlank cs
          have hcs : cs = d :: (ds ++ tail) := by
            rw [← htail, ← trimEnd, hd, List.cons_append]
          rw [hd, hcs]
          rfl
        rw [if_neg hend, squeeze_blank hc, hhead]
        split
        · exact ih
        · rw [hcons, if_neg (hnil.not.2 hend), ih]

theorem trim_squeeze (cs : List Char) : trim (squeeze cs) = squeeze (trim cs) := by
  rw [trim, trimStart_squeeze, trimEnd_squeeze, trim]

theorem takeEndWhile_squeeze (cs : List Char) :
    takeEndWhile isWord (squeeze cs) = takeEndWhile isWord cs := by
  obtain ⟨w, hsplit, hw, hlast⟩ := dropEndWhile_split isWord cs
  have hfront : ∀ c ∈ (squeeze (dropEndWhile isWord cs)).getLast?, isWord c = false := by
    intro c hc
    rw [getLast?_squeeze, Option.mem_def, Option.map_eq_some_iff] at hc
    obtain ⟨d, hd, rfl⟩ := hc
    split
    · rfl
    · exact hlast d hd
  have hsqueeze : squeeze cs = squeeze (dropEndWhile isWord cs) ++ w := by
    cases w with
    | nil =>
      rw [List.append_nil] at hsplit ⊢
      rw [← hsplit]
    | cons c w =>
      have hsolid : ∀ d ∈ w, isBlank d = false :=
        fun d hd => isBlank_of_isWord (hw d (List.mem_cons_of_mem _ hd))
      conv_lhs => rw [hsplit, squeeze_append _ _ (isBlank_of_isWord (hw c List.mem_cons_self)),
        squeeze_eq_self hsolid]
  rw [hsqueeze, takeEndWhile_append hfront hw]
  conv_rhs => rw [hsplit, takeEndWhile_append hlast hw]

/-- A test that no blank passes has the same outcome at the front of the squeezed text. -/
theorem head?_any_squeeze_of_solid (h : ∀ c, isBlank c → p c = false) (cs : List Char) :
    (squeeze cs).head?.any p = cs.head?.any p := by
  rw [head?_squeeze]
  cases cs with
  | nil => rfl
  | cons c cs =>
    cases hc : isBlank c with
    | false => simp [hc]
    | true => simp [hc, h c hc, h ' ' isBlank_space]

theorem head?_squeeze_isWord {cs : List Char} (h : ∀ c ∈ cs.head?, isWord c = false) :
    ∀ c ∈ (squeeze cs).head?, isWord c = false := by
  intro c hc
  rw [head?_squeeze, Option.mem_def, Option.map_eq_some_iff] at hc
  obtain ⟨d, hd, rfl⟩ := hc
  split
  · rfl
  · exact h d hd

theorem all_squeeze (h : ∀ c, isBlank c → p c = false) (cs : List Char) :
    (squeeze cs).all p = cs.all p := by
  induction cs with
  | nil => rfl
  | cons c cs ih =>
    cases hc : isBlank c with
    | false => rw [squeeze_solid hc, List.all_cons, List.all_cons, ih]
    | true =>
      obtain ⟨rest, hrest⟩ := exists_squeeze_blank hc cs
      simp [hrest, h c hc, h ' ' isBlank_space]

theorem squeeze_eq_append (h : ∀ c ∈ word, isBlank c = false)
    (hs : squeeze cs = word ++ tail) : ∃ rest, cs = word ++ rest ∧ squeeze rest = tail := by
  induction word generalizing cs with
  | nil => exact ⟨cs, rfl, hs⟩
  | cons w ws ih =>
    rw [List.forall_mem_cons] at h
    cases cs with
    | nil => cases hs
    | cons c cs =>
      cases hc : isBlank c with
      | false =>
        rw [squeeze_solid hc] at hs
        obtain ⟨rfl, htail⟩ := List.cons.inj hs
        obtain ⟨rest, rfl, hrest⟩ := ih h.2 htail
        exact ⟨rest, rfl, hrest⟩
      | true =>
        obtain ⟨tail', htail⟩ := exists_squeeze_blank hc cs
        rw [htail] at hs
        obtain ⟨rfl, -⟩ := List.cons.inj hs
        cases h.1

end Ends

section Cuts
variable {σ : Type} {stops : σ → Char → Option Char → Bool} {next : σ → Char → σ} {s : σ}
  {cs before after : List Char} {c opening closing : Char}

/-- A cut that no blank stops or tells from another. -/
structure CutBetweenBlanks (stops : σ → Char → Option Char → Bool) (next : σ → Char → σ) :
    Prop where
  solid : ∀ s c look, isBlank c → stops s c look = false
  look : ∀ s c d, isBlank d → stops s c (some d) = stops s c (some ' ')
  alike : ∀ s c, isBlank c → next s c = next s ' '
  idle : ∀ s, next (next s ' ') ' ' = next s ' '

/-- Both sides of a cut with one space for every run of blanks. -/
def squeezeCut (cut : List Char × List Char) : List Char × List Char :=
  (squeeze cut.1, squeeze cut.2)

theorem cutBy_blank (h : CutBetweenBlanks stops next) (hc : isBlank c) :
    cutBy stops next s (c :: cs) = (cutBy stops next (next s ' ') cs).map (consInside c) := by
  rw [cutBy, if_neg (by simp [h.solid s c _ hc]), h.alike s c hc]

/-- Blanks in front are passed over. -/
theorem CutBetweenBlanks.cutBy_blanks_append {lead : List Char} (h : CutBetweenBlanks stops next)
    (hs : next s ' ' = s) (hlead : ∀ c ∈ lead, isBlank c) (cs : List Char) :
    cutBy stops next s (lead ++ cs) =
      (cutBy stops next s cs).map fun cut => (lead ++ cut.1, cut.2) := by
  induction lead with
  | nil => simp
  | cons c lead ih =>
    rw [List.forall_mem_cons] at hlead
    rw [List.cons_append, cutBy_blank h hlead.1, hs, ih hlead.2, Option.map_map]
    rfl

theorem head?_cutBy (h : CutBetweenBlanks stops next)
    (hcut : cutBy stops next s cs = some (before, after)) :
    before.head?.any isBlank = cs.head?.any isBlank := by
  cases cs with
  | nil => cases hcut
  | cons c cs =>
    rw [cutBy] at hcut
    split at hcut
    · next hstop =>
      cases hcut
      cases hc : isBlank c with
      | false => simp [hc]
      | true => cases (h.solid s c _ hc).symm.trans hstop
    · obtain ⟨_, _, hpair⟩ := Option.map_eq_some_iff.1 hcut
      cases hpair
      rfl

/-- A cut between blanks is made at the same character however the blanks are laid out. -/
theorem cutBy_squeeze (h : CutBetweenBlanks stops next) (s : σ) (cs : List Char) :
    cutBy stops next s (squeeze cs) = (cutBy stops next s cs).map squeezeCut := by
  induction cs generalizing s with
  | nil => rfl
  | cons c cs ih =>
    cases hc : isBlank c with
    | false =>
      have hstops : stops s c (squeeze cs).head? = stops s c cs.head? := by
        rw [head?_squeeze]
        cases cs with
        | nil => rfl
        | cons d ds =>
          cases hd : isBlank d with
          | false => simp [hd]
          | true => simp [hd, h.look s c d hd]
      rw [squeeze_solid hc, cutBy, cutBy, hstops]
      split
      · rfl
      · rw [ih, Option.map_map, Option.map_map]
        congr 1
        funext cut
        simp [consInside, squeezeCut, squeeze_solid hc]
    | true =>
      have hcons : ∀ cut ∈ cutBy stops next (next s ' ') cs, squeezeCut (consInside c cut) =
          if cs.head?.any isBlank then squeezeCut cut else consInside ' ' (squeezeCut cut) :=
        fun cut hcut => by
          rw [← head?_cutBy h (Option.mem_def.1 hcut), squeezeCut, consInside, squeeze_blank hc]
          split <;> rfl
      rw [cutBy_blank h hc, squeeze_blank hc, Option.map_map]
      split
      · next hnext =>
        have hidle : cutBy stops next s (squeeze cs) =
            cutBy stops next (next s ' ') (squeeze cs) := by
          obtain ⟨d, ds, rfl⟩ : ∃ d ds, cs = d :: ds := by
            cases cs with
            | nil => cases hnext
            | cons d ds => exact ⟨d, ds, rfl⟩
          obtain ⟨tail, htail⟩ := exists_squeeze_blank (by simpa using hnext) ds
          rw [htail, cutBy_blank h isBlank_space, cutBy_blank h isBlank_space, h.idle]
        rw [hidle, ih]
        refine Option.map_congr fun cut hcut => ?_
        rw [Function.comp_apply, hcons cut hcut, if_pos hnext]
      · next hnext =>
        rw [cutBy_blank h isBlank_space, ih, Option.map_map]
        refine Option.map_congr fun cut hcut => ?_
        rw [Function.comp_apply, Function.comp_apply, hcons cut hcut, if_neg hnext]

/-- Characters in front that the cut passes over idly go into its front part. -/
theorem cutBy_dropWhile {p : Char → Bool}
    (hp : ∀ c look, p c → stops s c look = false ∧ next s c = s) (cs : List Char) :
    cutBy stops next s (cs.dropWhile p) =
      (cutBy stops next s cs).map fun cut => (cut.1.dropWhile p, cut.2) := by
  induction cs with
  | nil => rfl
  | cons c cs ih =>
    rw [List.dropWhile_cons]
    split
    · next hc =>
      rw [ih, cutBy, if_neg (by simp [(hp c cs.head? hc).1]), (hp c none hc).2, Option.map_map]
      congr 1
      funext cut
      simp [consInside, hc]
    · next hc =>
      rw [cutBy]
      split
      · rfl
      · rw [Option.map_map]
        congr 1
        funext cut
        simp [consInside, hc]

theorem CutBetweenBlanks.cutBy_trimStart (h : CutBetweenBlanks stops next) (hs : next s ' ' = s)
    (cs : List Char) : cutBy stops next s (trimStart cs) =
      (cutBy stops next s cs).map fun cut => (trimStart cut.1, cut.2) :=
  cutBy_dropWhile (fun c look hc => ⟨h.solid s c look hc, (h.alike s c hc).trans hs⟩) cs

theorem groups_between_blanks (hopen : isBlank opening = false) (hclose : isBlank closing = false) :
    CutBetweenBlanks (groupStops closing) (groupNext opening closing) where
  solid s c look hc := by simp [groupStops, ne_of_holds hc hclose]
  look s c d _ := rfl
  alike s c hc := by
    simp [groupNext, ne_of_holds hc hclose, ne_of_holds hc hopen,
      ne_of_holds isBlank_space hclose, ne_of_holds isBlank_space hopen]
  idle s := by
    simp [groupNext, ne_of_holds isBlank_space hclose, ne_of_holds isBlank_space hopen]

theorem splitGroup_squeeze (hopen : isBlank opening = false) (hclose : isBlank closing = false)
    (hne : opening ≠ closing) (depth : Nat) (cs : List Char) :
    splitGroup opening closing depth (squeeze cs) =
      (splitGroup opening closing depth cs).map squeezeCut := by
  rw [splitGroup_eq_cutBy hne, splitGroup_eq_cutBy hne,
    cutBy_squeeze (groups_between_blanks hopen hclose)]

theorem splitGroup_braces_squeeze (depth : Nat) (cs : List Char) :
    splitGroup '{' '}' depth (squeeze cs) = (splitGroup '{' '}' depth cs).map squeezeCut :=
  splitGroup_squeeze (by decide) (by decide) (by decide) depth cs

theorem parens_between_blanks : CutBetweenBlanks parenStops parenNext where
  solid s c look hc := by simp [parenStops, ne_of_holds (d := '(') hc (by decide)]
  look s c d _ := rfl
  alike s c hc := by
    simp [parenNext, ne_of_holds (d := '<') hc (by decide), ne_of_holds (d := '>') hc (by decide),
      ne_of_holds (d := '-') hc (by decide)]
  idle s := by simp [parenNext]

end Cuts

section Pieces
variable {p : Char → Bool} {c : Char}

/-- A piece starts where the text does. -/
theorem splitTopLevelFrom_head (n : Nesting) (previous : Option Char) (cs : List Char) :
    ∃ q qs, splitTopLevelFrom (· == ',') n previous cs = q :: qs ∧
      q.head?.any isBlank = cs.head?.any isBlank := by
  have hconsFirst : ∀ c ps, ∃ q qs, consFirst c ps = q :: qs ∧ q.head? = some c := fun c ps => by
    cases ps with
    | nil => exact ⟨[c], [], rfl, rfl⟩
    | cons p ps => exact ⟨c :: p, ps, rfl, rfl⟩
  cases cs with
  | nil => exact ⟨[], [], rfl, rfl⟩
  | cons c cs =>
    rw [splitTopLevelFrom]
    split
    · next n' _ =>
      obtain ⟨q, qs, hq, hhead⟩ := hconsFirst c (splitTopLevelFrom (· == ',') n' (some c) cs)
      exact ⟨q, qs, hq, by rw [hhead]; rfl⟩
    · split
      · next hsep =>
        have hc : c = ',' := by
          rw [Bool.and_eq_true] at hsep
          exact eq_of_beq hsep.1
        exact ⟨[], _, rfl, by rw [hc]; rfl⟩
      · obtain ⟨q, qs, hq, hhead⟩ := hconsFirst c (splitTopLevelFrom (· == ',') n (some c) cs)
        exact ⟨q, qs, hq, by rw [hhead]; rfl⟩

theorem map_squeeze_consFirst (hc : isBlank c = false) (ps : List (List Char)) :
    (consFirst c ps).map squeeze = consFirst c (ps.map squeeze) := by
  cases ps with
  | nil => simp [consFirst, squeeze_solid hc]
  | cons p ps => simp [consFirst, squeeze_solid hc]

/-- A blank is part of the piece it stands in. -/
theorem splitTopLevelFrom_blank (hc : isBlank c) (n : Nesting) (previous : Option Char)
    (cs : List Char) : splitTopLevelFrom (· == ',') n previous (c :: cs) =
      consFirst c (splitTopLevelFrom (· == ',') n none cs) := by
  have hne : ∀ {d}, isBlank d = false → c ≠ d := fun hd => ne_of_holds hc hd
  have hbracket : c ∉ brackets := fun hmem => by
    have hsolid : brackets.all (!isBlank ·) := by decide
    simpa [hc] using List.all_eq_true.1 hsolid c hmem
  rw [splitTopLevelFrom, bracket?_eq_none hbracket]
  simp only [beq_eq_false_iff_ne.2 (hne (d := ',') (by decide)), Bool.false_and,
    Bool.false_eq_true, if_false]
  rw [splitTopLevelFrom_previous (by simpa using hne (d := '-') (by decide))]

theorem splitTopLevelFrom_squeeze (n : Nesting) (previous : Option Char) (cs : List Char) :
    splitTopLevelFrom (· == ',') n previous (squeeze cs) =
      (splitTopLevelFrom (· == ',') n previous cs).map squeeze := by
  induction cs generalizing n previous with
  | nil => rfl
  | cons c cs ih =>
    cases hc : isBlank c with
    | false =>
      rw [squeeze_solid hc, splitTopLevelFrom, splitTopLevelFrom]
      split
      · rw [ih, map_squeeze_consFirst hc]
      · split
        · rw [ih]
          rfl
        · rw [ih, map_squeeze_consFirst hc]
    | true =>
      obtain ⟨q, qs, hq, hhead⟩ := splitTopLevelFrom_head n none cs
      have hnone := ih n none
      rw [hq] at hnone
      rw [splitTopLevelFrom_blank hc, hq, consFirst, List.map_cons, squeeze_blank hc,
        squeeze_blank hc, hhead]
      split
      · next hnext =>
        have hprevious : splitTopLevelFrom (· == ',') n previous (squeeze cs) =
            splitTopLevelFrom (· == ',') n none (squeeze cs) := by
          obtain ⟨d, ds, rfl⟩ : ∃ d ds, cs = d :: ds := by
            cases cs with
            | nil => cases hnext
            | cons d ds => exact ⟨d, ds, rfl⟩
          obtain ⟨rest, hrest⟩ := exists_squeeze_blank (by simpa using hnext) ds
          rw [hrest, splitTopLevelFrom_blank isBlank_space, splitTopLevelFrom_blank isBlank_space]
        rw [hprevious, hnone, List.map_cons]
      · rw [splitTopLevelFrom_blank isBlank_space, hnone, List.map_cons, consFirst]

theorem fields_cons_eq_consFirst (h : p c = false) (cs : List Char) :
    fields p (c :: cs) = consFirst c (fields p cs) := by
  rw [fields, if_neg (by simp [h])]
  rfl

/-- A separator that is no blank cuts at the same characters. -/
theorem fields_squeeze (h : ∀ c, isBlank c → p c = false) (cs : List Char) :
    fields p (squeeze cs) = (fields p cs).map squeeze := by
  induction cs with
  | nil => rfl
  | cons c cs ih =>
    cases hc : isBlank c with
    | false =>
      rw [squeeze_solid hc]
      cases hp : p c with
      | true => rw [fields_cons_of_pos hp, fields_cons_of_pos hp, ih, List.map_cons, squeeze_nil]
      | false =>
        rw [fields_cons_eq_consFirst hp, fields_cons_eq_consFirst hp, ih, map_squeeze_consFirst hc]
    | true =>
      obtain ⟨f, fs, hfs, hcons⟩ := fields_cons_of_neg cs (h c hc)
      have hhead : f.head?.any isBlank = cs.head?.any isBlank := by
        cases cs with
        | nil =>
          cases hfs
          rfl
        | cons d ds =>
          cases hd : p d with
          | true =>
            rw [fields_cons_of_pos hd] at hfs
            cases hfs
            cases hblank : isBlank d with
            | false => simp [hblank]
            | true => cases hd.symm.trans (h d hblank)
          | false =>
            obtain ⟨g, gs, -, hg⟩ := fields_cons_of_neg ds hd
            cases hfs.symm.trans hg
            rfl
      rw [hcons, List.map_cons, squeeze_blank hc, squeeze_blank hc, hhead]
      rw [hfs, List.map_cons] at ih
      split
      · exact ih
      · rw [fields_cons_eq_consFirst (h ' ' isBlank_space), ih, consFirst]

theorem words_squeeze (cs : List Char) : words (squeeze cs) = words cs := by
  have hword : ∀ cs, ∃ f fs gs, fields isBlank cs = f :: fs ∧
      fields isBlank (squeeze cs) = f :: gs ∧
      fs.filter (!·.isEmpty) = gs.filter (!·.isEmpty) := fun cs => by
    induction cs with
    | nil => exact ⟨[], [], [], rfl, rfl, rfl⟩
    | cons c cs ih =>
      obtain ⟨f, fs, gs, hf, hg, hfilter⟩ := ih
      cases hc : isBlank c with
      | false =>
        rw [squeeze_solid hc, fields_cons_eq_consFirst hc, fields_cons_eq_consFirst hc, hf, hg]
        exact ⟨c :: f, fs, gs, rfl, rfl, hfilter⟩
      | true =>
        rw [squeeze_blank hc, fields_cons_of_pos hc, hf]
        split
        · next hnext =>
          have hnil : f = [] := by
            cases cs with
            | nil => cases hnext
            | cons d ds =>
              rw [fields_cons_of_pos (by simpa using hnext)] at hf
              exact (List.cons.inj hf).1.symm
          rw [hg]
          exact ⟨[], f :: fs, gs, rfl, by rw [hnil], by simp [hnil, hfilter]⟩
        · rw [fields_cons_of_pos isBlank_space, hg]
          refine ⟨[], f :: fs, f :: gs, rfl, rfl, ?_⟩
          rw [List.filter_cons, List.filter_cons, hfilter]
  obtain ⟨f, fs, gs, hf, hg, hfilter⟩ := hword cs
  rw [words, words, hf, hg, List.filter_cons, List.filter_cons, hfilter]

end Pieces

section Infixes
variable {pat cs : List Char}

/-- What has no blanks stands in a text however the blanks are laid out. -/
theorem infix_squeeze (hsolid : ∀ c ∈ pat, isBlank c = false) (hne : pat ≠ []) :
    pat <:+: squeeze cs ↔ pat <:+: cs := by
  have hstarts : ∀ cs, pat <+: squeeze cs ↔ pat <+: cs := fun cs => by
    constructor
    · rintro ⟨rest, hrest⟩
      obtain ⟨tail, rfl, -⟩ := squeeze_eq_append hsolid hrest.symm
      exact List.prefix_append _ _
    · rintro ⟨rest, rfl⟩
      rw [squeeze_append_of_solid hsolid]
      exact List.prefix_append _ _
  induction cs with
  | nil => rfl
  | cons c cs ih =>
    cases hc : isBlank c with
    | false =>
      rw [squeeze_solid hc, List.infix_cons_iff, List.infix_cons_iff, ← squeeze_solid hc]
      exact or_congr (hstarts _) ih
    | true =>
      have hblank : ∀ {d ds}, isBlank d → ¬ pat <+: d :: ds := fun {d ds} hd => by
        obtain ⟨e, es, rfl⟩ := List.exists_cons_of_ne_nil hne
        rw [List.cons_prefix_cons]
        rintro ⟨rfl, -⟩
        cases hd.symm.trans (hsolid _ List.mem_cons_self)
      rw [List.infix_cons_iff, squeeze_blank hc]
      split
      · simp [ih, hblank hc]
      · simp [List.infix_cons_iff, ih, hblank hc, hblank isBlank_space]

theorem infix_append_blanks (hsolid : ∀ c ∈ pat, isBlank c = false) (hne : pat ≠ [])
    {lead tail : List Char} (hlead : ∀ c ∈ lead, isBlank c) (htail : ∀ c ∈ tail, isBlank c) :
    pat <:+: lead ++ cs ++ tail ↔ pat <:+: cs := by
  have hblanks : ∀ {b : List Char}, (∀ c ∈ b, isBlank c) → ¬ pat <:+: b := fun {b} hb h => by
    obtain ⟨c, rest, rfl⟩ := List.exists_cons_of_ne_nil hne
    have hmem := h.subset List.mem_cons_self
    cases (hb c hmem).symm.trans (hsolid c List.mem_cons_self)
  have hnot : ∀ {c}, isBlank c → c ∉ pat := fun {c} hc hmem => by
    cases hc.symm.trans (hsolid c hmem)
  have hend : ∀ a, pat <:+: a ++ tail ↔ pat <:+: a := fun a => by
    cases tail with
    | nil => rw [List.append_nil]
    | cons c tail =>
      rw [List.forall_mem_cons] at htail
      rw [infix_append_cons (hnot htail.1) hne, or_iff_left (hblanks htail.2)]
  rw [hend]
  rcases List.eq_nil_or_concat' lead with rfl | ⟨lead, c, rfl⟩
  · rw [List.nil_append]
  · rw [List.forall_mem_append] at hlead
    rw [List.append_assoc, List.singleton_append,
      infix_append_cons (hnot (hlead.2 c List.mem_cons_self)) hne, or_iff_right (hblanks hlead.1)]

theorem infix_trim (hsolid : ∀ c ∈ pat, isBlank c = false) (hne : pat ≠ []) :
    pat <:+: trim cs ↔ pat <:+: cs := by
  obtain ⟨lead, tail, hcs, hlead, htail, -⟩ := trim_split cs
  conv_rhs => rw [hcs]
  exact (infix_append_blanks hsolid hne hlead htail).symm

end Infixes

section Spaces
variable {cs : List Char} {c : Char}

theorem trimStart_append_cons (h : isBlank c = false) (a b : List Char) :
    trimStart (a ++ c :: b) = trimStart a ++ c :: b := by
  induction a with
  | nil => exact trimStart_eq_self (by simpa using h)
  | cons d a ih =>
    rw [List.cons_append, trimStart, trimStart, List.dropWhile_cons, List.dropWhile_cons]
    split
    · exact ih
    · rfl

theorem trimEnd_cons (h : isBlank c = false) (cs : List Char) :
    trimEnd (c :: cs) = c :: trimEnd cs := by
  rw [trimEnd, trimEnd, dropEndWhile]
  split
  · next hnil => rw [if_neg (by simp [h]), hnil]
  · next hne => rw [hne]

theorem trimEnd_append_cons (h : isBlank c = false) (a b : List Char) :
    trimEnd (a ++ c :: b) = a ++ c :: trimEnd b := by
  rw [trimEnd, dropEndWhile_append_of_ne_nil (dropEndWhile_cons_ne_nil h), ← trimEnd,
    trimEnd_cons h]

theorem trim_append_cons (h : isBlank c = false) (a b : List Char) :
    trim (a ++ c :: b) = trimStart a ++ c :: trimEnd b := by
  rw [trim, trimStart_append_cons h, trimEnd_append_cons h]

theorem trim_append_blanks {tail : List Char} (htail : ∀ c ∈ tail, isBlank c)
    (cs : List Char) :
    trim (cs ++ tail) = trim cs := by
  have hblanks : trimStart tail = [] := List.dropWhile_eq_nil_iff.2 htail
  rw [trim, trim, trimStart, List.dropWhile_append, ← trimStart, ← trimStart, hblanks]
  split
  · next hnil =>
    rw [List.isEmpty_iff] at hnil
    rw [hnil]
  · exact dropEndWhile_append_of_all htail

theorem trim_eq_nil {tail : List Char} (htail : ∀ c ∈ tail, isBlank c) : trim tail = [] :=
  trim_append_blanks htail []

/-- Blanks before a character are one space. -/
theorem squeeze_gap {gap : List Char} (hgap : ∀ d ∈ gap, isBlank d) (hne : gap ≠ [])
    (hc : isBlank c = false) : squeeze (gap ++ [c]) = [' ', c] := by
  obtain ⟨b, gap, rfl⟩ := List.exists_cons_of_ne_nil hne
  have hrun := List.forall_mem_cons.1 hgap
  have hgone : trimStart gap = [] := List.dropWhile_eq_nil_iff.2 hrun.2
  rw [List.cons_append, squeeze_run hrun.1, trimStart_append_cons hc, hgone, List.nil_append,
    squeeze_solid hc, squeeze_nil]

/-- Words with a space before each. -/
def spaced (ws : List (List Char)) : List Char := ws.flatMap (' ' :: ·)

theorem joinWith_eq_spaced (w : List Char) (ws : List (List Char)) :
    joinWith [' '] (w :: ws) = w ++ spaced ws := by
  induction ws generalizing w with
  | nil => simp [joinWith, spaced]
  | cons v ws ih => simp [joinWith, ih, spaced]

/-- Behind its first run a text goes on with its other words, or ends. -/
theorem trimEnd_squeeze_eq (cs : List Char) : ∃ f fs, fields isBlank cs = f :: fs ∧
    trimEnd (squeeze cs) = f ++ spaced (fs.filter (!·.isEmpty)) ∧
    (f = [] ↔ ∀ c ∈ cs.head?, isBlank c) := by
  induction cs with
  | nil => exact ⟨[], [], rfl, rfl, by simp⟩
  | cons c cs ih =>
    obtain ⟨f, fs, hf, hs, hhead⟩ := ih
    cases hc : isBlank c with
    | false =>
      refine ⟨c :: f, fs, ?_, ?_, by simp [hc]⟩
      · rw [fields, if_neg (by simp [hc]), hf]
      · rw [squeeze_solid hc, trimEnd_cons hc, hs, List.cons_append]
    | true =>
      refine ⟨[], f :: fs, by rw [fields, if_pos hc, hf], ?_, by simp [hc]⟩
      have hspace : trimEnd (' ' :: squeeze cs) =
          if trimEnd (squeeze cs) = [] then [] else ' ' :: trimEnd (squeeze cs) := by
        rw [trimEnd, trimEnd, dropEndWhile]
        split
        · next hnil => rw [if_pos hnil]; rfl
        · next hne => rw [hne]; rfl
      rw [squeeze_blank hc, List.nil_append]
      by_cases hnil : f = []
      · subst hnil
        have hblank := hhead.1 rfl
        cases cs with
        | nil =>
          cases hf
          rfl
        | cons d ds =>
          rw [if_pos (by simpa using hblank), hs]
          rfl
      · have hblank := hhead.not.1 hnil
        have hnext : ¬ cs.head?.any isBlank := by
          cases cs <;> simp_all
        rw [if_neg hnext, hspace, hs, if_neg (by simp [hnil])]
        simp [spaced, hnil]

/-- Words with single spaces between them are the squeezed text without its ends. -/
theorem normalizeSpaces_eq (cs : List Char) : normalizeSpaces cs = trim (squeeze cs) := by
  have hwords : words cs = words (trimStart cs) := by
    have h := List.takeWhile_append_dropWhile (p := isBlank) (l := cs)
    rw [← trimStart] at h
    conv_lhs => rw [← h]
    exact words_blanks_append fun c hc => List.mem_takeWhile_imp hc
  obtain ⟨f, fs, hf, hs, hhead⟩ := trimEnd_squeeze_eq (trimStart cs)
  have hstart := List.head?_dropWhile_not isBlank cs
  rw [← trimStart] at hstart
  rw [normalizeSpaces, hwords, words, hf, trim, trimStart_squeeze, hs]
  by_cases hnil : f = []
  · have hempty : trimStart cs = [] := by
      cases hcs : trimStart cs with
      | nil => rfl
      | cons d ds => simp_all
    rw [hempty] at hf
    cases hf
    rfl
  · rw [List.filter_cons, if_pos (by simpa using hnil), joinWith_eq_spaced]

theorem trim_trimEnd_squeeze (cs : List Char) :
    trim (trimEnd (squeeze cs)) = normalizeSpaces cs := by
  obtain ⟨tail, hsplit, htail, -⟩ := dropEndWhile_split isBlank (squeeze cs)
  rw [normalizeSpaces_eq]
  conv_rhs => rw [hsplit, trim_append_blanks htail]
  rfl

theorem mem_of_mem_normalizeSpaces (hc : isBlank c = false) (h : c ∈ normalizeSpaces cs) :
    c ∈ cs := by
  rw [normalizeSpaces_eq, trim] at h
  rw [← mem_squeeze hc]
  exact (List.dropWhile_suffix _).subset ((prefix_dropEndWhile _ _).subset h)

theorem normalizeSpaces_trim (cs : List Char) : normalizeSpaces (trim cs) = normalizeSpaces cs := by
  obtain ⟨lead, tail, hcs, hlead, htail, -⟩ := trim_split cs
  rw [normalizeSpaces, normalizeSpaces]
  conv_rhs => rw [hcs, words_append_blanks htail, words_blanks_append hlead]

theorem mem_trim_of_mem {c : Char} {cs : List Char} (hc : isBlank c = false) (h : c ∈ cs) :
    c ∈ trim cs := by
  obtain ⟨a, b, rfl⟩ := List.append_of_mem h
  rw [trim_append_cons hc]
  exact List.mem_append_right _ List.mem_cons_self

/-- What is no blank stands in some word of the text. -/
theorem mem_normalizeSpaces (hc : isBlank c = false) : c ∈ normalizeSpaces cs ↔ c ∈ cs := by
  refine ⟨mem_of_mem_normalizeSpaces hc, fun hmem => ?_⟩
  rw [normalizeSpaces_eq]
  exact mem_trim_of_mem hc ((mem_squeeze hc).2 hmem)

theorem exists_mem_words (hc : isBlank c = false) (hmem : c ∈ cs) : ∃ w ∈ words cs, c ∈ w := by
  by_contra hnone
  push Not at hnone
  have hsep : ∀ d ∈ [' '], d ≠ c := by
    rintro d hd rfl
    rw [List.mem_singleton.1 hd] at hc
    cases hc
  have hall : ∀ d ∈ joinWith [' '] (words cs), d ≠ c :=
    forall_mem_joinWith hsep fun w hw d hd heq => hnone w hw (heq ▸ hd)
  exact hall c ((mem_normalizeSpaces hc).2 hmem) rfl

end Spaces

section Bodies
variable {cs inside rest : List Char}

/-- What stands for a group before the text after it. -/
def bodyMark (after : List Char) : List Char :=
  match (trimStart after).head? with
  | some ',' | some '{' => []
  | _ => [';']

theorem stripBodies_group_none (h : splitGroup '{' '}' 0 cs = none) :
    stripBodies ('{' :: cs) = [] := by
  rw [stripBodies, if_pos (by decide)]
  split
  · rfl
  · next hsome => cases h.symm.trans hsome

theorem stripBodies_group (h : splitGroup '{' '}' 0 cs = some (inside, rest)) :
    stripBodies ('{' :: cs) = bodyMark rest ++ stripBodies rest := by
  rw [stripBodies, if_pos (by decide), bodyMark]
  split
  · next hnone => cases h.symm.trans hnone
  · next hsome =>
    cases h.symm.trans hsome
    generalize (trimStart rest).head? = first
    split
    · rfl
    · rfl
    · simp

theorem bodyMark_append (h : bodyMark b = [';']) (a : List Char) :
    bodyMark (a ++ b) = bodyMark a := by
  have hend : bodyMark [] = [';'] := rfl
  induction a with
  | nil => rw [List.nil_append, h, hend]
  | cons c a ih =>
    cases hc : isBlank c with
    | true =>
      have hcons : ∀ cs, bodyMark (c :: cs) = bodyMark cs := fun cs => by
        rw [bodyMark, bodyMark, trimStart, List.dropWhile_cons_of_pos hc, trimStart]
      rw [List.cons_append, hcons, hcons, ih]
    | false =>
      have hcons : ∀ cs, trimStart (c :: cs) = c :: cs := fun cs =>
        trimStart_eq_self (by simpa using hc)
      rw [List.cons_append, bodyMark, bodyMark, hcons, hcons]
      rfl

theorem bodyMark_blanks_append {gap : List Char} (h : ∀ c ∈ gap, isBlank c) (cs : List Char) :
    bodyMark (gap ++ cs) = bodyMark cs := by
  rw [bodyMark, bodyMark, trimStart, List.dropWhile_append_of_pos h, trimStart]

theorem bodyMark_squeeze (cs : List Char) : bodyMark (squeeze cs) = bodyMark cs := by
  have hhead : (trimStart (squeeze cs)).head? = (trimStart cs).head? := by
    rw [trimStart_squeeze, head?_squeeze]
    cases hcs : trimStart cs with
    | nil => rfl
    | cons c rest =>
      have hc := List.head?_dropWhile_not isBlank cs
      rw [← trimStart, hcs] at hc
      have hc : isBlank c = false := by simpa using hc
      simp [hc]
  rw [bodyMark, bodyMark, hhead]

/-- Behind a text whose braces are closed, bodies are taken out as if the text started there. -/
theorem stripBodies_append (ha : bracesBalanced a) (hb : bodyMark b = [';']) :
    stripBodies (a ++ b) = stripBodies a ++ stripBodies b := by
  refine balanced_induction ?_ ?_ ?_ ha
  · simp [stripBodies]
  · intro inside rest hinside _ ih
    have hcut := splitGroup_of_balanced hinside rest
    have hcut' := splitGroup_of_balanced hinside (rest ++ b)
    rw [List.cons_append, List.append_assoc, List.cons_append, stripBodies_group hcut',
      stripBodies_group hcut, bodyMark_append hb, ih, List.append_assoc]
  · intro c cs hopen _ _ ih
    rw [List.cons_append, stripBodies_cons hopen, stripBodies_cons hopen, ih, List.cons_append]

/-- What replaces the bodies leaves the layout of the rest alone. -/
theorem squeeze_stripBodies (cs : List Char) :
    squeeze (stripBodies (squeeze cs)) = squeeze (stripBodies cs) := by
  induction hn : cs.length using Nat.strong_induction_on generalizing cs with
  | _ n ih =>
    subst hn
    cases cs with
    | nil => rfl
    | cons c cs =>
      have hcs := ih cs.length (Nat.lt_succ_self _) cs rfl
      cases hc : isBlank c with
      | false =>
        rw [squeeze_solid hc]
        rcases eq_or_ne c '{' with rfl | hopen
        · cases hcut : splitGroup '{' '}' 0 cs with
          | none =>
            have hnone : splitGroup '{' '}' 0 (squeeze cs) = none := by
              rw [splitGroup_braces_squeeze, hcut]
              rfl
            rw [stripBodies_group_none hcut, stripBodies_group_none hnone]
          | some cut =>
            have hsome : splitGroup '{' '}' 0 (squeeze cs) =
                some (squeeze cut.1, squeeze cut.2) := by
              rw [splitGroup_braces_squeeze, hcut]
              rfl
            have hlength := splitGroup_length hcut
            have hafter := ih cut.2.length (by simp only [List.length_cons]; omega) cut.2 rfl
            rw [stripBodies_group hcut, stripBodies_group hsome, bodyMark_squeeze]
            exact squeeze_append_congr rfl hafter
        · rw [stripBodies_cons hopen, stripBodies_cons hopen, squeeze_solid hc, squeeze_solid hc,
            hcs]
      | true =>
        rw [stripBodies_cons (ne_of_holds hc (by decide)), squeeze_blank hc]
        split
        · next hnext =>
          have hhead : (stripBodies cs).head?.any isBlank := by
            cases cs with
            | nil => cases hnext
            | cons d ds =>
              have hd : isBlank d := by simpa using hnext
              rw [stripBodies_cons (ne_of_holds hd (by decide))]
              exact hnext
          rw [hcs, squeeze_blank hc, if_pos hhead]
        · rw [stripBodies_cons (by decide)]
          exact squeeze_cons_blank_congr isBlank_space hc hcs

end Bodies

end TestSynth.Text
