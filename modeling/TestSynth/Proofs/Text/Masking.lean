import Mathlib
import TestSynth.Proofs.Text.Words
import TestSynth.Text.Masking
/-!
Masking goes on behind a piece of text as it would at the start of one, and what comments and
literals hold leaves no trace but its length and its newlines.
-/
namespace TestSynth.Text

/-- What the end of a text belongs to that is masked from `region` on. -/
def regionAfter : Region → Option Char → List Char → Region
  | region, _, [] => region
  | .code, _, '/' :: '/' :: cs => regionAfter .lineComment (some '/') cs
  | .code, _, '/' :: '*' :: cs => regionAfter .blockComment (some '*') cs
  | .code, _, '"' :: cs => regionAfter (.literal '"') (some '"') cs
  | .code, previous, '\'' :: cs =>
    regionAfter (if groupsDigits previous cs then .code else .literal '\'') (some '\'') cs
  | .code, _, c :: cs => regionAfter .code (some c) cs
  | .lineComment, _, c :: cs =>
    regionAfter (if c == '\n' then .code else .lineComment) (some c) cs
  | .blockComment, _, '*' :: '/' :: cs => regionAfter .code (some '/') cs
  | .blockComment, _, c :: cs => regionAfter .blockComment (some c) cs
  | .literal quote, _, ['\\'] => .literal quote
  | .literal quote, _, '\\' :: c :: cs => regionAfter (.literal quote) (some c) cs
  | .literal quote, _, c :: cs =>
    regionAfter (if c == quote || c == '\n' then .code else .literal quote) (some c) cs

attribute [local simp] maskFrom regionAfter

section Seams
variable {region : Region} {previous p q : Option Char} {a b cs : List Char}

/-- No slash at the end of the first text opens a comment with the second. -/
def Unjoined (a b : List Char) : Prop :=
  a.getLast? = some '/' → b.head? ≠ some '/' ∧ b.head? ≠ some '*'

theorem Unjoined.tail {c : Char} (h : Unjoined (c :: a) b) : Unjoined a b := fun hlast =>
  h (by rw [List.getLast?_cons, hlast, Option.getD_some])

/-- A character that opens nothing in code. -/
theorem maskFrom_code_cons {c : Char} (hquote : c ≠ '"') (hgroup : c ≠ '\'')
    (hslash : c = '/' → cs.head? ≠ some '/' ∧ cs.head? ≠ some '*') :
    maskFrom .code previous (c :: cs) = c :: maskFrom .code (some c) cs := by
  rw [maskFrom]
  · rintro xs rfl rfl
    simp at hslash
  · rintro xs rfl rfl
    simp at hslash
  · exact hquote
  · exact hgroup

/-- A character that closes nothing in a block comment. -/
theorem maskFrom_blockComment_cons {c : Char} (h : c = '*' → cs.head? ≠ some '/') :
    maskFrom .blockComment previous (c :: cs) =
      blankOut c :: maskFrom .blockComment (some c) cs := by
  rw [maskFrom]
  rintro xs rfl rfl
  simp at h

/-- A character that escapes nothing in a literal. -/
theorem maskFrom_literal_cons {quote c : Char} (h : c ≠ '\\') :
    maskFrom (.literal quote) previous (c :: cs) =
      if c == quote then quote :: maskFrom .code (some c) cs
      else blankOut c :: maskFrom (if c == '\n' then .code else .literal quote) (some c) cs := by
  rw [maskFrom]
  · exact fun hc => absurd hc h
  · exact fun _ _ hc => absurd hc h

/-- Where a text ends in code, masking goes on in code behind it, unless a slash at the end opens a
comment with what follows. -/
theorem maskFrom_seam (h : regionAfter region previous a = .code) (hseam : Unjoined a b) :
    maskFrom region previous (a ++ b) =
      maskFrom region previous a ++ maskFrom .code (a.getLast?.or previous) b := by
  fun_induction regionAfter region previous a with
  | case1 =>
    rw [h]
    simp
  | case2 previous cs ih | case3 previous cs ih | case8 previous cs ih =>
    simp only [List.cons_append, maskFrom, ih h hseam.tail.tail, getLast?_cons_or]
  | case4 previous cs ih =>
    simp only [List.cons_append, maskFrom, ih h hseam.tail, getLast?_cons_or]
  | case5 previous cs ih =>
    have hgroup : groupsDigits previous (cs ++ b) = groupsDigits previous cs := by
      cases cs with
      | nil => simp [groupsDigits] at h
      | cons c cs => rfl
    simp only [List.cons_append, maskFrom, hgroup, ih h hseam.tail, getLast?_cons_or]
  | case6 previous c cs hline hblock hquote hgroup ih =>
    have hslash : c = '/' → (cs ++ b).head? ≠ some '/' ∧ (cs ++ b).head? ≠ some '*' := by
      rintro rfl
      cases cs with
      | nil => exact hseam rfl
      | cons d ds => simpa using And.intro (hline ds rfl) (hblock ds rfl)
    have hslash' : c = '/' → cs.head? ≠ some '/' ∧ cs.head? ≠ some '*' := by
      rintro rfl
      cases cs with
      | nil => simp
      | cons d ds => simpa using hslash rfl
    rw [List.cons_append, maskFrom_code_cons hquote hgroup hslash,
      maskFrom_code_cons hquote hgroup hslash', ih h hseam.tail, getLast?_cons_or, List.cons_append]
  | case7 previous c cs ih =>
    simp only [List.cons_append, maskFrom, ih h hseam.tail, getLast?_cons_or]
  | case9 previous c cs hclose ih =>
    obtain ⟨d, ds, rfl⟩ : ∃ d ds, cs = d :: ds := by
      cases cs with
      | nil => simp at h
      | cons d ds => exact ⟨d, ds, rfl⟩
    have hstar : ∀ rest, c = '*' → (d :: rest).head? ≠ some '/' := fun rest hc => by
      simpa using hclose ds hc
    rw [List.cons_append, List.cons_append, maskFrom_blockComment_cons (hstar _),
      maskFrom_blockComment_cons (hstar _), ← List.cons_append, ih h hseam.tail,
      getLast?_cons_or c (d :: ds), List.cons_append]
  | case10 => cases h
  | case11 quote previous c cs ih =>
    simp only [List.cons_append, maskFrom, ih h hseam.tail.tail, getLast?_cons_or]
  | case12 quote previous c cs hend hescape ih =>
    have hc : c ≠ '\\' := by
      rintro rfl
      cases cs with
      | nil => exact hend rfl rfl
      | cons d ds => exact hescape d ds rfl rfl
    rw [List.cons_append, maskFrom_literal_cons hc, maskFrom_literal_cons hc]
    have hcs := ih h hseam.tail
    by_cases hquote : c == quote
    · rw [hquote, Bool.true_or, if_pos rfl] at hcs
      simp only [hquote, if_true, hcs, getLast?_cons_or, List.cons_append]
    · rw [Bool.eq_false_iff.2 hquote, Bool.false_or] at hcs
      simp only [hquote, hcs, getLast?_cons_or, List.cons_append, Bool.false_eq_true, if_false]

theorem maskFrom_append (h : regionAfter region previous a = .code)
    (hlast : a.getLast? ≠ some '/') :
    maskFrom region previous (a ++ b) =
      maskFrom region previous a ++ maskFrom .code (a.getLast?.or previous) b :=
  maskFrom_seam h (absurd · hlast)

/-- In code the character before the text matters for the grouping of digits only. -/
theorem maskFrom_previous (h : p.any Char.isAlphanum = q.any Char.isAlphanum) :
    maskFrom .code p cs = maskFrom .code q cs := by
  unfold maskFrom
  split <;> simp_all [groupsDigits]

end Seams

section Insides
variable {previous : Option Char} {a b cs : List Char}

/-- Text that opens no comment and no literal stays, and leaves the text after it as it is. -/
theorem maskFrom_code_append (h : ∀ c ∈ a, c ≠ '/' ∧ c ≠ '"' ∧ c ≠ '\'') :
    maskFrom .code previous (a ++ b) = a ++ maskFrom .code (a.getLast?.or previous) b := by
  induction a generalizing previous with
  | nil => simp
  | cons c cs ih =>
    rw [List.forall_mem_cons] at h
    obtain ⟨⟨hslash, hquote, hgroup⟩, hcs⟩ := h
    rw [List.cons_append, maskFrom_code_cons hquote hgroup (absurd · hslash), ih hcs,
      getLast?_cons_or, List.cons_append]

theorem regionAfter_code (h : ∀ c ∈ a, c ≠ '/' ∧ c ≠ '"' ∧ c ≠ '\'') :
    regionAfter .code previous a = .code := by
  induction a generalizing previous with
  | nil => rfl
  | cons c cs ih =>
    rw [List.forall_mem_cons] at h
    obtain ⟨⟨hslash, hquote, hgroup⟩, hcs⟩ := h
    rw [regionAfter]
    · exact ih hcs
    · exact fun _ hc => absurd hc hslash
    · exact fun _ hc => absurd hc hslash
    · exact hquote
    · exact hgroup

theorem stripComments_eq_self (h : ∀ c ∈ cs, c ≠ '/' ∧ c ≠ '"' ∧ c ≠ '\'') :
    stripComments cs = cs := by
  have hcs : maskFrom .code none (cs ++ []) = _ := maskFrom_code_append h
  simpa [stripComments] using hcs

/-- A block comment ends at the first mark that closes it. -/
theorem maskFrom_blockComment (h : ¬ ['*', '/'] <:+: cs) :
    maskFrom .blockComment previous (cs ++ '*' :: '/' :: b) =
      cs.map blankOut ++ ' ' :: ' ' :: maskFrom .code (some '/') b := by
  induction cs generalizing previous with
  | nil => simp
  | cons c cs ih =>
    have hstar : c = '*' → (cs ++ '*' :: '/' :: b).head? ≠ some '/' := by
      rintro rfl
      cases cs with
      | nil => simp
      | cons d ds =>
        rintro heq
        obtain rfl : d = '/' := by simpa using heq
        exact h ⟨[], ds, rfl⟩
    have hcs : ¬ ['*', '/'] <:+: cs := fun hcs => h (List.infix_cons hcs)
    rw [List.cons_append, maskFrom_blockComment_cons hstar, ih hcs]
    rfl

/-- A line comment ends at its newline. -/
theorem maskFrom_lineComment (h : '\n' ∉ cs) :
    maskFrom .lineComment previous (cs ++ '\n' :: b) =
      cs.map blankOut ++ '\n' :: maskFrom .code (some '\n') b := by
  induction cs generalizing previous with
  | nil => simp [blankOut]
  | cons c cs ih =>
    rw [List.mem_cons, not_or] at h
    simp [Ne.symm h.1, ih h.2]

/-- A literal without escapes ends at its quote. -/
theorem maskFrom_literal (h : ∀ c ∈ cs, c ≠ '"' ∧ c ≠ '\\' ∧ c ≠ '\n') :
    maskFrom (.literal '"') previous (cs ++ '"' :: b) =
      cs.map blankOut ++ '"' :: maskFrom .code (some '"') b := by
  induction cs generalizing previous with
  | nil =>
    rw [List.nil_append, maskFrom_literal_cons (by decide)]
    rfl
  | cons c cs ih =>
    rw [List.forall_mem_cons] at h
    obtain ⟨⟨hquote, hescape, hline⟩, hcs⟩ := h
    rw [List.cons_append, maskFrom_literal_cons hescape]
    simp [hquote, hline, ih hcs]

end Insides

section Lines
variable {region : Region} {previous : Option Char} {a b cs : List Char}
  {continuing : Bool} {lines after : List (List Char)}

/-- Every newline stays in its place. -/
theorem map_newline_maskFrom (region : Region) (previous : Option Char) (cs : List Char) :
    (maskFrom region previous cs).map (· == '\n') = cs.map (· == '\n') := by
  have hblank : ∀ c, (blankOut c == '\n') = (c == '\n') := fun c => by
    unfold blankOut
    split <;> simp_all
  fun_induction maskFrom region previous cs with
  | case12 quote previous c cs _ _ hquote ih =>
    obtain rfl := eq_of_beq hquote
    simp [ih]
  | _ => simp_all

theorem getLast?_newline_iff {cs : List Char} :
    cs.getLast? = some '\n' ↔ (cs.map (· == '\n')).getLast? = some true := by
  simp

theorem getLast?_stripComments (h : a.getLast? = some '\n') :
    (stripComments a).getLast? = some '\n' := by
  rw [getLast?_newline_iff, stripComments, map_newline_maskFrom, ← getLast?_newline_iff, h]

@[simp]
theorem flatten_linesWithEnds (cs : List Char) : (linesWithEnds cs).flatten = cs := by
  fun_induction linesWithEnds cs <;> simp_all

theorem linesWithEnds_ne_nil {c : Char} : linesWithEnds (c :: cs) ≠ [] := by
  rw [linesWithEnds]
  split
  · simp
  · split <;> simp

/-- A newline at the end of a text ends a line. -/
theorem linesWithEnds_append (h : a.getLast? = some '\n') :
    linesWithEnds (a ++ b) = linesWithEnds a ++ linesWithEnds b := by
  induction a with
  | nil => cases h
  | cons c cs ih =>
    cases cs with
    | nil =>
      obtain rfl : c = '\n' := by simpa using h
      simp [linesWithEnds]
    | cons d ds =>
      have hds := ih (by simpa using h)
      have hne : linesWithEnds (d :: ds) ≠ [] := linesWithEnds_ne_nil
      obtain ⟨l, ls, hlines⟩ := List.exists_cons_of_ne_nil hne
      rw [List.cons_append, linesWithEnds, linesWithEnds, hds, hlines]
      split <;> rfl

/-- Whether the line after these lines goes on with a directive. -/
def continuesDirective : Bool → List (List Char) → Bool
  | continuing, [] => continuing
  | continuing, line :: lines =>
    continuesDirective ((continuing || (trimStart line).head? == some '#') &&
      endsWith ['\\'] (trimEnd (dropEndWhile isLineEnd line))) lines

theorem blankDirectiveLines_append :
    blankDirectiveLines continuing (lines ++ after) =
      blankDirectiveLines continuing lines ++
        blankDirectiveLines (continuesDirective continuing lines) after := by
  induction lines generalizing continuing with
  | nil => rfl
  | cons line lines ih =>
    rw [List.cons_append, blankDirectiveLines, blankDirectiveLines, continuesDirective]
    split
    · next h => simp [h, ih]
    · next h => simp [h, ih]

theorem head?_trimStart_ne {line : List Char} {c : Char} (h : c ∉ line) :
    (trimStart line).head? ≠ some c := fun he =>
  h ((List.dropWhile_suffix _).subset (List.mem_of_mem_head? he))

theorem blankDirectiveLines_eq_flatten (h : ∀ line ∈ lines, '#' ∉ line) :
    blankDirectiveLines false lines = lines.flatten := by
  induction lines with
  | nil => rfl
  | cons line lines ih =>
    rw [List.forall_mem_cons] at h
    have hhead := head?_trimStart_ne h.1
    simp [blankDirectiveLines, hhead, ih h.2]

/-- Text without comments, literals and directives is not masked. -/
theorem blankPreprocessor_eq_self (h : '#' ∉ cs) : blankPreprocessor cs = cs := by
  have hlines : ∀ line ∈ linesWithEnds cs, '#' ∉ line := fun line hline hmem =>
    h (flatten_linesWithEnds cs ▸ List.mem_flatten_of_mem hline hmem)
  rw [blankPreprocessor, blankDirectiveLines_eq_flatten hlines, flatten_linesWithEnds]

theorem sanitize_eq_self (h : ∀ c ∈ cs, c ≠ '/' ∧ c ≠ '"' ∧ c ≠ '\'')
    (hdirective : '#' ∉ cs) : sanitize cs = cs := by
  rw [sanitize, stripComments_eq_self h, blankPreprocessor_eq_self hdirective]

theorem continuesDirective_eq_false (h : ∀ line ∈ lines, '#' ∉ line) :
    continuesDirective false lines = false := by
  induction lines with
  | nil => rfl
  | cons line lines ih =>
    rw [List.forall_mem_cons] at h
    have hhead := head?_trimStart_ne h.1
    rw [continuesDirective, beq_eq_false_iff_ne.2 hhead, Bool.false_or, Bool.false_and, ih h.2]

theorem continuesDirective_append :
    continuesDirective continuing (lines ++ after) =
      continuesDirective (continuesDirective continuing lines) after := by
  induction lines generalizing continuing with
  | nil => rfl
  | cons line lines ih => rw [List.cons_append, continuesDirective, continuesDirective, ih]

/-- A text is one line if no newline stands before its last character. -/
theorem linesWithEnds_eq_singleton (h : '\n' ∉ a.dropLast) (hne : a ≠ []) :
    linesWithEnds a = [a] := by
  induction a with
  | nil => exact absurd rfl hne
  | cons c cs ih =>
    cases cs with
    | nil => cases hc : c == '\n' <;> simp [linesWithEnds, hc]
    | cons d ds =>
      rw [List.dropLast_cons_cons, List.mem_cons, not_or] at h
      have hc : (c == '\n') = false := by simpa using Ne.symm h.1
      rw [linesWithEnds, ih h.2 (List.cons_ne_nil _ _), hc]
      rfl

/-- A newline behind the last line of a text changes nothing but its end. -/
theorem blankDirectiveLines_newline (ha : '\n' ∉ a)
    (hcontinues : continuesDirective continuing (linesWithEnds a) = false) :
    blankDirectiveLines continuing ((a ++ ['\n']) :: lines) =
      blankDirectiveLines continuing (linesWithEnds a) ++
        '\n' :: blankDirectiveLines false lines := by
  cases a with
  | nil =>
    cases hcontinues
    rfl
  | cons c cs =>
    have hbody : dropEndWhile isLineEnd (c :: cs ++ ['\n']) = dropEndWhile isLineEnd (c :: cs) :=
      dropEndWhile_append_of_all (by simp [isLineEnd])
    have hhead : (trimStart (c :: cs ++ ['\n'])).head? = (trimStart (c :: cs)).head? := by
      rw [trimStart, trimStart, List.dropWhile_append]
      split
      · next hnil => rw [List.isEmpty_iff.1 hnil]; rfl
      · next hnil => rw [List.head?_append_of_ne_nil _ (by simpa using hnil)]
    rw [linesWithEnds_eq_singleton (fun h => ha (List.mem_of_mem_dropLast h))
      (List.cons_ne_nil _ _)] at hcontinues ⊢
    rw [continuesDirective, continuesDirective] at hcontinues
    rw [blankDirectiveLines, blankDirectiveLines, hbody, hhead]
    split
    · next hdirective =>
      rw [hdirective, Bool.true_and] at hcontinues
      dsimp only
      rw [hcontinues, List.drop_append_of_le_length (prefix_dropEndWhile isLineEnd _).length_le]
      simp [blankDirectiveLines]
    · simp [blankDirectiveLines]

/-- Behind a text whose last line is no directive that goes on, lines are read anew. -/
theorem blankPreprocessor_line (h : continuesDirective false (linesWithEnds a) = false) :
    blankPreprocessor (a ++ '\n' :: b) = blankPreprocessor a ++ '\n' :: blankPreprocessor b := by
  obtain ⟨last, ha, hlast, hfront⟩ := dropEndWhile_split (· != '\n') a
  generalize dropEndWhile (· != '\n') a = front at ha hfront
  subst ha
  have hlines : ∀ cs, linesWithEnds (front ++ cs) = linesWithEnds front ++ linesWithEnds cs := by
    intro cs
    cases hend : front.getLast? with
    | none => rw [List.getLast?_eq_none_iff.1 hend]; rfl
    | some c => exact linesWithEnds_append (by simpa [hend] using hfront c hend)
  have hnot : '\n' ∉ last := fun hmem => by simpa using hlast _ hmem
  have hnext : linesWithEnds (last ++ '\n' :: b) = (last ++ ['\n']) :: linesWithEnds b := by
    rw [List.append_cons, linesWithEnds_append (List.getLast?_concat ..),
      linesWithEnds_eq_singleton (by simpa using hnot) (by simp)]
    rfl
  rw [hlines, continuesDirective_append] at h
  rw [blankPreprocessor, List.append_assoc, hlines, hnext, blankDirectiveLines_append,
    blankDirectiveLines_newline hnot h, blankPreprocessor, hlines, blankDirectiveLines_append,
    List.append_assoc, blankPreprocessor]

/-- Where a line of code ends, masking starts anew. -/
theorem sanitize_append (hcode : regionAfter .code none a = .code)
    (hline : a.getLast? = some '\n')
    (hdirective : continuesDirective false (linesWithEnds (stripComments a)) = false) :
    sanitize (a ++ b) = sanitize a ++ sanitize b := by
  have hstrip : stripComments (a ++ b) = stripComments a ++ stripComments b := by
    rw [stripComments, maskFrom_append hcode (by simp [hline]), hline]
    exact congrArg _ (maskFrom_previous rfl)
  rw [sanitize, hstrip, blankPreprocessor, linesWithEnds_append (getLast?_stripComments hline),
    blankDirectiveLines_append, hdirective]
  rfl

/-- Behind a text that ends in code and in no directive that goes on, so does the next line. -/
theorem sanitize_line (hcode : regionAfter .code none a = .code)
    (hdirective : continuesDirective false (linesWithEnds (stripComments a)) = false) :
    sanitize (a ++ '\n' :: b) = sanitize a ++ '\n' :: sanitize b := by
  have hstrip : stripComments (a ++ '\n' :: b) = stripComments a ++ '\n' :: stripComments b := by
    rw [stripComments, maskFrom_seam hcode (fun _ => by simp),
      maskFrom_code_cons (by decide) (by decide) (by simp)]
    exact congrArg (stripComments a ++ '\n' :: ·) (maskFrom_previous rfl)
  rw [sanitize, hstrip, blankPreprocessor_line hdirective]
  rfl

end Lines

section Prefixes
variable {a b : List Char} {c : Char}

/-- The prefixes that say how the characters of a literal are encoded. -/
def encodingPrefixes : List String := ["L", "u", "U", "u8"]

/-- A text that ends in code, with such a prefix as its last token. -/
structure EndsInPrefix (a : List Char) : Prop where
  code : regionAfter .code none a = .code
  token : ∃ front, ∃ word ∈ encodingPrefixes, a = front ++ word.toList ∧
    ∀ c ∈ front.getLast?, isWord c = false

theorem EndsInPrefix.getLast? (h : EndsInPrefix a) : ∃ d ∈ a.getLast?, d.isAlphanum := by
  obtain ⟨front, word, hword, rfl, -⟩ := h.token
  simp only [encodingPrefixes, List.mem_cons, List.not_mem_nil, or_false] at hword
  rcases hword with rfl | rfl | rfl | rfl
  · exact ⟨'L', by simp, by decide⟩
  · exact ⟨'u', by simp, by decide⟩
  · exact ⟨'U', by simp, by decide⟩
  · exact ⟨'8', by simp, by decide⟩

/-- An apostrophe in code, by what stands on both sides of it. -/
theorem stripComments_apostrophe (hcode : regionAfter .code none a = .code)
    (hlast : a.getLast? ≠ some '/') (b : List Char) :
    stripComments (a ++ '\'' :: b) = stripComments a ++ '\'' ::
      if groupsDigits a.getLast? b then stripComments b
      else maskFrom (.literal '\'') (some '\'') b := by
  have hafter : maskFrom .code (some '\'') b = stripComments b := maskFrom_previous rfl
  rw [stripComments, maskFrom_append hcode hlast, Option.or_none, maskFrom]
  split
  · rw [hafter]
    rfl
  · rfl

/-- A literal of one character is masked, and scanning goes on in code behind it. -/
theorem maskFrom_character (hc : c ≠ '\'' ∧ c ≠ '\\' ∧ c ≠ '\n') (b : List Char) :
    maskFrom (.literal '\'') (some '\'') (c :: '\'' :: b) = ' ' :: '\'' :: stripComments b := by
  obtain ⟨hquote, hescape, hline⟩ := hc
  have hafter : maskFrom .code (some '\'') b = stripComments b := maskFrom_previous rfl
  have hclose : maskFrom (.literal '\'') (some c) ('\'' :: b) = '\'' :: stripComments b := by
    rw [maskFrom_literal_cons (by decide), if_pos (by decide), hafter]
  rw [maskFrom_literal_cons hescape]
  simp [hquote, hline, blankOut, hclose]

/-- Behind a letter or a digit, an apostrophe groups digits in front of another one, and opens a
literal in front of anything else. -/
theorem stripComments_alphanum (hc : c.isAlphanum) (b : List Char) :
    stripComments (c :: '\'' :: b) = c :: '\'' ::
      if b.head?.any Char.isAlphanum then stripComments b
      else maskFrom (.literal '\'') (some '\'') b := by
  have hslash : c ≠ '/' := ne_of_holds hc (by decide)
  have hplain : ∀ d ∈ [c], d ≠ '/' ∧ d ≠ '"' ∧ d ≠ '\'' :=
    List.forall_mem_singleton.2
      ⟨hslash, ne_of_holds hc (by decide), ne_of_holds hc (by decide)⟩
  have happend := stripComments_apostrophe (regionAfter_code hplain) (by simpa using hslash) b
  rw [stripComments_eq_self hplain, List.singleton_append] at happend
  rw [happend]
  simp [groupsDigits, hc]

/-- A literal of one character behind an encoding prefix is masked like any other exactly if the
character is no ASCII letter or digit. If it is one, the first apostrophe groups digits and the
character stays; so does the second apostrophe in front of a letter or a digit, and otherwise it
opens a literal. -/
theorem stripComments_prefixed (h : EndsInPrefix a) (hc : c ≠ '\'' ∧ c ≠ '\\' ∧ c ≠ '\n')
    (b : List Char) :
    (stripComments (a ++ '\'' :: c :: '\'' :: b) =
        stripComments a ++ '\'' :: ' ' :: '\'' :: stripComments b ↔ c.isAlphanum = false) ∧
      (c.isAlphanum → stripComments (a ++ '\'' :: c :: '\'' :: b) =
        stripComments a ++ '\'' :: c :: '\'' ::
          if b.head?.any Char.isAlphanum then stripComments b
          else maskFrom (.literal '\'') (some '\'') b) := by
  obtain ⟨d, hd, halphanum⟩ := h.getLast?
  have hlast : a.getLast? ≠ some '/' := fun hslash => by
    cases hslash.symm.trans hd
    cases halphanum
  have hgroups : groupsDigits a.getLast? (c :: '\'' :: b) = c.isAlphanum := by
    rw [groupsDigits, Option.mem_def.1 hd]
    simp [halphanum]
  rw [stripComments_apostrophe h.code hlast, hgroups]
  cases hword : c.isAlphanum with
  | false =>
    rw [maskFrom_character hc]
    exact ⟨by simp, fun h => by cases h⟩
  | true =>
    rw [if_pos rfl, stripComments_alphanum hword]
    refine ⟨⟨fun heq => ?_, fun h => by cases h⟩, fun _ => rfl⟩
    obtain ⟨-, heq⟩ := List.append_inj heq rfl
    rw [List.cons.injEq, List.cons.injEq] at heq
    rw [heq.2.1] at hword
    cases hword

/-- A mark in the place of a letter is masked behind a prefix. -/
theorem stripComments_prefixed_brace :
    EndsInPrefix "wchar_t open = L".toList ∧ ('{' ≠ '\'' ∧ '{' ≠ '\\' ∧ '{' ≠ '\n') ∧
      stripComments ("wchar_t open = L".toList ++ '\'' :: '{' :: '\'' :: ";".toList) =
        stripComments "wchar_t open = L".toList ++
          '\'' :: ' ' :: '\'' :: stripComments ";".toList := by
  have h : EndsInPrefix "wchar_t open = L".toList :=
    { code := by decide +kernel
      token := ⟨"wchar_t open = ".toList, "L", by decide, by simp, by simp [isWord]⟩ }
  have hc : '{' ≠ '\'' ∧ '{' ≠ '\\' ∧ '{' ≠ '\n' := by decide
  exact ⟨h, hc, (stripComments_prefixed h hc _).1.2 rfl⟩

/-- A letter stays behind a prefix. -/
theorem stripComments_keeps_letter :
    EndsInPrefix ['L'] ∧ stripComments (['L'] ++ '\'' :: 'x' :: '\'' :: []) ≠
      stripComments ['L'] ++ '\'' :: ' ' :: '\'' :: stripComments [] :=
  ⟨⟨by decide, [], "L", by decide, rfl, by simp⟩, by decide +kernel⟩

end Prefixes

end TestSynth.Text
