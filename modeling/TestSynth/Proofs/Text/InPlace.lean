import Mathlib
import TestSynth.Proofs.Text.Masking
/-!
Masking happens in place: a character stays or becomes a space, and newlines stay newlines. What is
hidden is said without the scanner, by the comments and literals a text consists of and by the lines
that belong to a directive.
-/
namespace TestSynth.Text

section Characters
variable {a b cs ds : List Char} {c d e : Char}

/-- The character stays, or it is no newline and becomes a space. -/
def MasksTo (c d : Char) : Prop := d = c ∨ c ≠ '\n' ∧ d = ' '

theorem MasksTo.refl (c : Char) : MasksTo c c := .inl rfl

theorem MasksTo.trans (h : MasksTo c d) (h' : MasksTo d e) : MasksTo c e := by
  rcases h with rfl | ⟨hc, rfl⟩
  · exact h'
  · rcases h' with rfl | ⟨-, rfl⟩ <;> exact .inr ⟨hc, rfl⟩

theorem MasksTo.newline_iff (h : MasksTo c d) : d = '\n' ↔ c = '\n' := by
  rcases h with rfl | ⟨hc, rfl⟩
  · rfl
  · simp [hc]

theorem masksTo_blankOut (c : Char) : MasksTo c (blankOut c) := by
  by_cases hc : c = '\n'
  · subst hc
    exact .refl _
  · exact .inr ⟨hc, by simp [blankOut, hc]⟩

/-- Every character is masked or stays. -/
def MasksText (cs ds : List Char) : Prop := List.Forall₂ MasksTo cs ds

theorem MasksText.refl (cs : List Char) : MasksText cs cs :=
  List.forall₂_same.2 fun c _ => .refl c

theorem MasksText.trans (h : MasksText a b) (h' : MasksText b cs) : MasksText a cs := by
  induction h generalizing cs with
  | nil => exact h'
  | cons hc _ ih =>
    cases h' with
    | cons hd hrest => exact .cons (hc.trans hd) (ih hrest)

theorem masksText_maskFrom (region : Region) (previous : Option Char) (cs : List Char) :
    MasksText cs (maskFrom region previous cs) := by
  have hspace : ∀ {c : Char}, c ≠ '\n' → MasksTo c ' ' := fun hc => .inr ⟨hc, rfl⟩
  fun_induction maskFrom region previous cs with
  | case1 => exact .nil
  | case2 previous cs ih | case3 previous cs ih | case8 previous cs ih =>
    exact .cons (hspace (by decide)) (.cons (hspace (by decide)) ih)
  | case4 previous cs ih | case5 previous cs ih => exact .cons (.refl _) ih
  | case6 previous c cs _ _ _ _ ih => exact .cons (.refl c) ih
  | case7 previous c cs ih | case9 previous c cs _ ih => exact .cons (masksTo_blankOut c) ih
  | case10 => exact .cons (hspace (by decide)) .nil
  | case11 quote previous c cs ih =>
    exact .cons (hspace (by decide)) (.cons (masksTo_blankOut c) ih)
  | case12 quote previous c cs _ _ hquote ih =>
    obtain rfl := eq_of_beq hquote
    exact .cons (.refl c) ih
  | case13 quote previous c cs _ _ hquote ih => exact .cons (masksTo_blankOut c) ih

theorem MasksText.getElem? {i : Nat} (h : MasksText cs ds) (hc : cs[i]? = some c)
    (hd : ds[i]? = some d) : MasksTo c d := by
  induction h generalizing i with
  | nil => cases hc
  | cons hhead _ ih =>
    cases i with
    | zero =>
      cases hc
      cases hd
      exact hhead
    | succ i => exact ih hc hd

theorem MasksText.count_take (h : MasksText cs ds) (i : Nat) :
    (ds.take i).count '\n' = (cs.take i).count '\n' := by
  induction h generalizing i with
  | nil => rfl
  | cons hc _ ih =>
    cases i with
    | zero => rfl
    | succ i =>
      rw [List.take_succ_cons, List.take_succ_cons, List.count_cons, List.count_cons, ih]
      simp [hc.newline_iff]

end Characters

section Items
variable {previous : Option Char} {quote c : Char} {cut : Bool}
  {body content after rest : List Char}

/-- The inside of a literal with this quote: escapes of any character, and other characters but the
quote, a newline and the backslash. The text may be cut behind the backslash of an escape. -/
inductive Content (quote : Char) : Bool → List Char → Prop
  | nil : Content quote false []
  | cut : Content quote true ['\\']
  | escape {cut : Bool} {d : Char} {ds : List Char} : Content quote cut ds →
    Content quote cut ('\\' :: d :: ds)
  | char {cut : Bool} {d : Char} {ds : List Char} : d ≠ quote → d ≠ '\n' → d ≠ '\\' →
    Content quote cut ds → Content quote cut (d :: ds)

/-- What a source text consists of; comments and literals may be left open. -/
inductive Item where
  | plain (c : Char)
  | lineComment (body : List Char)
  | blockComment (body : List Char) (closed : Bool)
  | literal (quote : Char) (content : List Char) (closed : Bool)

def Item.text : Item → List Char
  | .plain c => [c]
  | .lineComment body => '/' :: '/' :: body
  | .blockComment body closed => '/' :: '*' :: (body ++ if closed then ['*', '/'] else [])
  | .literal quote content closed => quote :: (content ++ if closed then [quote] else [])

/-- Which characters of an item masking hides: those of a comment, and of a literal those between
the quotes. -/
def Item.hides : Item → List Bool
  | .plain _ => [false]
  | .lineComment body => true :: true :: body.map fun _ => true
  | .blockComment body closed =>
    true :: true :: ((body.map fun _ => true) ++ if closed then [true, true] else [])
  | .literal _ content closed =>
    false :: ((content.map fun _ => true) ++ if closed then [false] else [])

/-- An item between the character before it and the text after it. A line comment ends in front of
its newline, and so does a literal left open; a block comment ends at the first mark that closes it.
A plain character opens none of these. -/
def Item.Fits (previous : Option Char) (after : List Char) : Item → Prop
  | .plain c => c ≠ '"' ∧ (c = '\'' → groupsDigits previous after) ∧
    (c = '/' → after.head? ≠ some '/' ∧ after.head? ≠ some '*')
  | .lineComment body => '\n' ∉ body ∧ ∀ d ∈ after.head?, d = '\n'
  | .blockComment body closed => ¬ ['*', '/'] <:+: body ∧ (closed = false → after = [])
  | .literal quote content closed =>
    (quote = '"' ∨ quote = '\'' ∧
      groupsDigits previous ((content ++ if closed then [quote] else []) ++ after) = false) ∧
    ∃ cut, Content quote cut content ∧ (cut → closed = false ∧ after = []) ∧
      (closed = false → ∀ d ∈ after.head?, d = '\n')

/-- A sequence of items, each of which fits what stands around it. -/
inductive Lexes : Option Char → List Item → Prop
  | nil {previous : Option Char} : Lexes previous []
  | cons {previous : Option Char} {item : Item} {items : List Item} :
    item.Fits previous (items.flatMap Item.text) → Lexes item.text.getLast? items →
    Lexes previous (item :: items)

/-- A character under its flag. -/
def hide (c : Char) (hidden : Bool) : Char := if hidden then blankOut c else c

/-- A text under its flags. -/
def hideText (cs : List Char) (flags : List Bool) : List Char := cs.zipWith hide flags

theorem hideText_true (cs : List Char) : hideText cs (cs.map fun _ => true) = cs.map blankOut := by
  induction cs with
  | nil => rfl
  | cons c cs ih => simpa [hideText, hide] using ih

theorem length_hides (item : Item) : item.hides.length = item.text.length := by
  cases item with
  | plain c => rfl
  | lineComment body => simp [Item.hides, Item.text]
  | blockComment body closed => cases closed <;> simp [Item.hides, Item.text]
  | literal quote content closed => cases closed <;> simp [Item.hides, Item.text]

theorem hideText_append {a b : List Char} {fs gs : List Bool} (h : fs.length = a.length) :
    hideText (a ++ b) (fs ++ gs) = hideText a fs ++ hideText b gs :=
  List.zipWith_append h.symm

theorem maskFrom_newline :
    maskFrom .code previous ('\n' :: rest) = '\n' :: maskFrom .code (some '\n') rest :=
  maskFrom_code_cons (by decide) (by decide) (by simp)

theorem eq_nil_or_newline (h : ∀ d ∈ after.head?, d = '\n') :
    after = [] ∨ ∃ rest, after = '\n' :: rest := by
  cases after with
  | nil => exact .inl rfl
  | cons d rest =>
    rw [h d rfl]
    exact .inr ⟨rest, rfl⟩

/-- A line comment is masked up to the end of its line. -/
theorem maskFrom_lineComment_body (hbody : '\n' ∉ body) (hafter : ∀ d ∈ after.head?, d = '\n')
    (p : Option Char) : maskFrom .lineComment previous (body ++ after) =
      body.map blankOut ++ maskFrom .code p after := by
  rcases eq_nil_or_newline hafter with rfl | ⟨rest, rfl⟩
  · rw [List.append_nil, maskFrom, List.append_nil]
    induction body generalizing previous with
    | nil => rfl
    | cons c body ih =>
      rw [List.mem_cons, not_or] at hbody
      simp [maskFrom, Ne.symm hbody.1, ih hbody.2]
  · rw [maskFrom_lineComment hbody, maskFrom_newline]

/-- A block comment without its closing mark is masked to the end of the text. -/
theorem maskFrom_blockComment_open (h : ¬ ['*', '/'] <:+: body) :
    maskFrom .blockComment previous body = body.map blankOut := by
  induction body generalizing previous with
  | nil => rfl
  | cons c body ih =>
    have hstar : c = '*' → body.head? ≠ some '/' := by
      rintro rfl hhead
      obtain ⟨rest, rfl⟩ := List.head?_eq_some_iff.1 hhead
      exact h ⟨[], rest, rfl⟩
    rw [maskFrom_blockComment_cons hstar, ih fun hbody => h (List.infix_cons hbody), List.map_cons]

/-- The content of a literal is masked up to where it ends. -/
theorem Content.maskFrom (h : Content quote cut content) (hcut : cut → rest = []) :
    maskFrom (.literal quote) previous (content ++ rest) =
      content.map blankOut ++ maskFrom (.literal quote) (content.getLast?.or previous) rest := by
  induction h generalizing previous with
  | nil => rfl
  | cut =>
    obtain rfl := hcut rfl
    simp [Text.maskFrom, blankOut]
  | @escape cut d ds _ ih =>
    simp [Text.maskFrom, ih hcut, getLast?_cons_or, blankOut]
  | @char cut d ds hquote hline hescape _ ih =>
    rw [List.cons_append, maskFrom_literal_cons hescape, if_neg (by simpa using hquote),
      if_neg (by simpa using hline), ih hcut, getLast?_cons_or, List.map_cons, List.cons_append]

/-- In a literal, its quote ends it, and so does a newline. -/
theorem maskFrom_literal_end (hquote : quote ≠ '\\' ∧ quote ≠ '\n') (closed : Bool)
    (hafter : closed = false → ∀ d ∈ after.head?, d = '\n') (p : Option Char)
    (hp : closed → p = some quote) :
    maskFrom (.literal quote) previous ((if closed then [quote] else []) ++ after) =
      (if closed then [quote] else []) ++ maskFrom .code p after := by
  cases closed with
  | true =>
    rw [hp rfl]
    exact (maskFrom_literal_cons hquote.1).trans (if_pos (by simp))
  | false =>
    rcases eq_nil_or_newline (hafter rfl) with rfl | ⟨rest, rfl⟩
    · simp [maskFrom]
    · rw [maskFrom_newline]
      exact (maskFrom_literal_cons (by decide)).trans (if_neg (by simpa using hquote.2.symm))

/-- A quote that groups no digits opens a literal. -/
theorem maskFrom_quote (h : quote = '"' ∨ quote = '\'' ∧ groupsDigits previous rest = false) :
    maskFrom .code previous (quote :: rest) =
      quote :: maskFrom (.literal quote) (some quote) rest := by
  rcases h with rfl | ⟨rfl, hgroups⟩
  · rw [maskFrom]
  · rw [maskFrom, hgroups]
    rfl

/-- Of a literal all is hidden but its quotes. -/
theorem hideText_literal (quote : Char) (content : List Char) (closed : Bool) :
    hideText (Item.literal quote content closed).text (Item.literal quote content closed).hides =
      quote :: (content.map blankOut ++ if closed then [quote] else []) := by
  rw [Item.text, Item.hides, hideText, List.zipWith_cons_cons, ← hideText,
    hideText_append (List.length_map _), hideText_true]
  cases closed <;> rfl

/-- An item is masked by its flags, and masking goes on in code behind it. -/
theorem Item.Fits.maskFrom {item : Item} (h : item.Fits previous after) :
    maskFrom .code previous (item.text ++ after) =
      hideText item.text item.hides ++ maskFrom .code item.text.getLast? after := by
  cases item with
  | plain c =>
    obtain ⟨hquote, hgroup, hslash⟩ := h
    rcases eq_or_ne c '\'' with rfl | hc
    · simp [Item.text, Item.hides, hideText, hide, Text.maskFrom, hgroup rfl]
    · rw [Item.text, List.singleton_append, maskFrom_code_cons hquote hc hslash]
      rfl
  | lineComment body =>
    obtain ⟨hbody, hend⟩ := h
    rw [Item.text, List.cons_append, List.cons_append, Text.maskFrom,
      maskFrom_lineComment_body hbody hend, Item.hides, hideText, List.zipWith_cons_cons,
      List.zipWith_cons_cons, ← hideText, hideText_true]
    rfl
  | blockComment body closed =>
    obtain ⟨hbody, hend⟩ := h
    rw [Item.hides, hideText, Item.text, List.zipWith_cons_cons, List.zipWith_cons_cons,
      ← hideText, hideText_append (List.length_map _), hideText_true, List.cons_append,
      List.cons_append, Text.maskFrom]
    cases closed with
    | true =>
      have hmask : Text.maskFrom .blockComment (some '*') (body ++ '*' :: '/' :: after) = _ :=
        maskFrom_blockComment hbody
      simp [hideText, hide, blankOut, List.getLast?_cons, hmask]
    | false =>
      obtain rfl := hend rfl
      simp [maskFrom_blockComment_open hbody, hideText, hide, blankOut, Text.maskFrom]
  | literal quote content closed =>
    obtain ⟨hquote, cut, hcontent, hcut, hend⟩ := h
    have hchars : quote ≠ '\\' ∧ quote ≠ '\n' := by
      rcases hquote with rfl | ⟨rfl, -⟩ <;> decide
    have hempty : cut → (if closed then [quote] else []) ++ after = [] := by
      intro h
      obtain ⟨rfl, rfl⟩ := hcut h
      rfl
    have hlast : closed → (Item.literal quote content closed).text.getLast? = some quote := by
      rintro rfl
      simp [Item.text, List.getLast?_cons]
    rw [hideText_literal, Item.text, List.cons_append, maskFrom_quote hquote, List.append_assoc,
      hcontent.maskFrom hempty, maskFrom_literal_end hchars closed hend _ hlast,
      ← List.append_assoc]
    rfl

/-- The masked text is the text under the flags of its items. -/
theorem Lexes.maskFrom {items : List Item} (h : Lexes previous items) :
    maskFrom .code previous (items.flatMap Item.text) =
      hideText (items.flatMap Item.text) (items.flatMap Item.hides) := by
  induction h with
  | nil => rfl
  | cons hfits _ ih =>
    rw [List.flatMap_cons, List.flatMap_cons, hfits.maskFrom, ih, hideText_append (length_hides _)]

/-- A text holds no mark that closes a block comment, or a first one. -/
theorem exists_blockComment (cs : List Char) :
    ∃ body closed after, cs = (body ++ if closed then ['*', '/'] else []) ++ after ∧
      ¬ ['*', '/'] <:+: body ∧ (closed = false → after = []) := by
  induction cs with
  | nil => exact ⟨[], false, [], rfl, by simp, fun _ => rfl⟩
  | cons c cs ih =>
    by_cases hclose : c = '*' ∧ cs.head? = some '/'
    · obtain ⟨rfl, hhead⟩ := hclose
      obtain ⟨after, rfl⟩ := List.head?_eq_some_iff.1 hhead
      exact ⟨[], true, after, rfl, by simp, by simp⟩
    · obtain ⟨body, closed, after, rfl, hbody, hafter⟩ := ih
      refine ⟨c :: body, closed, after, rfl, ?_, hafter⟩
      rw [List.infix_cons_iff, not_or]
      refine ⟨?_, hbody⟩
      rintro ⟨rest, hrest⟩
      obtain ⟨rfl, rfl⟩ := List.cons.inj hrest
      exact hclose ⟨rfl, rfl⟩

/-- The content of a literal ends at its quote, at the end of the line or with the text. -/
theorem exists_content (quote : Char) (cs : List Char) :
    ∃ content cut after, cs = content ++ after ∧ Content quote cut content ∧
      (cut → after = []) ∧ ∀ d ∈ after.head?, d = quote ∨ d = '\n' := by
  induction hn : cs.length using Nat.strong_induction_on generalizing cs with
  | _ n ih =>
    subst hn
    cases cs with
    | nil => exact ⟨[], false, [], rfl, .nil, by simp, by simp⟩
    | cons c cs =>
      by_cases hend : c = quote ∨ c = '\n'
      · exact ⟨[], false, c :: cs, rfl, .nil, by simp, by simpa using hend⟩
      · rw [not_or] at hend
        rcases eq_or_ne c '\\' with rfl | hescape
        · cases cs with
          | nil => exact ⟨['\\'], true, [], rfl, .cut, by simp, by simp⟩
          | cons d cs =>
            obtain ⟨content, cut, after, rfl, hcontent, hrest⟩ :=
              ih cs.length (by simp only [List.length_cons]; omega) cs rfl
            exact ⟨'\\' :: d :: content, cut, after, rfl, .escape hcontent, hrest⟩
        · obtain ⟨content, cut, after, rfl, hcontent, hrest⟩ :=
            ih cs.length (Nat.lt_succ_self _) cs rfl
          exact ⟨c :: content, cut, after, rfl, .char hend.1 hend.2 hescape hcontent, hrest⟩

/-- A quote that opens a literal, with the literal it opens. -/
theorem exists_literal {cs : List Char}
    (hquote : quote = '"' ∨ quote = '\'' ∧ groupsDigits previous cs = false) :
    ∃ (item : Item) (after : List Char),
      item.Fits previous after ∧ quote :: cs = item.text ++ after ∧ item.text ≠ [] := by
  obtain ⟨content, cut, after, rfl, hcontent, hcut, hend⟩ := exists_content quote cs
  by_cases hclosed : after.head? = some quote
  · obtain ⟨rest, rfl⟩ := List.head?_eq_some_iff.1 hclosed
    have hnot : ¬ cut := fun h => by cases hcut h
    refine ⟨.literal quote content true, rest, ?_, by simp [Item.text], by simp [Item.text]⟩
    exact ⟨by simpa using hquote, cut, hcontent, fun h => absurd h hnot, by simp⟩
  · refine ⟨.literal quote content false, after, ?_, by simp [Item.text], by simp [Item.text]⟩
    refine ⟨by simpa using hquote, cut, hcontent, fun h => ⟨rfl, hcut h⟩, ?_⟩
    rintro - d hd
    exact (hend d hd).resolve_left fun hquote => hclosed (hquote ▸ hd)

/-- In front of any text stands an item that fits. -/
theorem exists_item (previous : Option Char) {cs : List Char} (h : cs ≠ []) :
    ∃ (item : Item) (after : List Char),
      item.Fits previous after ∧ cs = item.text ++ after ∧ item.text ≠ [] := by
  obtain ⟨c, cs, rfl⟩ := List.exists_cons_of_ne_nil h
  by_cases hslash : c = '/' ∧ cs.head? = some '/'
  · obtain ⟨rfl, hhead⟩ := hslash
    obtain ⟨cs, rfl⟩ := List.head?_eq_some_iff.1 hhead
    refine ⟨.lineComment (cs.takeWhile (· != '\n')), cs.dropWhile (· != '\n'), ⟨?_, ?_⟩, ?_, ?_⟩
    · intro hmem
      simpa using List.mem_takeWhile_imp hmem
    · intro d hd
      have hstop := List.head?_dropWhile_not (· != '\n') cs
      rw [Option.mem_def.1 hd] at hstop
      simpa using hstop
    · simp [Item.text]
    · simp [Item.text]
  · by_cases hstar : c = '/' ∧ cs.head? = some '*'
    · obtain ⟨rfl, hhead⟩ := hstar
      obtain ⟨cs, rfl⟩ := List.head?_eq_some_iff.1 hhead
      obtain ⟨body, closed, after, rfl, hfits⟩ := exists_blockComment cs
      exact ⟨.blockComment body closed, after, hfits, by simp [Item.text], by simp [Item.text]⟩
    · by_cases hquote : c = '"' ∨ c = '\'' ∧ groupsDigits previous cs = false
      · exact exists_literal hquote
      · rw [not_or] at hquote
        refine ⟨.plain c, cs, ⟨hquote.1, ?_, ?_⟩, rfl, by simp [Item.text]⟩
        · intro hc
          simpa [hc] using hquote.2
        · intro hc
          exact ⟨fun h => hslash ⟨hc, h⟩, fun h => hstar ⟨hc, h⟩⟩

/-- Every text consists of such items. -/
theorem exists_lexes (previous : Option Char) (cs : List Char) :
    ∃ items, Lexes previous items ∧ items.flatMap Item.text = cs := by
  induction hn : cs.length using Nat.strong_induction_on generalizing previous cs with
  | _ n ih =>
    subst hn
    by_cases hcs : cs = []
    · exact ⟨[], .nil, hcs.symm⟩
    · obtain ⟨item, after, hfits, rfl, hne⟩ := exists_item previous hcs
      have hlength := List.length_pos_iff.2 hne
      obtain ⟨items, hitems, rfl⟩ :=
        ih after.length (by simp only [List.length_append]; omega) item.text.getLast? after rfl
      exact ⟨item :: items, .cons hfits hitems, rfl⟩

end Items

section Directives
variable {k : Nat} {cs ds line : List Char} {lines masked source : List (List Char)}

/-- A text is masked line by line. -/
theorem MasksText.linesWithEnds (h : MasksText cs ds) :
    List.Forall₂ MasksText (linesWithEnds cs) (linesWithEnds ds) := by
  induction h with
  | nil => exact .nil
  | @cons c d cs ds hc _ ih =>
    rw [Text.linesWithEnds, Text.linesWithEnds]
    by_cases hnewline : c = '\n'
    · rw [if_pos (by simpa using hnewline), if_pos (by simpa [hc.newline_iff] using hnewline)]
      exact .cons (.cons hc .nil) ih
    · rw [if_neg (by simpa using hnewline), if_neg (by simpa [hc.newline_iff] using hnewline)]
      generalize Text.linesWithEnds cs = ls at ih
      generalize Text.linesWithEnds ds = ms at ih
      cases ih with
      | nil => exact .cons (.cons hc .nil) .nil
      | cons hline hlines => exact .cons (.cons hc hline) hlines

/-- What the lines are masked to are the lines of what they form. -/
theorem linesWithEnds_flatten (h : List.Forall₂ MasksText (linesWithEnds cs) lines) :
    linesWithEnds lines.flatten = lines := by
  have hlength : ∀ {ls ms : List (List Char)}, List.Forall₂ MasksText ls ms →
      ms.map List.length = ls.map List.length := by
    intro ls ms hms
    induction hms with
    | nil => rfl
    | cons hline _ ih => rw [List.map_cons, List.map_cons, ih, hline.length_eq]
  have hflatten : MasksText (linesWithEnds cs).flatten lines.flatten := List.rel_flatten h
  rw [flatten_linesWithEnds] at hflatten
  rw [List.eq_iff_flatten_eq, flatten_linesWithEnds]
  exact ⟨rfl, (hlength hflatten.linesWithEnds).trans (hlength h).symm⟩

/-- A text holds newlines only at the ends of its lines. -/
theorem not_mem_dropLast (h : line ∈ linesWithEnds cs) : '\n' ∉ line.dropLast := by
  fun_induction linesWithEnds cs generalizing line with
  | case1 => simp at h
  | case2 c cs hc ih =>
    rcases List.mem_cons.1 h with rfl | hrest
    · simp
    · exact ih hrest
  | case3 c cs hc hnil ih =>
    rw [List.mem_singleton.1 h]
    simp
  | case4 c cs hc l ls hlines ih =>
    rw [hlines] at ih
    rcases List.mem_cons.1 h with rfl | hrest
    · have hl := ih List.mem_cons_self
      cases l with
      | nil => simp
      | cons d ds =>
        rw [List.dropLast_cons_cons, List.mem_cons, not_or]
        exact ⟨by simpa using Ne.symm (by simpa using hc), hl⟩
    · exact ih (List.mem_cons_of_mem l hrest)

/-- A line of a directive: all but its end becomes spaces. -/
def blankLine (line : List Char) : List Char :=
  let body := dropEndWhile isLineEnd line
  body.map (fun _ => ' ') ++ line.drop body.length

/-- The lines behind those before, with the lines of directives blanked. -/
def blankedLines : Bool → List (List Char) → List (List Char)
  | _, [] => []
  | continuing, line :: lines =>
    (if continuing || (trimStart line).head? == some '#' then blankLine line else line) ::
      blankedLines (continuesDirective continuing [line]) lines

theorem blankDirectiveLines_eq (continuing : Bool) (lines : List (List Char)) :
    blankDirectiveLines continuing lines = (blankedLines continuing lines).flatten := by
  induction lines generalizing continuing with
  | nil => rfl
  | cons line lines ih =>
    rw [blankDirectiveLines, blankedLines, continuesDirective, continuesDirective]
    split
    · next h => simp [h, ih, blankLine]
    · next h => simp [h, ih]

theorem getElem?_blankedLines (continuing : Bool) (lines : List (List Char)) (k : Nat) :
    (blankedLines continuing lines)[k]? = lines[k]?.map fun line =>
      if continuesDirective continuing (lines.take k) || (trimStart line).head? == some '#' then
        blankLine line else line := by
  induction lines generalizing continuing k with
  | nil => rfl
  | cons line lines ih =>
    cases k with
    | zero => rfl
    | succ k =>
      rw [blankedLines, List.getElem?_cons_succ, List.getElem?_cons_succ, ih, List.take_succ_cons]
      rfl

theorem masksText_blankLine (h : '\n' ∉ line.dropLast) : MasksText line (blankLine line) := by
  obtain ⟨tail, hline, -, hlast⟩ := dropEndWhile_split isLineEnd line
  rw [blankLine]
  generalize dropEndWhile isLineEnd line = body at hline hlast
  subst hline
  have hbody : '\n' ∉ body := by
    intro hmem
    rcases List.eq_nil_or_concat' tail with rfl | ⟨front, c, rfl⟩
    · rw [List.append_nil] at h
      rcases List.eq_nil_or_concat' body with rfl | ⟨front, c, rfl⟩
      · simp at hmem
      · rw [List.dropLast_concat] at h
        obtain rfl : c = '\n' := by simpa [h, eq_comm] using hmem
        simpa [isLineEnd] using hlast '\n' (by simp)
    · rw [← List.append_assoc, List.dropLast_concat] at h
      exact h (List.mem_append_left _ hmem)
  rw [List.drop_left]
  refine List.rel_append ?_ (MasksText.refl tail)
  rw [List.forall₂_map_right_iff, List.forall₂_same]
  exact fun c hc => .inr ⟨fun heq => hbody (heq ▸ hc), rfl⟩

theorem masksText_blankedLines (h : ∀ line ∈ lines, '\n' ∉ line.dropLast) (continuing : Bool) :
    List.Forall₂ MasksText lines (blankedLines continuing lines) := by
  induction lines generalizing continuing with
  | nil => exact .nil
  | cons line lines ih =>
    rw [List.forall_mem_cons] at h
    rw [blankedLines]
    refine .cons ?_ (ih h.2 _)
    split
    · exact masksText_blankLine h.1
    · exact .refl line

/-- The lines of the text are those of the source, with directives blanked. -/
theorem linesWithEnds_blankPreprocessor (cs : List Char) :
    linesWithEnds (blankPreprocessor cs) = blankedLines false (linesWithEnds cs) := by
  rw [blankPreprocessor, blankDirectiveLines_eq]
  exact linesWithEnds_flatten (masksText_blankedLines (fun _ => not_mem_dropLast) false)

theorem masksText_blankPreprocessor (cs : List Char) : MasksText cs (blankPreprocessor cs) := by
  have hlines := masksText_blankedLines (fun line (h : line ∈ linesWithEnds cs) =>
    not_mem_dropLast h) false
  have hflatten : MasksText (linesWithEnds cs).flatten _ := List.rel_flatten hlines
  rwa [flatten_linesWithEnds, ← blankDirectiveLines_eq, ← blankPreprocessor] at hflatten

/-- The last character of the line that is no blank is a backslash. -/
def EndsInBackslash (line : List Char) : Prop := endsWith ['\\'] (trimEnd line)

/-- The lines of directives: those whose first character that is no blank is `#`, and each that
follows a line of a directive with a backslash at its end. What opens a directive is seen in one
list of lines and the backslashes in another. -/
inductive Directive (masked source : List (List Char)) : Nat → Prop
  | opens {k : Nat} {line : List Char} : masked[k]? = some line →
    (trimStart line).head? = some '#' → Directive masked source k
  | continues {k : Nat} {line : List Char} : Directive masked source k →
    source[k]? = some line → EndsInBackslash line → Directive masked source (k + 1)

theorem trimEnd_dropLineEnd (line : List Char) :
    trimEnd (dropEndWhile isLineEnd line) = trimEnd line := by
  obtain ⟨tail, hline, htail, -⟩ := dropEndWhile_split isLineEnd line
  have hblank : ∀ c ∈ tail, isBlank c := by
    intro c hc
    have hend := htail c hc
    simp only [isLineEnd, Bool.or_eq_true, beq_iff_eq] at hend
    rcases hend with rfl | rfl <;> decide
  conv_rhs => rw [hline]
  exact (dropEndWhile_append_of_all hblank).symm

/-- In one list of lines, a line belongs to a directive if the lines before it go on with one or it
opens one itself. -/
theorem directive_iff (hk : k < lines.length) :
    Directive lines lines k ↔
      continuesDirective false (lines.take k) ∨ (trimStart lines[k]).head? = some '#' := by
  induction k with
  | zero =>
    constructor
    · rintro (⟨hline, hhead⟩ | _)
      rw [List.getElem?_eq_getElem hk, Option.some.injEq] at hline
      exact .inr (hline ▸ hhead)
    · rintro (hcontinues | hhead)
      · cases hcontinues
      · exact .opens (List.getElem?_eq_getElem hk) hhead
  | succ k ih =>
    have hk' : k < lines.length := Nat.lt_of_succ_lt hk
    have hnext : continuesDirective false (lines.take (k + 1)) ↔
        Directive lines lines k ∧ EndsInBackslash lines[k] := by
      rw [List.take_succ_eq_append_getElem hk', continuesDirective_append, ih hk',
        continuesDirective, continuesDirective, trimEnd_dropLineEnd, EndsInBackslash]
      simp
    rw [hnext]
    constructor
    · rintro (⟨hline, hhead⟩ | ⟨hdirective, hline, hends⟩)
      · rw [List.getElem?_eq_getElem hk, Option.some.injEq] at hline
        exact .inr (hline ▸ hhead)
      · rw [List.getElem?_eq_getElem hk', Option.some.injEq] at hline
        exact .inl ⟨hdirective, hline ▸ hends⟩
    · rintro (⟨hdirective, hends⟩ | hhead)
      · exact .continues hdirective (List.getElem?_eq_getElem hk') hends
      · exact .opens (List.getElem?_eq_getElem hk) hhead

/-- Only the end of the line is left of it. -/
def Blanked (line : List Char) : Prop := ∀ c ∈ dropEndWhile isLineEnd line, c = ' '

theorem blanked_blankLine (line : List Char) : Blanked (blankLine line) := by
  obtain ⟨tail, hline, htail, -⟩ := dropEndWhile_split isLineEnd line
  have hdrop : blankLine line = (dropEndWhile isLineEnd line).map (fun _ => ' ') ++ tail := by
    rw [blankLine]
    generalize dropEndWhile isLineEnd line = body at hline
    rw [hline, List.drop_left]
  intro c hc
  rw [hdrop, dropEndWhile_append_of_all htail] at hc
  have hmem := (prefix_dropEndWhile isLineEnd _).subset hc
  obtain ⟨d, -, hd⟩ := List.mem_map.1 hmem
  exact hd.symm

/-- The lines of directives in the text are blanked and the others stay. -/
theorem getElem?_blankPreprocessor (cs : List Char) (k : Nat) :
    (Directive (linesWithEnds cs) (linesWithEnds cs) k →
      ∀ line ∈ (linesWithEnds (blankPreprocessor cs))[k]?, Blanked line) ∧
    (¬ Directive (linesWithEnds cs) (linesWithEnds cs) k →
      (linesWithEnds (blankPreprocessor cs))[k]? = (linesWithEnds cs)[k]?) := by
  rw [linesWithEnds_blankPreprocessor, getElem?_blankedLines]
  by_cases hk : k < (linesWithEnds cs).length
  · rw [directive_iff hk, List.getElem?_eq_getElem hk, Option.map_some]
    constructor
    · intro hdirective line hline
      rw [if_pos (by simpa using hdirective), Option.mem_some] at hline
      exact hline ▸ blanked_blankLine _
    · intro hdirective
      rw [if_neg (by simpa using hdirective)]
  · simp [List.getElem?_eq_none (Nat.le_of_not_lt hk)]

/-- Where masking keeps the backslashes at the ends of directive lines, the lines of directives are
the same in the source as in the masked text. -/
theorem Directive.of_source
    (hkeeps : ∀ k line line', Directive masked masked k → source[k]? = some line →
      masked[k]? = some line' → EndsInBackslash line → EndsInBackslash line')
    (hlength : source.length = masked.length) (h : Directive masked source k) :
    Directive masked masked k := by
  induction h with
  | opens hline hhead => exact .opens hline hhead
  | @continues k line _ hline hends ih =>
    have hk : k < masked.length := hlength ▸ (List.getElem?_eq_some_iff.1 hline).1
    have hline' := List.getElem?_eq_getElem hk
    exact .continues ih hline' (hkeeps k line _ ih hline hline' hends)

end Directives

/-- How a text is masked. The backslash at the end of a directive line is seen only where it stands
outside comments and literals. -/
theorem sanitize_in_place (cs : List Char) :
    (sanitize cs).length = cs.length ∧
    (∀ (i : Nat) (c d : Char), cs[i]? = some c → (sanitize cs)[i]? = some d →
      (d = c ∨ d = ' ') ∧ (d = '\n' ↔ c = '\n')) ∧
    (∀ i, ((sanitize cs).take i).count '\n' = (cs.take i).count '\n') ∧
    (∃ items, Lexes none items ∧ items.flatMap Item.text = cs) ∧
    (∀ items, Lexes none items → items.flatMap Item.text = cs →
      ∀ (i : Nat) (c : Char),
      (items.flatMap Item.hides)[i]? = some true → cs[i]? = some c → c ≠ '\n' →
        (sanitize cs)[i]? = some ' ') ∧
    List.Forall₂ MasksText (linesWithEnds cs) (linesWithEnds (sanitize cs)) ∧
    (∀ k, Directive (linesWithEnds (stripComments cs)) (linesWithEnds (stripComments cs)) k →
      ∀ line ∈ (linesWithEnds (sanitize cs))[k]?, Blanked line) ∧
    (∀ k, ¬ Directive (linesWithEnds (stripComments cs)) (linesWithEnds (stripComments cs)) k →
      (linesWithEnds (sanitize cs))[k]? = (linesWithEnds (stripComments cs))[k]?) ∧
    ((∀ k line line',
      Directive (linesWithEnds (stripComments cs)) (linesWithEnds (stripComments cs)) k →
      (linesWithEnds cs)[k]? = some line → (linesWithEnds (stripComments cs))[k]? = some line' →
        EndsInBackslash line → EndsInBackslash line') →
      ∀ k, Directive (linesWithEnds (stripComments cs)) (linesWithEnds cs) k →
        ∀ line ∈ (linesWithEnds (sanitize cs))[k]?, Blanked line) := by
  have hstrip : MasksText cs (stripComments cs) := masksText_maskFrom .code none cs
  have hblank : MasksText (stripComments cs) (sanitize cs) := masksText_blankPreprocessor _
  have hmasks := hstrip.trans hblank
  have hlines := getElem?_blankPreprocessor (stripComments cs)
  refine ⟨hmasks.length_eq.symm, ?_, hmasks.count_take, exists_lexes none cs, ?_,
    hmasks.linesWithEnds, fun k => (hlines k).1, fun k => (hlines k).2, ?_⟩
  · intro i c d hc hd
    have h := hmasks.getElem? hc hd
    exact ⟨h.imp_right And.right, h.newline_iff⟩
  · rintro items hitems rfl i c hhidden hc hnewline
    have hspace : (stripComments (items.flatMap Item.text))[i]? = some ' ' := by
      rw [stripComments, hitems.maskFrom, hideText, List.getElem?_zipWith, hc, hhidden]
      simp [hide, blankOut, hnewline]
    have hlength : i < (sanitize (items.flatMap Item.text)).length := by
      rw [← hmasks.length_eq]
      exact (List.getElem?_eq_some_iff.1 hc).1
    have hget := List.getElem?_eq_getElem hlength
    rw [hget]
    rcases hblank.getElem? hspace hget with h | ⟨-, h⟩ <;> rw [h]
  · intro hkeeps k hdirective
    exact (hlines k).1 (hdirective.of_source hkeeps hstrip.linesWithEnds.length_eq)

/-- A macro over two lines, without comments and literals. -/
def wrappedMacro : List Char := "#define WRAP(x) \\\n  \x7b x \x7d\n".toList

theorem sanitize_in_place_macro :
    stripComments wrappedMacro = wrappedMacro ∧
    Directive (linesWithEnds wrappedMacro) (linesWithEnds wrappedMacro) 1 ∧
    ∀ line ∈ (linesWithEnds (sanitize wrappedMacro))[1]?, Blanked line := by
  have hstrip : stripComments wrappedMacro = wrappedMacro := by decide +kernel
  have hline : (linesWithEnds wrappedMacro)[0]? = some "#define WRAP(x) \\\n".toList := by
    decide +kernel
  have hhead : (trimStart "#define WRAP(x) \\\n".toList).head? = some '#' := by decide +kernel
  have hends : endsWith ['\\'] (trimEnd "#define WRAP(x) \\\n".toList) := by decide +kernel
  have hdirective := Directive.continues (.opens hline hhead) hline hends
  obtain ⟨-, -, -, -, -, -, -, -, hsource⟩ := sanitize_in_place wrappedMacro
  rw [hstrip] at hsource
  refine ⟨hstrip, hdirective, hsource ?_ 1 hdirective⟩
  intro k line line' _ hline hline' hends
  obtain rfl : line = line' := Option.some.inj (hline.symm.trans hline')
  exact hends

/-- A directive line that ends in a backslash inside a literal. -/
def cutLiteral : List Char := "#define X \"a\\\nb\" \x7b\n".toList

/-- The line goes on, and what it goes on with is not blanked. -/
theorem sanitize_keeps_continuation :
    Directive (linesWithEnds (stripComments cutLiteral)) (linesWithEnds cutLiteral) 1 ∧
    ∃ line ∈ (linesWithEnds (sanitize cutLiteral))[1]?, ¬ Blanked line := by
  have hline : (linesWithEnds (stripComments cutLiteral))[0]? =
      some "#define X \"  \n".toList := by decide +kernel
  have hhead : (trimStart "#define X \"  \n".toList).head? = some '#' := by decide +kernel
  have hsource : (linesWithEnds cutLiteral)[0]? = some "#define X \"a\\\n".toList := by
    decide +kernel
  have hends : endsWith ['\\'] (trimEnd "#define X \"a\\\n".toList) := by decide +kernel
  refine ⟨.continues (.opens hline hhead) hsource hends, ?_⟩
  refine ⟨" \" \x7b\n".toList, by decide +kernel, fun hblanked => ?_⟩
  have hbrace := hblanked '{' (by decide +kernel)
  cases hbrace

end TestSynth.Text
