import Mathlib
import TestSynth.Proofs.Declaration.Cutting
import TestSynth.Proofs.Typing.Category
/-!
Parameter lists as they are written: qualifiers, a type, and perhaps a name. Which words of an entry
become the type, and which one becomes the name.
-/
namespace TestSynth.Declaration

open Text Typing

section Ends
variable {a b cs pat : List Char}

/-- A text without blanks does not reach over a blank. -/
theorem endsWith_append_of_blank (ha : ∀ c ∈ a.getLast?, isBlank c)
    (hpat : ∀ c ∈ pat, isBlank c = false) : endsWith pat (a ++ b) = endsWith pat b := by
  rw [endsWith, endsWith, Bool.eq_iff_iff, List.isSuffixOf_iff_suffix, List.isSuffixOf_iff_suffix]
  constructor
  · intro h
    rcases List.suffix_or_suffix_of_suffix h (List.suffix_append a b) with hshort | ⟨front, rfl⟩
    · exact hshort
    · obtain ⟨start, hstart⟩ := h
      rw [← List.append_assoc, List.append_cancel_right_eq] at hstart
      rcases List.eq_nil_or_concat front with rfl | ⟨more, c, rfl⟩
      · exact List.suffix_rfl
      · have hblank := ha c (by simp [← hstart])
        rw [hpat c (by simp)] at hblank
        cases hblank
  · exact fun h => h.trans (List.suffix_append _ _)

/-- The front of a text in normal spelling is in normal spelling, if it ends in no blank. -/
theorem Tidy.of_prefix (h : Tidy cs) (ha : a <+: cs) (hend : ∀ c ∈ a.getLast?, isBlank c = false) :
    Tidy a where
  chain := h.chain.prefix ha
  blanks c hc := h.blanks c (ha.subset hc)
  starts c hc := h.starts c (by
    obtain ⟨rest, rfl⟩ := ha
    exact List.mem_head?_append_of_mem_head? hc)
  ends := hend

/-- Words with a space behind each are the words with spaces between them, but for the last
space. -/
theorem trimEnd_flatMap {ws : List (List Char)}
    (h : ∀ w ∈ ws, w ≠ [] ∧ ∀ c ∈ w, isBlank c = false) :
    trimEnd (ws.flatMap (· ++ [' '])) = joinWith [' '] ws := by
  induction ws with
  | nil => rfl
  | cons w ws ih =>
    rw [List.forall_mem_cons] at h
    obtain ⟨⟨hne, hsolid⟩, hws⟩ := h
    cases ws with
    | nil =>
      rw [List.flatMap_singleton, joinWith]
      exact dropEndWhile_append (fun c hc => hsolid c (List.mem_of_getLast? hc)) (by simp)
    | cons v ws =>
      have hkept : trimEnd ((v :: ws).flatMap (· ++ [' '])) ≠ [] := by
        rw [ih hws]
        have hv := (hws v List.mem_cons_self).1
        cases ws <;> simp [joinWith, hv]
      show trimEnd ((w ++ [' ']) ++ (v :: ws).flatMap (· ++ [' '])) =
        w ++ [' '] ++ joinWith [' '] (v :: ws)
      rw [trimEnd, dropEndWhile_append_of_ne_nil hkept, ← trimEnd, ih hws]

/-- Blanks at the end add no word to a bare type. -/
theorem baseWords_trimEnd (cs : List Char) : baseWords (trimEnd cs) = baseWords cs := by
  obtain ⟨tail, hsplit, htail, -⟩ := dropEndWhile_split isBlank cs
  have hblanks : ∀ c ∈ blanked tail, isBlank c := by
    simp only [blanked, List.forall_mem_map]
    intro c hc
    split
    · rfl
    · exact htail c hc
  conv_rhs => rw [hsplit, baseWords, blanked, List.map_append, ← blanked, ← blanked,
    words_append_blanks hblanks]
  rfl

end Ends

/-- An entry of a parameter list: qualifiers, a type, and perhaps a name. -/
structure Entry where
  qualifiers : List (List Char)
  type : List Char
  name : Option (List Char)

namespace Entry

/-- Words before a type that are no part of its name. -/
def qualifierWords : List (List Char) :=
  ["const", "volatile", "struct", "class", "enum", "typename"].map String.toList

def lead (e : Entry) : List Char := e.qualifiers.flatMap (· ++ [' '])

/-- The qualifiers and the type. -/
def typed (e : Entry) : List Char := e.lead ++ e.type

def chars (e : Entry) : List Char :=
  e.typed ++ match e.name with
    | some n => ' ' :: n
    | none => []

structure Formed (e : Entry) : Prop where
  qualifiers : ∀ q ∈ e.qualifiers, q ∈ qualifierWords
  tidy : Tidy e.type
  starts : ∃ c rest, e.type = c :: rest ∧ (isWordStart c ∨ c = ':')
  unassigned : '=' ∉ e.type
  pointless : '.' ∉ e.type
  ends : ∀ c ∈ e.type.getLast?, c ∉ [':', '<', ',', ']']
  filled : e.type ≠ "void".toList
  name : ∀ n ∈ e.name, isIdentifier n ∧ typeWords.contains (String.ofList n) = false

/-- The last word of the type. -/
def lastWord (e : Entry) : List Char := takeEndWhile isWord e.type

/-- What stands before the last word of the type. -/
def beforeLast (e : Entry) : List Char := dropEndWhile isWord e.type

/-- What a name cannot stand behind. -/
def marks : List (List Char) := [[':', ':'], ['<'], [',']]

/-- Whether the last word of the type is told to belong to it: it could name nothing, it is all
there is, or a mark before it says so. -/
def isWhole (e : Entry) : Bool :=
  !isIdentifier e.lastWord || typeWords.contains (String.ofList e.lastWord) ||
    (e.qualifiers.isEmpty && e.beforeLast.isEmpty) ||
    marks.any (endsWith · (trimEnd e.beforeLast))

/-- The parameter that an entry is read as. -/
def parameter (e : Entry) : Parameter :=
  match e.name with
  | some n => ⟨String.ofList e.typed, String.ofList n, false⟩
  | none =>
    if e.isWhole then ⟨String.ofList e.typed, "", false⟩
    else ⟨String.ofList (trimEnd (e.lead ++ e.beforeLast)), String.ofList e.lastWord, false⟩

variable {e : Entry}

theorem qualifier_spec : ∀ q ∈ qualifierWords, q.isEmpty = false ∧ q.all isWord ∧ isQualifier q ∧
    q.head?.any isWordStart := by
  decide

theorem Formed.qualifier (h : e.Formed) {q : List Char} (hq : q ∈ e.qualifiers) :
    q ≠ [] ∧ (∀ c ∈ q, isWord c) ∧ isQualifier q := by
  obtain ⟨hne, hword, hqualifier, -⟩ := qualifier_spec q (h.qualifiers q hq)
  exact ⟨by simpa using hne, List.all_eq_true.1 hword, hqualifier⟩

theorem lead_blank (e : Entry) : ∀ c ∈ e.lead.getLast?, isBlank c := by
  intro c hc
  rcases List.eq_nil_or_concat e.qualifiers with hnil | ⟨qs, q, hqs⟩
  · rw [lead, hnil] at hc
    cases hc
  · rw [lead, hqs, List.concat_eq_append, List.flatMap_append, List.flatMap_singleton,
      ← List.append_assoc, List.getLast?_concat] at hc
    cases hc
    rfl

theorem Formed.mem_lead (h : e.Formed) {c : Char} (hc : c ∈ e.lead) : isWord c ∨ c = ' ' := by
  obtain ⟨q, hq, hmem⟩ := List.mem_flatMap.1 hc
  rw [List.mem_append, List.mem_singleton] at hmem
  exact hmem.imp_left ((h.qualifier hq).2.1 c)

theorem Formed.type_ne_nil (h : e.Formed) : e.type ≠ [] := by
  obtain ⟨c, rest, heq, -⟩ := h.starts
  simp [heq]

theorem type_eq (e : Entry) : e.type = e.beforeLast ++ e.lastWord ∧ (∀ c ∈ e.lastWord, isWord c) ∧
    ∀ c ∈ e.beforeLast.getLast?, isWord c = false := by
  obtain ⟨w, hsplit, hw, hlast⟩ := dropEndWhile_split isWord e.type
  have hword : e.lastWord = w := by
    rw [lastWord, hsplit, takeEndWhile_append hlast hw]
  rw [hword]
  exact ⟨hsplit, hw, hlast⟩

/-- The words of an entry before its last one, and the last one. -/
theorem takeEndWhile_typed (e : Entry) : takeEndWhile isWord e.typed = e.lastWord ∧
    dropEndWhile isWord e.typed = e.lead ++ e.beforeLast := by
  obtain ⟨htype, hw, hlast⟩ := e.type_eq
  have hfront : ∀ c ∈ (e.lead ++ e.beforeLast).getLast?, isWord c = false := by
    intro c hc
    rw [List.getLast?_append, Option.mem_def, Option.or_eq_some_iff] at hc
    rcases hc with hc | ⟨-, hc⟩
    · exact hlast c hc
    · exact isWord_of_isBlank (e.lead_blank c hc)
  have htyped : e.typed = (e.lead ++ e.beforeLast) ++ e.lastWord := by
    rw [typed, List.append_assoc, ← htype]
  rw [htyped]
  exact ⟨takeEndWhile_append hfront hw, dropEndWhile_append hfront hw⟩

theorem Formed.tidy_typed (h : e.Formed) : Tidy e.typed := by
  obtain ⟨c, rest, htype, hstart⟩ := h.starts
  have hhead : ∀ d ∈ e.type.head?, d ≠ '*' ∧ d ≠ '&' ∧ d ≠ '>' := by
    rintro d hd
    rw [htype] at hd
    cases hd
    rcases hstart with hstart | rfl
    · exact apart_of_isWordStart hstart
    · decide
  have hall : ∀ qs : List (List Char), (∀ q ∈ qs, q ∈ qualifierWords) →
      Tidy (qs.flatMap (· ++ [' ']) ++ e.type) ∧
        ∀ d ∈ (qs.flatMap (· ++ [' ']) ++ e.type).head?, d ≠ '*' ∧ d ≠ '&' ∧ d ≠ '>' := by
    intro qs hqs
    induction qs with
    | nil => exact ⟨h.tidy, hhead⟩
    | cons q qs ih =>
      rw [List.forall_mem_cons] at hqs
      obtain ⟨hne, hword, -, hfirst⟩ := qualifier_spec q hqs.1
      obtain ⟨htidy, hnext⟩ := ih hqs.2
      have hne : q ≠ [] := by simpa using hne
      have hword := List.all_eq_true.1 hword
      have hsolid : Tidy q := .of_solid fun c hc => isBlank_of_isWord (hword c hc)
      have hright : qs.flatMap (· ++ [' ']) ++ e.type ≠ [] := by simp [h.type_ne_nil]
      rw [List.flatMap_cons, List.append_assoc, List.append_assoc, List.singleton_append]
      constructor
      · refine hsolid.spaced htidy hne hright (fun c hc => ?_) hnext
        exact ne_of_holds (hword c (List.mem_of_getLast? hc)) (by decide)
      · intro d hd
        rw [List.head?_append_of_ne_nil _ hne] at hd
        rw [Option.mem_def.1 hd] at hfirst
        exact apart_of_isWordStart (by simpa using hfirst)
  exact (hall e.qualifiers h.qualifiers).1

theorem Formed.trimEnd_beforeLast (h : e.Formed) (hne : e.beforeLast ≠ []) :
    trimEnd e.beforeLast ≠ [] ∧
      trimEnd (e.lead ++ e.beforeLast) = e.lead ++ trimEnd e.beforeLast := by
  obtain ⟨c, rest, hcons⟩ := List.exists_cons_of_ne_nil hne
  have hsolid : isBlank c = false := by
    have htype := e.type_eq.1
    rw [hcons, List.cons_append] at htype
    exact h.tidy.starts c (by rw [htype]; rfl)
  have hkept : trimEnd e.beforeLast ≠ [] := by
    rw [hcons]
    exact dropEndWhile_cons_ne_nil hsolid
  exact ⟨hkept, dropEndWhile_append_of_ne_nil hkept⟩

theorem Formed.trimEnd_lead (h : e.Formed) : (trimEnd e.lead).isEmpty = e.qualifiers.isEmpty ∧
    ∀ c ∈ (trimEnd e.lead).getLast?, isWord c := by
  constructor
  · cases hqs : e.qualifiers with
    | nil => simp [lead, hqs, trimEnd, dropEndWhile]
    | cons q qs =>
      obtain ⟨hne, hword, -⟩ := h.qualifier (hqs ▸ List.mem_cons_self)
      obtain ⟨c, rest, rfl⟩ := List.exists_cons_of_ne_nil hne
      have hmem : c ∈ e.lead := by simp [lead, hqs]
      have hblank := isBlank_of_isWord (hword c List.mem_cons_self)
      rw [List.isEmpty_cons, List.isEmpty_eq_false_iff, trimEnd, Ne, dropEndWhile_eq_nil_iff]
      intro hall
      rw [hall c hmem] at hblank
      cases hblank
  · intro c hc
    obtain ⟨tail, -, -, hlast⟩ := dropEndWhile_split isBlank e.lead
    have hmem := (prefix_dropEndWhile isBlank e.lead).subset (List.mem_of_getLast? hc)
    rcases h.mem_lead hmem with hword | rfl
    · exact hword
    · cases hlast ' ' hc

/-- A mark before the last word stands in the type. -/
theorem Formed.endsWith_mark (h : e.Formed) {pat : List Char} (hpat : pat ∈ marks) :
    endsWith pat (trimEnd (e.lead ++ e.beforeLast)) = endsWith pat (trimEnd e.beforeLast) := by
  obtain ⟨front, c, rfl, hfront, hc⟩ : ∃ front c, pat = front ++ [c] ∧
      (∀ d ∈ front ++ [c], isBlank d = false) ∧ isWord c = false := by
    simp only [marks, List.mem_cons, List.not_mem_nil, or_false] at hpat
    rcases hpat with rfl | rfl | rfl
    · exact ⟨[':'], ':', rfl, by simp [isBlank], by decide⟩
    · exact ⟨[], '<', rfl, by simp [isBlank], by decide⟩
    · exact ⟨[], ',', rfl, by simp [isBlank], by decide⟩
  by_cases hne : e.beforeLast = []
  · have hlead : c ∉ (trimEnd e.lead).getLast? := fun hmem => by
      rw [h.trimEnd_lead.2 c hmem] at hc
      cases hc
    rw [hne, List.append_nil, endsWith_eq_false_of_getLast? hlead,
      endsWith_eq_false_of_getLast? (by simp [trimEnd, dropEndWhile])]
  · rw [(h.trimEnd_beforeLast hne).2]
    exact endsWith_append_of_blank e.lead_blank hfront

theorem Formed.isEmpty_front (h : e.Formed) : (trimEnd (e.lead ++ e.beforeLast)).isEmpty =
    (e.qualifiers.isEmpty && e.beforeLast.isEmpty) := by
  by_cases hne : e.beforeLast = []
  · rw [hne, List.append_nil, h.trimEnd_lead.1]
    simp
  · obtain ⟨hkept, hfront⟩ := h.trimEnd_beforeLast hne
    have hwhole : e.lead ++ trimEnd e.beforeLast ≠ [] := by simp [hkept]
    rw [hfront, List.isEmpty_eq_false_iff.2 hwhole, List.isEmpty_eq_false_iff.2 hne, Bool.and_false]

theorem Formed.getLast?_typed (h : e.Formed) : e.typed.getLast? = e.type.getLast? := by
  rw [typed, List.getLast?_append_of_ne_nil _ h.type_ne_nil]

theorem Formed.not_bracketed (h : e.Formed) : ¬ Bracketed e.typed := by
  apply not_bracketed_of_getLast?
  rw [h.getLast?_typed]
  intro hlast
  exact absurd (h.ends _ hlast) (by decide)

/-- The front of a type is in normal spelling like the whole. -/
theorem Formed.tidy_front (h : e.Formed) : Tidy (trimEnd (e.lead ++ e.beforeLast)) := by
  obtain ⟨tail, -, -, hlast⟩ := dropEndWhile_split isBlank (e.lead ++ e.beforeLast)
  refine Tidy.of_prefix h.tidy_typed ((prefix_dropEndWhile _ _).trans ?_) hlast
  rw [typed, e.type_eq.1, ← List.append_assoc]
  exact List.prefix_append _ _

/-- A given name is told from the type. -/
theorem Formed.splitTypeAndName_some (h : e.Formed) {n : List Char} (hname : e.name = some n) :
    splitTypeAndName e.chars = e.parameter := by
  obtain ⟨hidentifier, htypeWord⟩ := h.name n hname
  have htyped : e.typed ≠ [] := by simp [typed, h.type_ne_nil]
  have hclosed : isOpen e.typed = false := by
    apply isOpen_of_getLast?
    rw [h.getLast?_typed]
    intro c hc hmark
    have hend := h.ends c hc
    simp_all
  rw [chars, parameter, hname]
  exact splitTypeAndName_named h.tidy_typed htyped hclosed hidentifier htypeWord

/-- Without a name the last word is taken for one unless it is told to belong to the type. -/
theorem Formed.splitTypeAndName_none (h : e.Formed) (hname : e.name = none) :
    splitTypeAndName e.chars = e.parameter := by
  have hchars : e.chars = e.typed := by rw [chars, hname, List.append_nil]
  obtain ⟨htake, hdrop⟩ := e.takeEndWhile_typed
  have hbefore : beforeWord e.typed = trimEnd (e.lead ++ e.beforeLast) := by
    rw [beforeWord, hdrop]
  have hwhole : Declaration.isWhole e.typed = e.isWhole := by
    rw [Declaration.isWhole, Declaration.lastWord, htake, hbefore, isOpen, h.isEmpty_front,
      h.endsWith_mark List.mem_cons_self,
      h.endsWith_mark (List.mem_cons_of_mem _ List.mem_cons_self),
      h.endsWith_mark (List.mem_cons_of_mem _ (List.mem_cons_of_mem _ List.mem_cons_self)), isWhole]
    simp only [marks, List.any_cons, List.any_nil, Bool.or_false, Bool.or_assoc, Bool.or_left_comm]
  rw [hchars, Declaration.splitTypeAndName_eq, h.tidy_typed.trim_eq,
    dropArrays_of_not_bracketed h.not_bracketed]
  simp only [hwhole, hbefore, Declaration.lastWord, htake, parameter, hname, starred]
  cases e.isWhole with
  | true => simp [h.tidy_typed.tidyType_eq]
  | false => simp [h.tidy_front.tidyType_eq]

theorem Formed.splitTypeAndName_eq (h : e.Formed) : splitTypeAndName e.chars = e.parameter := by
  cases hname : e.name with
  | some n => exact h.splitTypeAndName_some hname
  | none => exact h.splitTypeAndName_none hname

theorem Formed.mem_chars (h : e.Formed) {c : Char} (hc : c ∈ e.chars) :
    isWord c ∨ c = ' ' ∨ c ∈ e.type := by
  rw [chars, typed, List.append_assoc, List.mem_append, List.mem_append] at hc
  rcases hc with hc | hc | hc
  · exact (h.mem_lead hc).imp_right .inl
  · exact .inr (.inr hc)
  · cases hname : e.name with
    | none => simp [hname] at hc
    | some n =>
      rw [hname] at hc
      rcases List.mem_cons.1 hc with rfl | hc
      · exact .inr (.inl rfl)
      · exact .inl (isWord_of_mem_isIdentifier (h.name n hname).1 c hc)

theorem Formed.not_mem_chars (h : e.Formed) {c : Char} (hword : isWord c = false) (hblank : c ≠ ' ')
    (htype : c ∉ e.type) : c ∉ e.chars := by
  intro hc
  rcases h.mem_chars hc with hc | hc | hc
  · rw [hc] at hword
    cases hword
  · exact hblank hc
  · exact htype hc

theorem Formed.chars_starts (h : e.Formed) :
    ∃ c rest, e.chars = c :: rest ∧ (isWordStart c || c == ':') := by
  cases hqs : e.qualifiers with
  | nil =>
    obtain ⟨c, rest, htype, hstart⟩ := h.starts
    refine ⟨c, _, by rw [chars, typed, lead, hqs, htype]; rfl, by simpa using hstart⟩
  | cons q qs =>
    obtain ⟨hne, -, -, hfirst⟩ := qualifier_spec q (h.qualifiers q (hqs ▸ List.mem_cons_self))
    obtain ⟨c, rest, rfl⟩ := List.exists_cons_of_ne_nil (show q ≠ [] by simpa using hne)
    have hstart : isWordStart c := hfirst
    exact ⟨c, _, by rw [chars, typed, lead, hqs]; rfl, by simp [hstart]⟩

/-- An entry declares a parameter without a default argument. -/
theorem Formed.parse_entry_eq (h : e.Formed) : parseEntry? e.chars = some e.parameter := by
  have hassign : '=' ∉ e.chars := h.not_mem_chars (by decide) (by decide) h.unassigned
  obtain ⟨c, rest, hcons, hstart⟩ := h.chars_starts
  have hdefault : ({ e.parameter with hasDefault := false } : Parameter) = e.parameter := by
    rw [parameter]
    cases e.name with
    | some n => rfl
    | none => cases e.isWhole <;> rfl
  rw [ parseEntry?, cutAtAssign_eq_none hassign]
  simp only [hcons, hstart, if_true]
  rw [← hcons, h.splitTypeAndName_eq, hdefault]

/-- A piece of a list spells an entry, with any blanks. -/
structure Spells (piece : List Char) (e : Entry) : Prop where
  whole : Sealed piece
  words : normalizeSpaces piece = e.chars

variable {pieces : List (List Char)} {es : List Entry}

theorem Formed.chars_ne_void (h : e.Formed) : e.chars ≠ "void".toList := by
  intro hvoid
  have hblank : ' ' ∉ e.chars := by
    rw [hvoid]
    decide
  have hlead : e.lead = [] := by
    cases hqs : e.qualifiers with
    | nil => rw [lead, hqs]; rfl
    | cons q qs => exact absurd (by simp [chars, typed, lead, hqs]) hblank
  have hname : e.name = none := by
    cases hname : e.name with
    | none => rfl
    | some n => exact absurd (by simp [chars, hname]) hblank
  rw [chars, typed, hlead, hname, List.nil_append, List.append_nil] at hvoid
  exact h.filled hvoid

/-- A list is more than nothing or the word for it. -/
theorem isVoid_spells (hne : es ≠ []) (hspells : List.Forall₂ Spells pieces es)
    (hformed : ∀ e ∈ es, e.Formed) : isVoid (joinWith [','] pieces) = false := by
  rw [Bool.eq_false_iff]
  intro hvoid
  have hnormal : normalizeSpaces (joinWith [','] pieces) = [] ∨
      normalizeSpaces (joinWith [','] pieces) = "void".toList := by
    rw [isVoid, Bool.or_eq_true, List.isEmpty_iff, beq_iff_eq] at hvoid
    rw [← normalizeSpaces_trim]
    rcases hvoid with hvoid | hvoid <;> rw [hvoid]
    · exact .inl rfl
    · exact .inr (by decide)
  cases hspells with
  | nil => exact hne rfl
  | @cons piece e rest es hpiece hrest =>
    have he := hformed e List.mem_cons_self
    cases hrest with
    | nil =>
      rw [joinWith, hpiece.words] at hnormal
      obtain ⟨c, cs, hcons, -⟩ := he.chars_starts
      rcases hnormal with hnormal | hnormal
      · simp [hcons] at hnormal
      · exact he.chars_ne_void hnormal
    | @cons piece' e' rest es _ _ =>
      -- With more than one entry there is a comma.
      have hcomma : ',' ∈ normalizeSpaces (joinWith [','] (piece :: piece' :: rest)) := by
        rw [normalizeSpaces_eq]
        exact mem_trim_of_mem (by decide) ((mem_squeeze (by decide)).2 (by simp [joinWith]))
      rcases hnormal with hnormal | hnormal <;> rw [hnormal] at hcomma
      · cases hcomma
      · exact absurd hcomma (by decide)

theorem lists_of_spells (hspells : List.Forall₂ Spells pieces es) :
    (∀ piece ∈ pieces, Sealed piece) ∧ pieces.map normalizeSpaces = es.map chars := by
  induction hspells with
  | nil => simp
  | cons h _ ih =>
    rw [List.forall_mem_cons, List.map_cons, List.map_cons, h.words, ih.2]
    exact ⟨⟨h.whole, ih.1⟩, rfl⟩

/-- Each entry of a list declares the parameter that it is read as. -/
theorem parseParameters?_spells (hspells : List.Forall₂ Spells pieces es)
    (hformed : ∀ e ∈ es, e.Formed) :
    parseParameters? (joinWith [','] pieces) = some (es.map parameter, false) := by
  by_cases hne : es = []
  · subst hne
    cases hspells
    rfl
  have hpieces : pieces ≠ [] := by
    rintro rfl
    cases hspells
    exact hne rfl
  obtain ⟨hsealed, hnormal⟩ := lists_of_spells hspells
  have hentries : entries (joinWith [','] pieces) = es.map chars := by
    rw [entries, splitTopLevel_joinWith_sealed hpieces hsealed, hnormal, List.filter_eq_self]
    rw [List.forall_mem_map]
    intro e he
    obtain ⟨c, rest, hcons, -⟩ := (hformed e he).chars_starts
    simp [hcons]
  have hellipsis : ∀ cs ∈ es.map chars, isEllipsis cs = false := by
    rw [List.forall_mem_map]
    intro e he
    have hpoint : '.' ∉ e.chars :=
      (hformed e he).not_mem_chars (by decide) (by decide) (hformed e he).pointless
    rw [isEllipsis, containsText, cutAt_eq_none hpoint]
    rfl
  have hparameters : ((es.map chars).filter (!isEllipsis ·)).mapM parseEntry? =
      some (es.map parameter) := by
    rw [List.filter_eq_self.2 fun cs hcs => by simp [hellipsis cs hcs]]
    clear hne hspells hentries hellipsis hnormal
    induction es with
    | nil => rfl
    | cons e es ih =>
      rw [List.forall_mem_cons] at hformed
      simp [hformed.1.parse_entry_eq, ih hformed.2]
  have hany : (es.map chars).any isEllipsis = false := List.any_eq_false.2 fun cs hcs => by
    simp [hellipsis cs hcs]
  rw [parseParameters?_eq, isVoid_spells hne hspells hformed, hentries, parseEntries?, hparameters,
    hany]
  rfl

/-- Whether the type of an entry is told whole: a name stands behind it, or its last word belongs
to it. -/
def isTold (e : Entry) : Bool := e.name.isSome || e.isWhole

theorem Formed.baseWords_lead (h : e.Formed) (cs : List Char) :
    baseWords (e.lead ++ cs) = baseWords cs := by
  have hall : ∀ qs : List (List Char), (∀ q ∈ qs, q ∈ qualifierWords) →
      baseWords (qs.flatMap (· ++ [' ']) ++ cs) = baseWords cs := by
    intro qs hqs
    induction qs with
    | nil => rfl
    | cons q qs ih =>
      rw [List.forall_mem_cons] at hqs
      obtain ⟨hne, hword, hqualifier, -⟩ := qualifier_spec q hqs.1
      have hword := List.all_eq_true.1 hword
      have hself : blanked q = q := blanked_eq_self fun c hc => by
        have hdeclarator : c ≠ '*' ∧ c ≠ '&' :=
          ⟨ne_of_holds (hword c hc) (by decide), ne_of_holds (hword c hc) (by decide)⟩
        simp [isDeclarator, hdeclarator]
      have hsplit : blanked ((q :: qs).flatMap (· ++ [' ']) ++ cs) =
          q ++ ' ' :: blanked (qs.flatMap (· ++ [' ']) ++ cs) := by
        rw [List.flatMap_cons, List.append_assoc, List.append_assoc, blanked, List.map_append,
          ← blanked, hself]
        rfl
      rw [baseWords, hsplit, words_word_append (by simpa using hne)
        (fun c hc => isBlank_of_isWord (hword c hc)) rfl,
        List.filter_cons_of_neg (by simp [hqualifier])]
      exact ih hqs.2
  exact hall e.qualifiers h.qualifiers

theorem Formed.bareType_typed_iff (h : e.Formed) :
    bareType (String.ofList e.typed) = String.ofList e.type ↔
      (∀ c ∈ e.type, isDeclarator c = false) ∧ ∀ w ∈ words e.type, isQualifier w = false := by
  rw [bareType_ofList, typed, h.baseWords_lead]
  constructor
  · intro heq
    have hchars : joinWith [' '] (baseWords e.type) = e.type := by
      simpa using congrArg String.toList heq
    refine (flatten_baseWords_eq_iff e.type).1 ?_
    conv_rhs => rw [← hchars]
    exact (unspaced_joinWith fun w hw => (solid_of_mem_words (List.mem_of_mem_filter hw)).2).symm
  · rintro ⟨hdeclarators, hqualifiers⟩
    have hkept : baseWords e.type = words e.type := by
      rw [baseWords, blanked_eq_self hdeclarators, List.filter_eq_self.2]
      exact fun w hw => by simp [hqualifiers w hw]
    rw [hkept, h.tidy.joinWith_words]

/-- A type whose last word is taken for a name lacks it. -/
theorem Formed.bareType_front_ne (h : e.Formed) (hword : isIdentifier e.lastWord) :
    bareType (String.ofList (trimEnd (e.lead ++ e.beforeLast))) ≠ String.ofList e.type := by
  intro heq
  have hbase : baseWords (trimEnd (e.lead ++ e.beforeLast)) = baseWords e.beforeLast := by
    rw [baseWords_trimEnd, h.baseWords_lead]
  obtain ⟨htype, hlast, -⟩ := e.type_eq
  have hsolid : unspaced e.lastWord = e.lastWord :=
    List.filter_eq_self.2 fun c hc => by simp [isBlank_of_isWord (hlast c hc)]
  have hchars : (baseWords e.beforeLast).flatten = unspaced e.beforeLast ++ e.lastWord := by
    rw [← hbase, ← unspaced_bareType, heq, String.toList_ofList, htype, unspaced,
      List.filter_append, ← unspaced, ← unspaced, hsolid]
  -- The words of the front alone are too short.
  have hle : (baseWords e.beforeLast).flatten.length ≤ (unspaced e.beforeLast).length := by
    refine (List.filter_sublist.flatten).length_le.trans ?_
    rw [flatten_words, unspaced_blanked]
    exact List.length_filter_le _ _
  rw [hchars, List.length_append] at hle
  have hnil : e.lastWord = [] := List.length_eq_zero_iff.1 (by omega)
  rw [hnil] at hword
  cases hword

/-- The bare type of a parameter is the one that is written, exactly if it is told whole and holds
neither pointers and references nor qualifiers of its own. -/
theorem Formed.bareType_eq_iff (h : e.Formed) :
    bareType e.parameter.declaredType = String.ofList e.type ↔
      e.isTold ∧ (∀ c ∈ e.type, isDeclarator c = false) ∧
        ∀ w ∈ words e.type, isQualifier w = false := by
  cases hname : e.name with
  | some n => simpa [parameter, isTold, hname] using h.bareType_typed_iff
  | none =>
    cases hwhole : e.isWhole with
    | true => simpa [parameter, isTold, hname, hwhole] using h.bareType_typed_iff
    | false =>
      have hidentifier : isIdentifier e.lastWord := by
        simp only [isWhole, Bool.or_eq_false_iff] at hwhole
        simpa using hwhole.1.1.1
      simpa [parameter, isTold, hname, hwhole] using h.bareType_front_ne hidentifier

theorem Formed.trimEnd_lead_eq (h : e.Formed) : trimEnd e.lead = joinWith [' '] e.qualifiers := by
  refine trimEnd_flatMap fun q hq => ?_
  obtain ⟨hne, hword, -⟩ := h.qualifier hq
  exact ⟨hne, fun c hc => isBlank_of_isWord (hword c hc)⟩

/-- Behind qualifiers, a type that could be a name becomes one and leaves nothing of the type. -/
theorem Formed.parameter_lone (h : e.Formed) (hname : e.name = none)
    (hqualified : e.qualifiers ≠ []) (hidentifier : isIdentifier e.type)
    (htypeWord : typeWords.contains (String.ofList e.type) = false) :
    e.parameter =
        ⟨String.ofList (joinWith [' '] e.qualifiers), String.ofList e.type, false⟩ ∧
      bareType e.parameter.declaredType = "" := by
  have hword := isWord_of_mem_isIdentifier hidentifier
  have hlast : e.lastWord = e.type := takeEndWhile_append (a := []) (by simp) hword
  have hbefore : e.beforeLast = [] := dropEndWhile_append (a := []) (by simp) hword
  have hwhole : e.isWhole = false := by
    rw [isWhole, hlast, hbefore, hidentifier, htypeWord]
    simp [hqualified, marks, endsWith, trimEnd, dropEndWhile]
  have hparameter : e.parameter =
      ⟨String.ofList (joinWith [' '] e.qualifiers), String.ofList e.type, false⟩ := by
    rw [parameter, hname]
    simp only [hwhole, hbefore, hlast, List.append_nil, h.trimEnd_lead_eq, Bool.false_eq_true,
      if_false]
  refine ⟨hparameter, ?_⟩
  rw [hparameter, bareType_ofList, ← h.trimEnd_lead_eq, baseWords_trimEnd, ← List.append_nil e.lead,
    h.baseWords_lead]
  rfl

/-- Each entry of a list becomes a parameter. Its bare type is the type that is written, exactly if
a name follows it or its last word cannot be one where it stands, and the type holds no pointer,
reference or qualifier of its own. Otherwise the last word is lost, and behind qualifiers a single
word is the whole type. -/
theorem parseParameters?_entries (hspells : List.Forall₂ Spells pieces es)
    (hformed : ∀ e ∈ es, e.Formed) :
    parseParameters? (joinWith [','] pieces) = some (es.map parameter, false) ∧
    (∀ e ∈ es, bareType e.parameter.declaredType = String.ofList e.type ↔
      e.isTold ∧ (∀ c ∈ e.type, isDeclarator c = false) ∧
        ∀ w ∈ words e.type, isQualifier w = false) ∧
    ∀ e ∈ es, e.name = none → e.qualifiers ≠ [] → isIdentifier e.type →
      typeWords.contains (String.ofList e.type) = false →
      e.parameter =
          ⟨String.ofList (joinWith [' '] e.qualifiers), String.ofList e.type, false⟩ ∧
        bareType e.parameter.declaredType = "" := by
  refine ⟨parseParameters?_spells hspells hformed, fun e he => ?_, fun e he => ?_⟩
  · exact (hformed e he).bareType_eq_iff
  · exact (hformed e he).parameter_lone

/-- A constant of a type with arguments, with a name. -/
def named : Entry := ⟨["const".toList], "std::map<int, int>".toList, some "counts".toList⟩

/-- A constant without a name. -/
def unnamed : Entry := ⟨["const".toList], "Widget".toList, none⟩

theorem named_formed : named.Formed where
  qualifiers := by decide
  tidy := {
    chain := by decide
    blanks := by simp [named, isBlank]
    starts := by simp [named, isBlank]
    ends := by simp [named, isBlank] }
  starts := ⟨'s', "td::map<int, int>".toList, by decide, .inl (by decide)⟩
  unassigned := by simp [named]
  pointless := by simp [named]
  ends := by simp [named]
  filled := by decide
  name := by
    rintro n ⟨rfl⟩
    decide

theorem unnamed_formed : unnamed.Formed where
  qualifiers := by decide
  tidy := .of_solid (by simp [unnamed, isBlank])
  starts := ⟨'W', "idget".toList, by decide, .inl (by decide)⟩
  unassigned := by simp [unnamed]
  pointless := by simp [unnamed]
  ends := by simp [unnamed]
  filled := by decide
  name := by simp [unnamed]

theorem parseParameters?_entries_named :
    List.Forall₂ Spells ["const std::map<int, int> counts".toList, " const Widget".toList]
      [named, unnamed] ∧
    (∀ e ∈ [named, unnamed], e.Formed) ∧
    parseParameters? (joinWith [',']
      ["const std::map<int, int> counts".toList, " const Widget".toList]) =
        some ([named, unnamed].map parameter, false) ∧
    bareType named.parameter.declaredType = "std::map<int, int>" ∧
    unnamed.parameter = ⟨"const", "Widget", false⟩ ∧
    bareType unnamed.parameter.declaredType = "" := by
  have hspells : List.Forall₂ Spells
      ["const std::map<int, int> counts".toList, " const Widget".toList] [named, unnamed] :=
    .cons ⟨by decide, by decide⟩
      (.cons ⟨by decide, by decide⟩ .nil)
  have hformed : ∀ e ∈ [named, unnamed], e.Formed := by
    simp [named_formed, unnamed_formed]
  obtain ⟨hparse, hbare, hlone⟩ := parseParameters?_entries hspells hformed
  refine ⟨hspells, hformed, hparse, ?_, ?_⟩
  · refine (hbare named (by simp)).2 ⟨by decide, ?_, by decide⟩
    simp [named, isDeclarator]
  · exact hlone unnamed (by simp) rfl (by decide) (by decide) (by decide)

/-- The type of a parameter without a name is taken for its name. -/
theorem parseParameters?_names_type :
    parseParameters? "const Widget".toList = some ([⟨"const", "Widget", false⟩], false) ∧
      bareType "const" ≠ "Widget" := by
  decide +kernel

end Entry

end TestSynth.Declaration
