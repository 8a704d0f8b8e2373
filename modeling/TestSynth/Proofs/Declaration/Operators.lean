import Mathlib
import TestSynth.Proofs.Declaration.Prototypes
/-!
Declarations of operators: what is read of them as their symbol leaves an angle bracket open or not.
-/
namespace TestSynth.Declaration

open Text

theorem counts_assignNext : Counts assignNext where
  char s c hc := by
    simp only [brackets, List.mem_cons, List.not_mem_nil, not_or] at hc
    simp [assignNext, hc]
  opens s g hg := by
    simp only [groups, List.mem_cons, List.not_mem_nil, or_false] at hg
    rcases hg with rfl | rfl | rfl | rfl <;> simp [assignNext]
  closes s t c g hg hc h := by
    simp only [groups, List.mem_cons, List.not_mem_nil, or_false] at hg
    rcases hg with rfl | rfl | rfl | rfl <;> rw [assignNext, h] <;> simp [assignNext]

section Scanning
variable {cs : List Char}

/-- No bracket and no dash. -/
def isUnscanned (c : Char) : Bool := !brackets.contains c && c != '-'

theorem isUnscanned_of_isBlank {c : Char} (h : isBlank c) : isUnscanned c := by
  simp [isUnscanned, brackets, ne_of_holds (d := '(') h (by decide),
    ne_of_holds (d := ')') h (by decide), ne_of_holds (d := '[') h (by decide),
    ne_of_holds (d := ']') h (by decide), ne_of_holds (d := '{') h (by decide),
    ne_of_holds (d := '}') h (by decide), ne_of_holds (d := '<') h (by decide),
    ne_of_holds (d := '>') h (by decide), ne_of_holds (d := '-') h (by decide)]

theorem passes_unscanned (h : ∀ c ∈ cs, isUnscanned c) (s : Nat × Bool) :
    cutBy parenStops parenNext s cs = none ∧
      cs.foldl parenNext s = (s.1, s.2 && cs.isEmpty) := by
  induction cs generalizing s with
  | nil => simp [cutBy]
  | cons c cs ih =>
    rw [List.forall_mem_cons] at h
    have hplain := h.1
    simp only [isUnscanned, brackets, Bool.and_eq_true, Bool.not_eq_true', List.contains_eq_mem,
      List.mem_cons, List.not_mem_nil, decide_eq_false_iff_not, not_or, bne_iff_ne] at hplain
    have hnext : parenNext s c = (s.1, false) := by simp [parenNext, hplain]
    obtain ⟨hcut, hfold⟩ := ih h.2 (s.1, false)
    constructor
    · rw [cutBy, hnext, hcut]
      simp [parenStops, hplain]
    · rw [List.foldl_cons, hnext, hfold]
      simp

theorem parenStops_look : ∀ s c look, parenStops s c look → parenStops s c none :=
  fun _ _ _ h => h

theorem closed_of_parenStops : ∀ s c look, parenStops s c look → s.1 = 0 := by
  intro s c look h
  rw [parenStops, Bool.and_eq_true, beq_iff_eq, beq_iff_eq] at h
  exact h.2

theorem assignStops_look : ∀ s c look, assignStops s c look → assignStops s c none := by
  intro s c look h
  simp only [assignStops, Bool.and_eq_true, Bool.not_eq_true', Bool.or_eq_false_iff] at h
  simp [assignStops, h]

theorem closed_of_assignStops : ∀ s c look, assignStops s c look → s.1 = 0 := by
  intro s c look h
  simp only [assignStops, Bool.and_eq_true, beq_iff_eq] at h
  exact h.1.2

theorem Fronting.passes (h : Fronting cs) : cutBy parenStops parenNext (0, false) cs = none ∧
    (cs.foldl parenNext (0, false)).1 = 0 := by
  have hcut : cutBy parenStops parenNext (0, false) (cs ++ ['(']) = some (cs, []) := by
    rw [Fronting, cutAtParen_eq_cutBy] at h
    exact h
  have hnone : cutBy parenStops parenNext (0, false) cs = none := by
    rw [Option.eq_none_iff_forall_not_mem]
    intro cut hmem
    rw [cutBy_append hmem fun _ _ => rfl] at hcut
    simp at hcut
  refine ⟨hnone, ?_⟩
  rw [cutBy_append_of_none parenStops_look hnone] at hcut
  by_contra hopen
  simp [cutBy, parenStops, hopen] at hcut

end Scanning

/-- A declaration of an operator: specifiers and a return type, the word, a symbol or a type with
the blanks around it, the parameters, and what follows them. -/
structure Operator where
  leading : List Char
  gap : List Char
  name : List Char
  space : List Char
  parameters : List Char
  suffix : List Char

namespace Operator

/-- The symbols that can be overloaded. -/
def symbols : List (List Char) :=
  ["+", "-", "*", "/", "%", "^", "&", "|", "~", "!", "=", "<", ">", "+=", "-=", "*=", "/=", "%=",
    "^=", "&=", "|=", "<<", ">>", "<<=", ">>=", "==", "!=", "<=", ">=", "<=>", "&&", "||", "++",
    "--", ",", "->*", "->", "()", "[]"].map String.toList

/-- The symbols that open angle brackets and close none. -/
def openSymbols : List (List Char) := ["<", "<<", "<=", "<<="].map String.toList

/-- A symbol, or a text that closes its angle brackets: a type, or a word such as the one for
allocation. -/
def IsName (name : List Char) : Prop :=
  name ∈ symbols ∨ (cutAtParen 0 none (name ++ ['('])).isSome

def front (d : Operator) : List Char := d.leading ++ ("operator".toList ++ d.gap)

def chars (d : Operator) : List Char :=
  d.front ++ (d.name ++ (d.space ++ '(' :: (d.parameters ++ ')' :: d.suffix)))

/-- An operator of some kind. Its parameters and what follows them may be anything. -/
structure Formed (d : Operator) : Prop where
  outside : Fronting d.leading
  apart : ∀ c ∈ d.leading.getLast?, isWord c = false
  named : IsName d.name
  bounded : ∀ c ∈ (d.gap ++ d.name).head?, isWord c = false
  gap : ∀ c ∈ d.gap, isBlank c
  space : ∀ c ∈ d.space, isBlank c

variable {d : Operator} {owner : Option String} {access : Access} {raw : List Char}

/-- Nothing is cut up to the word of an operator, nor at what stands behind it before a bracket. -/
theorem Formed.passes (h : d.Formed) {behind : List Char} (hbehind : ∀ c ∈ behind, isUnscanned c) :
    cutAtParen 0 none (d.leading ++ ("operator".toList ++ behind)) = none ∧
      (d.leading ++ ("operator".toList ++ behind)).foldl parenNext (0, false) = (0, false) := by
  obtain ⟨hcut, hclosed⟩ := h.outside.passes
  have hword : ∀ c ∈ "operator".toList ++ behind, isUnscanned c := by
    rw [List.forall_mem_append]
    exact ⟨by simp [isUnscanned, brackets], hbehind⟩
  obtain ⟨hrest, hfold⟩ := passes_unscanned hword (d.leading.foldl parenNext (0, false))
  have hnone : ((none : Option Char) == some '-') = false := rfl
  rw [cutAtParen_eq_cutBy, hnone, cutBy_append_of_none parenStops_look hcut, List.foldl_append,
    hrest, hfold, hclosed]
  exact ⟨rfl, by simp⟩

/-- The word of an operator is read in whatever stands before its parameters. -/
theorem Formed.mem_tokens (h : d.Formed) {before rest : List Char}
    (hcut : cutAtParen 0 none d.chars = some (before, rest)) :
    "operator".toList ∈ tokens before := by
  have hsplit : d.chars = (d.leading ++ ("operator".toList ++ [])) ++
      ((d.gap ++ d.name) ++ (d.space ++ '(' :: (d.parameters ++ ')' :: d.suffix))) := by
    simp [chars, front]
  have hbehind : ∀ c ∈ ((d.gap ++ d.name) ++
      (d.space ++ '(' :: (d.parameters ++ ')' :: d.suffix))).head?, isWord c = false := by
    refine head?_append_holds h.bounded (head?_append_holds (fun c hc => ?_) fun c hc => ?_)
    · exact isWord_of_isBlank (h.space c (List.mem_of_head? hc))
    · cases hc
      rfl
  rw [hsplit] at hcut
  obtain ⟨tail, rfl, htail⟩ := cutAtParen_append (h.passes (by simp)).1 hcut
  rw [List.append_nil, List.append_assoc]
  refine Text.mem_tokens h.apart (by simp [isWord]) fun c hc => hbehind c ?_
  rw [htail]
  exact List.mem_head?_append_of_mem_head? hc

/-- An operator is skipped or read as a variable. -/
theorem Formed.parse_eq (h : d.Formed) (hraw : subject raw = d.chars) : parse owner access raw =
    if skippedWords.contains (String.ofList (d.chars.takeWhile isWord)) ||
      (cutAtParen 0 none d.chars).isSome then .skip
    else parseVariable d.chars := by
  have hne : d.chars.isEmpty = false := by simp [chars, front]
  rw [parse_eq_subject, hraw, hne, Bool.false_or]
  cases hcut : cutAtParen 0 none d.chars with
  | none => simp
  | some cut =>
    have hmem := List.contains_iff_mem.2 (h.mem_tokens hcut)
    simp only [hmem, if_true, ite_self, Option.isSome_some, Bool.or_true]

/-- The list of parameters is found unless the symbol leaves an angle bracket open. -/
theorem Formed.isSome_cutAtParen (h : d.Formed) (hname : d.name ∉ openSymbols) :
    (cutAtParen 0 none d.chars).isSome := by
  have hclosed : (cutAtParen 0 none (d.name ++ ['('])).isSome := by
    rcases h.named with hsymbol | htype
    · have hall : ∀ s ∈ symbols, s ∉ openSymbols → (cutAtParen 0 none (s ++ ['('])).isSome := by
        decide
      exact hall _ hsymbol hname
    · exact htype
  obtain ⟨hfront, hstate⟩ := h.passes fun c hc => isUnscanned_of_isBlank (h.gap c hc)
  have hnone : ((none : Option Char) == some '-') = false := rfl
  rw [cutAtParen_eq_cutBy, hnone] at hfront hclosed ⊢
  rw [chars, front, cutBy_append_of_none parenStops_look hfront, hstate, Option.isSome_map]
  cases hcut : cutBy parenStops parenNext (0, false) d.name with
  | some cut =>
    rw [cutBy_append hcut fun _ _ => rfl]
    rfl
  | none =>
    rw [cutBy_append_of_none parenStops_look hcut, Option.isSome_map] at hclosed ⊢
    obtain ⟨hspace, hfold⟩ := passes_unscanned
      (fun c hc => isUnscanned_of_isBlank (h.space c hc)) (d.name.foldl parenNext (0, false))
    rw [cutBy_append_of_none parenStops_look hspace, Option.isSome_map]
    by_cases hstate : (d.name.foldl parenNext (0, false)).1 = 0
    · simp [cutBy, parenStops, hfold, hstate]
    · simp [cutBy, parenStops, hstate] at hclosed

end Operator

section Variables
variable {a b : List Char}

/-- What may follow a list of parameters: words, marks of references, and assignments. -/
def isSuffixChar (c : Char) : Bool := isWord c || isBlank c || c == '&' || c == '='

/-- Words before a parenthesis may get lost, those behind it do not. -/
theorem joinWith_words_paren (hb : ∀ w ∈ words b, isModifier w = false) (a : List Char) :
    ∃ front, joinWith [' '] ((words (a ++ ')' :: b)).filter (!isModifier ·)) =
      front ++ ')' :: trimEnd (squeeze b) := by
  obtain ⟨f, gs, hfields, htrim, -⟩ := trimEnd_squeeze_eq b
  obtain ⟨fs, l, -, hall⟩ := fields_append_of_neg (c := ')') (by decide) a hfields
  have hlater : (gs.filter (!·.isEmpty)).filter (!isModifier ·) = gs.filter (!·.isEmpty) := by
    refine List.filter_eq_self.2 fun w hw => ?_
    obtain ⟨hw, hne⟩ := List.mem_filter.1 hw
    rw [hb w (List.mem_filter.2 ⟨hfields ▸ List.mem_cons_of_mem _ hw, hne⟩)]
    rfl
  have hword : isModifier (l ++ ')' :: f) = false := by
    rw [Bool.eq_false_iff]
    intro hmodifier
    have hparen := (isReserved_of_isModifier hmodifier).2 ')' (by simp)
    revert hparen
    decide
  have hwords : (words (a ++ ')' :: b)).filter (!isModifier ·) =
      (fs.filter (!·.isEmpty)).filter (!isModifier ·) ++
        (l ++ ')' :: f) :: gs.filter (!·.isEmpty) := by
    rw [words, hall, List.filter_append, List.filter_append, List.filter_cons_of_pos (by simp),
      List.filter_cons_of_pos (by simp [hword]), hlater]
  rw [hwords, htrim]
  cases (fs.filter (!·.isEmpty)).filter (!isModifier ·) with
  | nil => exact ⟨l, by simp [joinWith_eq_spaced]⟩
  | cons w ws =>
    exact ⟨w ++ (spaced ws ++ ' ' :: l), by simp [joinWith_eq_spaced, spaced]⟩

/-- The last word behind a parenthesis is told as a name, if it can be one. -/
theorem splitTypeAndName_paren {w : List Char} (a : List Char) (hb : ∀ c ∈ b, isSuffixChar c)
    (hend : ∀ c ∈ b.getLast?, isBlank c = false) (hw : takeEndWhile isWord b = w) :
    (splitTypeAndName (a ++ ')' :: b)).declaredType ≠ "" ∧
      (splitTypeAndName (a ++ ')' :: b)).name =
        if isIdentifier w && !typeWords.contains (String.ofList w) then String.ofList w else "" := by
  have hlast : ∀ {c : Char} {x : List Char}, isSuffixChar c = false → c ≠ ')' → x <+: b →
      c ∉ (trimStart a ++ ')' :: x).getLast? := by
    intro c x hc hparen hx hmem
    rw [List.getLast?_append_of_ne_nil _ (List.cons_ne_nil _ _)] at hmem
    rcases List.mem_cons.1 (List.mem_of_getLast? hmem) with rfl | hmem
    · exact hparen rfl
    · rw [hb c (hx.subset hmem)] at hc
      cases hc
  have htrim : trim (a ++ ')' :: b) = trimStart a ++ ')' :: b := by
    rw [trim_append_cons (by decide), trimEnd_eq_self hend]
  have hplain : ¬ Bracketed (trimStart a ++ ')' :: b) :=
    not_bracketed_of_getLast? (hlast (by decide) (by decide) List.prefix_rfl)
  obtain ⟨htake, hdrop⟩ := takeEndWhile_append_cons (p := isWord) (c := ')') (by decide)
    (trimStart a) b
  have hbefore : beforeWord (trimStart a ++ ')' :: b) = trimStart a ++ ')' :: beforeWord b := by
    rw [beforeWord, hdrop, trimEnd_append_cons (by decide), beforeWord]
  have hclosed : isOpen (trimStart a ++ ')' :: beforeWord b) = false := by
    have hprefix : beforeWord b <+: b := (prefix_dropEndWhile _ _).trans (prefix_dropEndWhile _ _)
    apply isOpen_of_getLast?
    intro c hc hmark
    simp only [List.mem_cons, List.not_mem_nil, or_false] at hmark
    rcases hmark with rfl | rfl | rfl <;> exact hlast (by decide) (by decide) hprefix hc
  have hwhole : isWhole (trimStart a ++ ')' :: b) =
      !(isIdentifier w && !typeWords.contains (String.ofList w)) := by
    have hsome : (trimStart a ++ ')' :: beforeWord b).isEmpty = false := by simp
    rw [isWhole, lastWord, htake, hw, hbefore, hclosed, hsome, Bool.or_false, Bool.or_false,
      Bool.not_and, Bool.not_not]
  have htype : ∀ x : List Char, String.ofList (tidyType (trimStart a ++ ')' :: x)) ≠ "" := by
    intro x hempty
    have hnil := congrArg String.toList hempty
    rw [String.toList_ofList] at hnil
    exact tidyType_ne_nil (c := ')') (by simp) (by decide) hnil
  rw [splitTypeAndName_eq, htrim, dropArrays_of_not_bracketed hplain]
  simp only [hwhole, hbefore, lastWord, htake, hw, starred]
  cases isIdentifier w && !typeWords.contains (String.ofList w) with
  | false => simpa using htype b
  | true => simpa using htype _

/-- Two words or a mark of a pointer or reference, as a variable is declared with at least. -/
def isTold (cs : List Char) : Bool :=
  2 ≤ ((words cs).filter (!isModifier ·)).length || cs.any Typing.isDeclarator

/-- A text that is neither cut at an assignment nor at a colon or a comma is a variable by its last
word. -/
theorem parseVariable_paren {cs w : List Char} (hcs : cs = a ++ ')' :: b)
    (hassign : cutAtAssign 0 none cs = none) (hpaired : Paired cs)
    (hwhole : splitTopLevel ',' cs = [cs]) (hb : ∀ c ∈ b, isSuffixChar c)
    (hwords : ∀ w ∈ words b, isModifier w = false)
    (hend : ∀ c ∈ b.getLast?, isBlank c = false) (hw : takeEndWhile isWord b = w) :
    (isTold cs && isIdentifier w && !typeWords.contains (String.ofList w) →
      ∃ type, parseVariable cs = .variable type (String.ofList w)) ∧
    (!(isTold cs && isIdentifier w && !typeWords.contains (String.ofList w)) →
      parseVariable cs = .skip) := by
  have hsqueeze : ∀ c ∈ (squeeze b).getLast?, isBlank c = false := by
    intro c hc
    rw [getLast?_squeeze, Option.mem_def, Option.map_eq_some_iff] at hc
    obtain ⟨e, he, rfl⟩ := hc
    rw [hend e he, if_neg (by simp)]
    exact hend e he
  have hchars : ∀ c ∈ squeeze b, isSuffixChar c := by
    intro c hc
    by_cases hblank : isBlank c = true
    · simp [isSuffixChar, hblank]
    · exact hb c ((mem_squeeze (by simpa using hblank)).1 hc)
  obtain ⟨front, hjoined⟩ := joinWith_words_paren hwords a
  obtain ⟨htype, hname⟩ :=
    splitTypeAndName_paren front hchars hsqueeze ((takeEndWhile_squeeze b).trans hw)
  rw [← hcs, trimEnd_eq_self hsqueeze] at hjoined
  have hfew : (decide (((words cs).filter (!isModifier ·)).length < 2) &&
      !cs.any Typing.isDeclarator) = !isTold cs := by
    simp only [isTold, Bool.not_or, ← decide_not, Nat.not_le]
  unfold parseVariable
  simp only [hassign, hpaired.beforeColon_eq, hwhole, List.headD_cons, hjoined, hname, hfew]
  cases htold : isTold cs with
  | false => simp
  | true =>
    cases hidentifier : isIdentifier w with
    | false => simp
    | true =>
      have hne : w ≠ [] := by
        rintro rfl
        cases hidentifier
      cases htypeWord : typeWords.contains (String.ofList w) with
      | true => simp
      | false => simp [hne, htype]

end Variables

namespace Operator

variable {d : Operator} {owner : Option String} {access : Access} {raw : List Char}

/-- The last word behind the parameters. -/
def lastWord (d : Operator) : List Char := takeEndWhile isWord d.suffix

/-- An operator whose text has no assignment and no colon or comma on its own before the symbol,
whose parameters close their brackets, and whose suffix consists of specifiers and a mark. -/
structure Plain (d : Operator) : Prop extends Formed d where
  unassigned : '=' ∉ d.leading
  unlisted : Sealed d.leading
  pairedLeading : Paired d.leading
  pairedParameters : Paired d.parameters
  grouped : Grouped d.parameters
  suffix : ∀ c ∈ d.suffix, isSuffixChar c
  specifiers : ∀ w ∈ words d.suffix, isModifier w = false

theorem not_bracket_of_isSuffixChar {c : Char} (h : isSuffixChar c) : c ∉ brackets := by
  intro hmem
  simp only [brackets, List.mem_cons, List.not_mem_nil, or_false] at hmem
  rcases hmem with rfl | rfl | rfl | rfl | rfl | rfl | rfl | rfl <;> exact absurd h (by decide)

theorem Plain.grouped_tail (h : d.Plain) :
    Grouped (d.space ++ '(' :: (d.parameters ++ ')' :: d.suffix)) := by
  have hspace : ∀ c ∈ d.space, c ∉ brackets := fun c hc =>
    not_bracket_of_isSuffixChar (by simp [isSuffixChar, h.space c hc])
  refine (Grouped.of_plain hspace).append ?_
  refine .group (g := ('(', ')')) (by decide) (fun harrow => absurd harrow (by decide)) h.grouped ?_
  exact .of_plain fun c hc => not_bracket_of_isSuffixChar (h.suffix c hc)

theorem open_of_mem {name : List Char} (h : name ∈ openSymbols) :
    ∃ more, name = '<' :: more ∧ ∀ c ∈ more, c = '<' ∨ c = '=' := by
  simp only [openSymbols, List.map_cons, List.map_nil, List.mem_cons, List.not_mem_nil,
    or_false] at h
  rcases h with rfl | rfl | rfl | rfl
  · exact ⟨[], by decide, by simp⟩
  · exact ⟨['<'], by decide, by simp⟩
  · exact ⟨['='], by decide, by simp⟩
  · exact ⟨['<', '='], by decide, by simp⟩

/-- What is not cut before a symbol. -/
theorem Plain.front (h : d.Plain) : '=' ∉ d.front ∧ Sealed d.front ∧ Paired d.front := by
  have hsplit : "operator".toList = 'o' :: "perator".toList := by decide
  have hassign : '=' ∉ "operator".toList := by decide
  have hcolon : ':' ∉ "operator".toList := by decide
  have hword : Sealed "perator".toList := by decide
  rw [Operator.front]
  refine ⟨?_, ?_, ?_⟩
  · simp only [List.mem_append, not_or]
    exact ⟨h.unassigned, hassign, not_mem_of_holds h.gap (by decide)⟩
  · rw [← List.append_assoc, hsplit]
    exact (h.unlisted.append_cons hword (by decide)).append_blanks h.gap
  · refine h.pairedLeading.append (.of_not_mem ?_)
    rw [List.mem_append, not_or]
    exact ⟨hcolon, not_mem_of_holds h.gap (by decide)⟩

/-- What stands behind an angle bracket that a symbol opens never leaves it. -/
theorem Plain.behind (h : d.Plain) (hname : d.name ∈ openSymbols) :
    ∃ behind, d.chars = d.front ++ '<' :: behind ∧ Paired behind ∧
      (∀ s, 0 < s.1 → Within parenNext s behind) ∧ ∀ s, 0 < s.1 → Within assignNext s behind := by
  obtain ⟨more, hmore, hopen⟩ := open_of_mem hname
  refine ⟨more ++ (d.space ++ '(' :: (d.parameters ++ ')' :: d.suffix)), ?_, ?_, ?_, ?_⟩
  · rw [chars, hmore, List.cons_append]
  · have hfirst : Paired (more ++ d.space ++ ['(']) := by
      refine .of_not_mem ?_
      simp only [List.mem_append, List.mem_singleton, not_or]
      refine ⟨⟨fun hmem => ?_, not_mem_of_holds h.space (by decide)⟩, by decide⟩
      rcases hopen _ hmem with heq | heq <;> cases heq
    have hlast : Paired (')' :: d.suffix) := by
      refine .of_not_mem ?_
      rw [List.mem_cons, not_or]
      exact ⟨by decide, not_mem_of_holds h.suffix (by decide)⟩
    have hall := (hfirst.append h.pairedParameters).append hlast
    simpa using hall
  · exact fun s hs => within_open counts_parenNext hopen h.grouped_tail hs
  · exact fun s hs => within_open counts_assignNext hopen h.grouped_tail hs

section Uncut
variable (h : d.Plain) (hname : d.name ∈ openSymbols)

include h hname

theorem Plain.cutAtParen_eq : cutAtParen 0 none d.chars = none := by
  obtain ⟨behind, hchars, -, hwithin, -⟩ := h.behind hname
  obtain ⟨hfront, hstate⟩ := h.passes fun c hc => isUnscanned_of_isBlank (h.gap c hc)
  have hnone : ((none : Option Char) == some '-') = false := rfl
  rw [cutAtParen_eq_cutBy, hnone] at hfront ⊢
  rw [hchars, Operator.front, cutBy_append_of_none parenStops_look hfront, hstate, cutBy,
    (hwithin _ (by decide)).cutBy_eq_none closed_of_parenStops]
  simp [parenStops]

theorem Plain.cutAtAssign_eq : cutAtAssign 0 none d.chars = none := by
  obtain ⟨behind, hchars, -, -, hwithin⟩ := h.behind hname
  have hfront : cutAtAssign 0 none d.front = none := cutAtAssign_eq_none h.front.1
  rw [cutAtAssign_eq_cutBy] at hfront ⊢
  rw [hchars, cutBy_append_of_none assignStops_look hfront, cutBy,
    (hwithin _ (by simp [assignNext])).cutBy_eq_none closed_of_assignStops]
  simp [assignStops]

theorem Plain.splitTopLevel_eq : splitTopLevel ',' d.chars = [d.chars] := by
  obtain ⟨behind, hchars, -, hwithin, -⟩ := h.behind hname
  have hopen : ∀ previous, splitTopLevelFrom (· == ',') {} previous ('<' :: behind) =
      ['<' :: behind] := fun previous => by
    have hbracket : Nesting.bracket? {} previous '<' = some { angles := 1 } := rfl
    have hinside : splitTopLevelFrom (· == ',') { angles := 1 } (some '<') behind = [behind] :=
      splitTopLevelFrom_within (hwithin _ (by decide))
    rw [splitTopLevelFrom, hbracket]
    simp only [hinside, consFirst]
  rw [hchars, splitTopLevel, splitTopLevelFrom_sealed h.front.2.1, hopen, foldr_consFirst_cons]

theorem Plain.paired : Paired d.chars := by
  obtain ⟨behind, hchars, hpaired, -, -⟩ := h.behind hname
  have hopen : Paired ['<'] := .of_not_mem (by decide)
  rw [hchars]
  exact h.front.2.2.append (hopen.append hpaired)

end Uncut

/-- Whether a last word is told as the name of a variable. -/
def declares (d : Operator) : Bool :=
  isTold d.chars && isIdentifier d.lastWord && !typeWords.contains (String.ofList d.lastWord)

/-- Whether the first word is one of those that are never looked at any further. -/
def isSkipped (d : Operator) : Bool :=
  skippedWords.contains (String.ofList (d.chars.takeWhile isWord))

theorem ends_of_subject (hraw : subject raw = d.chars) :
    ∀ c ∈ d.suffix.getLast?, isBlank c = false := by
  intro c hc
  obtain ⟨lead, tail, -, -, -, -, hend⟩ :=
    trim_split ((stripped raw).dropWhile fun c => c == ',' || c == ':')
  rw [← subject, hraw] at hend
  apply hend
  have hchars : d.chars = (d.front ++ (d.name ++ (d.space ++ '(' :: (d.parameters ++ [')'])))) ++
      d.suffix := by
    simp [chars]
  rw [hchars]
  exact List.mem_getLast?_append_of_mem_getLast? hc

/-- An operator is never read as a function. It is skipped, unless its symbol opens an angle
bracket: then the last word behind its parameters is read as the name of a variable. -/
theorem parse_operator (h : d.Formed) (hraw : subject raw = d.chars) :
    (∀ m, parse owner access raw ≠ .method m) ∧
    (∀ isConstructor, parse owner access raw ≠ .deleted isConstructor) ∧
    (d.name ∉ openSymbols → parse owner access raw = .skip) ∧
    (d.name ∈ openSymbols → d.Plain →
      ((d.isSkipped || !d.declares) → parse owner access raw = .skip) ∧
      ((!d.isSkipped && d.declares) →
        ∃ type, parse owner access raw = .variable type (String.ofList d.lastWord))) := by
  refine ⟨?_, ?_, ?_, ?_⟩
  · intro m
    rw [h.parse_eq hraw]
    split
    · nofun
    · exact parseVariable_ne_method _ m
  · intro isConstructor
    rw [h.parse_eq hraw]
    split
    · nofun
    · rcases parseVariable_cases d.chars with heq | ⟨type, name, heq⟩
      · rw [heq]
        nofun
      · rw [heq]
        nofun
  · intro hname
    rw [h.parse_eq hraw, if_pos]
    rw [h.isSome_cutAtParen hname, Bool.or_true]
  · intro hname hplain
    have hchars : d.chars =
        (d.front ++ (d.name ++ (d.space ++ '(' :: d.parameters))) ++ ')' :: d.suffix := by
      simp [chars]
    obtain ⟨hvariable, hskip⟩ := parseVariable_paren hchars (hplain.cutAtAssign_eq hname)
      (hplain.paired hname) (hplain.splitTopLevel_eq hname) hplain.suffix hplain.specifiers
      (ends_of_subject hraw) rfl
    rw [h.parse_eq hraw, hplain.cutAtParen_eq hname, Option.isSome_none, Bool.or_false]
    constructor
    · intro hcond
      split
      · rfl
      · next hfirst =>
        rw [Bool.or_eq_true] at hcond
        exact hskip (hcond.resolve_left hfirst)
    · intro hcond
      rw [Bool.and_eq_true, Bool.not_eq_true'] at hcond
      rw [← isSkipped, hcond.1, if_neg (by simp)]
      exact hvariable hcond.2

/-- A comparison that throws nothing. -/
def comparison (name : String) : Operator where
  leading := "bool ".toList
  gap := []
  name := name.toList
  space := []
  parameters := "const Version& o".toList
  suffix := " noexcept".toList

theorem comparison_formed {name : String} (hname : name.toList ∈ symbols)
    (hbounded : ∀ c ∈ name.toList.head?, isWord c = false) : (comparison name).Formed where
  outside := by
    show Fronting "bool ".toList
    decide
  apart := by simp [comparison, isWord]
  named := .inl hname
  bounded := hbounded
  gap := by simp [comparison]
  space := by simp [comparison]

theorem comparison_plain {name : String} (h : (comparison name).Formed) :
    (comparison name).Plain where
  toFormed := h
  unassigned := by simp [comparison]
  unlisted := by
    show Sealed "bool ".toList
    decide
  pairedLeading := .of_not_mem (by simp [comparison])
  pairedParameters := .of_not_mem (by simp [comparison])
  grouped := .of_plain (by simp [comparison, brackets])
  suffix := by simp [comparison, isSuffixChar, isWord]
  specifiers := by
    show ∀ w ∈ words " noexcept".toList, isModifier w = false
    decide

theorem parse_operator_comparison :
    (comparison "==").Formed ∧ (comparison "<").Plain ∧
    parse (some "Version") .everyone "bool operator==(const Version& o) noexcept".toList = .skip ∧
    ∃ type, parse (some "Version") .everyone "bool operator<(const Version& o) noexcept".toList =
      .variable type "noexcept" := by
  have hequal : (comparison "==").Formed := comparison_formed (by decide) (by simp [isWord])
  have hless : (comparison "<").Plain :=
    comparison_plain (comparison_formed (by decide) (by simp [isWord]))
  refine ⟨hequal, hless, ?_, ?_⟩
  · exact (parse_operator hequal (by decide)).2.2.1 (by decide)
  · exact ((parse_operator hless.toFormed (by decide)).2.2.2 (by decide) hless).2
      (by decide)

/-- A comparison enters the table as a variable that is named for its specifier. -/
theorem parse_reads_operator :
    parse (some "Version") .everyone "bool operator<(const Version& o) noexcept".toList =
      .variable "bool operator<(const Version& o)" "noexcept" := by
  decide +kernel

end Operator

end TestSynth.Declaration
