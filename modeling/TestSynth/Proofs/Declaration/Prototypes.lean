import Mathlib
import TestSynth.Proofs.Declaration.Cutting
import TestSynth.Proofs.Declaration.WellFormed
/-!
Declarations of member functions as they are written, and which of them are read as pure.
-/
namespace TestSynth.Declaration

open Text

section Suffixes
variable {cs a b : List Char} {c : Char}

/-- What stands behind the last assignment of a suffix. -/
def suffixValue (cs : List Char) : List Char :=
  match cutAtLast ['='] (normalizeSpaces cs) with
  | some (_, value) => trim value
  | none => []

/-- A suffix without initialisers and a return type of its own is told by what is assigned. -/
theorem parseSuffix_eq (hcolon : ':' ∉ cs) (harrow : ¬ ['-', '>'] <:+: cs) :
    (parseSuffix (trimEnd (squeeze cs))).isPure = (suffixValue cs == ['0']) ∧
      (parseSuffix (trimEnd (squeeze cs))).isDeleted = (suffixValue cs == "delete".toList) ∧
      (parseSuffix (trimEnd (squeeze cs))).trailingReturn = none := by
  have hsolid : ∀ c ∈ ['-', '>'], isBlank c = false := by simp [isBlank]
  have hnoarrow : ∀ t, t <:+: normalizeSpaces cs → cutAt ['-', '>'] t = none := fun t ht => by
    have hnot : ¬ ['-', '>'] <:+: t := fun h => by
      refine harrow ?_
      have := h.trans ht
      rwa [normalizeSpaces_eq, infix_trim hsolid (by simp), infix_squeeze hsolid (by simp)] at this
    rw [← containsText_iff, containsText] at hnot
    simpa using hnot
  have hbefore : beforeColon none (normalizeSpaces cs) = normalizeSpaces cs := by
    exact (Paired.of_not_mem fun hmem =>
      hcolon (mem_of_mem_normalizeSpaces (by decide) hmem)).beforeColon_eq
  simp only [parseSuffix, suffixValue, trim_trimEnd_squeeze, hbefore]
  cases hcut : cutAtLast ['='] (normalizeSpaces cs) with
  | none => simp [hnoarrow _ List.infix_rfl]
  | some cut =>
    have hinfix : cut.1 <:+: normalizeSpaces cs := by
      rw [cutAtLast_eq_append hcut, List.append_assoc]
      exact (List.prefix_append _ _).isInfix
    simp [hnoarrow _ hinfix]

end Suffixes

/-- What a declaration may be marked with at its end. -/
inductive Mark where
  | pure
  | default
  | delete
deriving DecidableEq, Repr

def Mark.chars : Mark → List Char
  | pure => ['0']
  | default => "default".toList
  | delete => "delete".toList

@[simp]
theorem Mark.chars_pure : Mark.pure.chars = ['0'] := rfl

@[simp]
theorem Mark.chars_default : Mark.default.chars = "default".toList := by decide +kernel

@[simp]
theorem Mark.chars_delete : Mark.delete.chars = "delete".toList := by decide +kernel

/-- The mark at the end of a declaration, with the blanks around it. -/
structure Ending where
  lead : List Char
  mark : Mark
  tail : List Char

/-- A member function as it is declared: its specifiers and its return type, its name, its
parameters, and what follows them. -/
structure Prototype where
  leading : List Char
  name : List Char
  gap : List Char
  parameters : List Char
  qualifiers : List Char
  ending : Option Ending

namespace Prototype

def before (p : Prototype) : List Char := p.leading ++ (p.name ++ p.gap)

def suffix (p : Prototype) : List Char :=
  p.qualifiers ++ match p.ending with
    | some e => '=' :: (e.lead ++ (e.mark.chars ++ e.tail))
    | none => []

def chars (p : Prototype) : List Char := p.before ++ '(' :: (p.parameters ++ ')' :: p.suffix)

def isPure (p : Prototype) : Bool := p.ending.any (·.mark == .pure)

def isDeleted (p : Prototype) : Bool := p.ending.any (·.mark == .delete)

/-- How a declaration goes on behind its name. -/
structure Closing (p : Prototype) : Prop where
  enclosed : Enclosed '(' ')' p.parameters
  qualifiers : '=' ∉ p.qualifiers ∧ ':' ∉ p.qualifiers ∧ ¬ ['-', '>'] <:+: p.qualifiers
  blanks : ∀ e ∈ p.ending, (∀ c ∈ e.lead, isBlank c) ∧ ∀ c ∈ e.tail, isBlank c

variable {owner : String} {p : Prototype}

theorem normalizeSpaces_mark {e : Ending} (hlead : ∀ c ∈ e.lead, isBlank c)
    (htail : ∀ c ∈ e.tail, isBlank c) :
    normalizeSpaces (e.lead ++ (e.mark.chars ++ e.tail)) = e.mark.chars := by
  have hmark : words e.mark.chars = [e.mark.chars] := by
    cases e.mark <;> exact words_eq_singleton (by decide) (by simp [isBlank])
  rw [normalizeSpaces, words_blanks_append hlead, words_append_blanks htail, hmark, joinWith]

theorem not_mem_value {e : Ending} (hlead : ∀ c ∈ e.lead, isBlank c)
    (htail : ∀ c ∈ e.tail, isBlank c) {c : Char} (hc : isBlank c = false)
    (hmark : ∀ m : Mark, c ∉ m.chars) : c ∉ e.lead ++ (e.mark.chars ++ e.tail) := by
  simp only [List.mem_append, not_or]
  exact ⟨not_mem_of_holds hlead hc, hmark e.mark, not_mem_of_holds htail hc⟩

theorem suffixValue_suffix (h : p.Closing) :
    suffixValue p.suffix = p.ending.elim [] (·.mark.chars) := by
  obtain ⟨hassign, -, -⟩ := h.qualifiers
  cases hending : p.ending with
  | none =>
    have hnone : '=' ∉ normalizeSpaces p.suffix := fun hmem => by
      refine hassign ?_
      simpa [suffix, hending] using mem_of_mem_normalizeSpaces (by decide) hmem
    rw [suffixValue, cutAtLast_eq_none hnone]
    rfl
  | some e =>
    obtain ⟨hlead, htail⟩ := h.blanks e hending
    have hvalue : '=' ∉ trimEnd (squeeze (e.lead ++ (e.mark.chars ++ e.tail))) := fun hmem => by
      refine not_mem_value hlead htail (c := '=') (by decide) (fun m => by cases m <;> decide) ?_
      rw [← mem_squeeze (by decide)]
      exact (prefix_dropEndWhile _ _).subset hmem
    have hsuffix : normalizeSpaces p.suffix = trimStart (squeeze p.qualifiers) ++
        '=' :: trimEnd (squeeze (e.lead ++ (e.mark.chars ++ e.tail))) := by
      simp only [suffix, hending]
      rw [normalizeSpaces_eq, squeeze_append _ _ (by decide), trim_append_cons (by decide)]
    rw [suffixValue, hsuffix, cutAtLast_append_cons _ hvalue]
    exact (trim_trimEnd_squeeze _).trans (normalizeSpaces_mark hlead htail)

/-- A prototype is pure or deleted as it is marked. -/
theorem parseSuffix_suffix (h : p.Closing) :
    (parseSuffix (trimEnd (squeeze p.suffix))).isPure = p.isPure ∧
      (parseSuffix (trimEnd (squeeze p.suffix))).isDeleted = p.isDeleted ∧
      (parseSuffix (trimEnd (squeeze p.suffix))).trailingReturn = none := by
  have hvalue := suffixValue_suffix h
  have hcolon : ':' ∉ p.suffix := by
    rw [suffix, List.mem_append, not_or]
    refine ⟨h.qualifiers.2.1, ?_⟩
    cases hending : p.ending with
    | none => simp
    | some e =>
      obtain ⟨hlead, htail⟩ := h.blanks e hending
      rw [List.mem_cons, not_or]
      exact ⟨by decide, not_mem_value hlead htail (by decide) fun m => by cases m <;> decide⟩
  have harrow : ¬ ['-', '>'] <:+: p.suffix := by
    rw [suffix]
    cases hending : p.ending with
    | none =>
      rw [List.append_nil]
      exact h.qualifiers.2.2
    | some e =>
      obtain ⟨hlead, htail⟩ := h.blanks e hending
      rw [infix_append_cons (by simp) (by simp), not_or]
      refine ⟨h.qualifiers.2.2, fun hwithin => ?_⟩
      exact not_mem_value hlead htail (c := '-') (by decide) (fun m => by cases m <;> decide)
        (hwithin.subset List.mem_cons_self)
  obtain ⟨hpure, hdeleted, htrailing⟩ := parseSuffix_eq hcolon harrow
  refine ⟨hpure.trans ?_, hdeleted.trans ?_, htrailing⟩
  · rw [hvalue, isPure]
    cases p.ending with
    | none => rfl
    | some e => cases hmark : e.mark <;> simp [hmark]
  · rw [hvalue, isDeleted]
    cases p.ending with
    | none => rfl
    | some e => cases hmark : e.mark <;> simp [hmark]

/-- What a member function of `owner` is by its name. -/
inductive Kind (owner : String) (p : Prototype) : Prop
  | method : isIdentifier p.name → p.name ≠ owner.toList →
      (∃ w ∈ words (core p.leading), isModifier w = false) → Kind owner p
  | constructor : isIdentifier p.name → p.name = owner.toList →
      (∀ w ∈ words (core p.leading), isModifier w) → Kind owner p
  | destructor : isIdentifier owner.toList → p.name = '~' :: owner.toList → Kind owner p

/-- What is left of the specifiers as the type. -/
def returned (p : Prototype) : List Char :=
  tidyType (joinWith [' '] ((words (core p.leading)).filter (!isModifier ·)))

theorem Kind.name (h : Kind owner p) : p.name ≠ [] ∧ (∀ c ∈ p.name, isWord c ∨ c = '~') ∧
    isIdentifier (p.name.dropWhile (· == '~')) := by
  have hidentifier : isIdentifier p.name → p.name ≠ [] ∧ (∀ c ∈ p.name, isWord c ∨ c = '~') ∧
      isIdentifier (p.name.dropWhile (· == '~')) := fun h => by
    obtain ⟨c, rest, hcons, hstart⟩ := isIdentifier_cons h
    have htilde : c ≠ '~' := ne_of_holds hstart (by decide)
    refine ⟨by simp [hcons], fun c hc => .inl (isWord_of_mem_isIdentifier h c hc), ?_⟩
    rw [hcons, List.dropWhile_cons_of_neg (by simpa using htilde), ← hcons]
    exact h
  cases h with
  | method h => exact hidentifier h
  | constructor h => exact hidentifier h
  | destructor howner hname =>
    obtain ⟨c, rest, hcons, hstart⟩ := isIdentifier_cons howner
    have htilde : c ≠ '~' := ne_of_holds hstart (by decide)
    rw [hname]
    refine ⟨List.cons_ne_nil _ _, ?_, ?_⟩
    · rw [List.forall_mem_cons]
      exact ⟨.inr rfl, fun c hc => .inl (isWord_of_mem_isIdentifier howner c hc)⟩
    · rw [List.dropWhile_cons_of_pos (by decide), hcons,
        List.dropWhile_cons_of_neg (by simpa using htilde), ← hcons]
      exact howner

theorem Kind.specialKind? (h : Kind owner p) :
    ∃ kind, Declaration.specialKind? (some owner) p.name p.returned = some kind := by
  cases h with
  | method hidentifier hother hreturned =>
    obtain ⟨c, rest, hcons, hstart⟩ := isIdentifier_cons hidentifier
    have htilde : c ≠ '~' := ne_of_holds hstart (by decide)
    have hne : p.returned ≠ [] := by
      obtain ⟨w, hw, hmodifier⟩ := hreturned
      obtain ⟨hne, hsolid⟩ := solid_of_mem_words hw
      obtain ⟨d, hd⟩ := List.exists_mem_of_ne_nil w hne
      exact tidyType_ne_nil (mem_joinWith (List.mem_filter.2 ⟨hw, by simpa using hmodifier⟩) hd)
        (hsolid d hd)
    refine ⟨(false, false), ?_⟩
    rw [hcons] at hother ⊢
    simp [Declaration.specialKind?, hother, hne, htilde]
  | constructor hidentifier howner hmodifiers =>
    have hnil : p.returned = [] := by
      have hfilter : (words (core p.leading)).filter (!isModifier ·) = [] := by
        rw [List.filter_eq_nil_iff]
        exact fun w hw => by simp [hmodifiers w hw]
      rw [returned, hfilter]
      rfl
    exact ⟨(true, false), by simp [Declaration.specialKind?, howner, hnil]⟩
  | destructor howner hname =>
    have hne : '~' :: owner.toList ≠ owner.toList := List.cons_ne_self _ _
    exact ⟨(false, true), by simp [Declaration.specialKind?, hname, hne]⟩

/-- A member function with a name of its own. -/
structure Named (owner : String) (p : Prototype) : Prop extends Closing p where
  kind : Kind owner p
  gap : ∀ c ∈ p.gap, isBlank c
  apart : ∀ c ∈ p.leading.getLast?, isNamePart c = false
  front : Fronting p.before
  unassigned : '=' ∉ p.leading
  accepted : (parseParameters? p.parameters).isSome
  direct : ∀ c ∈ (trimStart p.parameters).head?, c ≠ '*' ∧ c ≠ '&' ∧ c ≠ '^'
  attributes : Unattributed p.chars

theorem core_before (h : Named owner p) :
    core p.before = core p.leading ++ (p.name ++ squeeze p.gap) := by
  obtain ⟨hne, hname, -⟩ := h.kind.name
  obtain ⟨c, rest, hcons⟩ := List.exists_cons_of_ne_nil hne
  have hsolid : ∀ d ∈ p.name, isBlank d = false ∧ d ≠ ',' ∧ d ≠ ':' := fun d hd => by
    rcases hname d hd with hword | rfl
    · exact ⟨isBlank_of_isWord hword, ne_of_holds hword (by decide), ne_of_holds hword (by decide)⟩
    · decide
  rw [hcons, List.forall_mem_cons] at hsolid
  obtain ⟨⟨hblank, hcomma, hcolon⟩, hrest⟩ := hsolid
  rw [before, hcons, List.cons_append, core_append_cons hblank hcomma hcolon,
    squeeze_append_of_solid fun d hd => (hrest d hd).1]
  rfl

theorem unassigned_before (h : Named owner p) : '=' ∉ p.before := by
  obtain ⟨-, hname, -⟩ := h.kind.name
  simp only [before, List.mem_append, not_or]
  refine ⟨h.unassigned, fun hmem => ?_, not_mem_of_holds h.gap (by decide)⟩
  rcases hname _ hmem with hword | heq
  · simp [isWord] at hword
  · cases heq

/-- A character of a name is no blank. -/
theorem isNamePart_of_isBlank {c : Char} (h : isBlank c) : isNamePart c = false := by
  simp [isNamePart, isWord_of_isBlank h, ne_of_holds (d := ':') h (by decide),
    ne_of_holds (d := '~') h (by decide)]

theorem Kind.nameParts (h : Kind owner p) :
    ∀ c ∈ p.name, isNamePart c ∧ isBlank c = false ∧ c ≠ ':' := by
  intro c hc
  obtain ⟨-, hname, -⟩ := h.name
  rcases hname c hc with hword | rfl
  · exact ⟨by simp [isNamePart, hword], isBlank_of_isWord hword, ne_of_holds hword (by decide)⟩
  · decide

/-- What is told apart before the list of parameters. -/
theorem Named.parts (h : Named owner p) :
    takeEndWhile isNamePart (trimEnd (core p.before)) = p.name ∧
      dropEndWhile isNamePart (trimEnd (core p.before)) = core p.leading := by
  obtain ⟨hne, -, -⟩ := h.kind.name
  have hfront : trimEnd (core p.before) = core p.leading ++ p.name := by
    rw [core_before h, ← List.append_assoc]
    refine dropEndWhile_append (fun c hc => ?_) (squeeze_blanks h.gap)
    rw [List.getLast?_append_of_ne_nil _ hne] at hc
    exact (h.kind.nameParts c (List.mem_of_getLast? hc)).2.1
  have hapart := getLast?_core (fun _ => isNamePart_of_isBlank) h.apart
  have hpart : ∀ c ∈ p.name, isNamePart c := fun c hc => (h.kind.nameParts c hc).1
  rw [hfront]
  exact ⟨takeEndWhile_append hapart hpart, dropEndWhile_append hapart hpart⟩

theorem Named.direct_squeeze (h : Named owner p) : ((trimStart (squeeze p.parameters)).head?.any
    fun c => c == '*' || c == '&' || c == '^') = false := by
  rw [trimStart_squeeze, head?_any_squeeze_of_solid fun c hc => by
    simp [ne_of_holds (d := '*') hc (by decide), ne_of_holds (d := '&') hc (by decide),
      ne_of_holds (d := '^') hc (by decide)]]
  cases hhead : (trimStart p.parameters).head? with
  | none => rfl
  | some c => simpa [and_assoc] using h.direct c hhead

theorem isPure_of_isDeleted (h : p.isDeleted) : p.isPure = false := by
  rw [isDeleted] at h
  rw [isPure]
  cases hending : p.ending with
  | none => rfl
  | some e =>
    rw [hending] at h
    simp_all

end Prototype

/-- Whether a pure function is declared. -/
def isPure : Declaration → Bool
  | .method m => m.flags.isPureVirtual
  | _ => false

theorem isPure_eq_false {d : Declaration} (h : ∀ m, d ≠ .method m) : d.isPure = false := by
  cases d
  case method m => exact absurd rfl (h m)
  all_goals rfl

namespace Prototype

variable {access : Access} {owner : String} {p : Prototype}

/-- A function with a name of its own is pure as its prototype is marked. -/
theorem Named.isPure_parseFunction (h : Named owner p) :
    (parseFunction (some owner) access (core p.before) (squeeze p.parameters)
      (trimEnd (squeeze p.suffix))).isPure = p.isPure := by
  obtain ⟨hne, -, hidentifier⟩ := h.kind.name
  obtain ⟨hqualified, hleading⟩ := h.parts
  obtain ⟨hpure, hdeleted, htrailing⟩ := parseSuffix_suffix h.toClosing
  obtain ⟨kind, hkind⟩ := h.kind.specialKind?
  have hcolons : cutAtLast [':', ':'] p.name = none :=
    cutAtLast_eq_none fun hmem => (h.kind.nameParts _ hmem).2.2 rfl
  obtain ⟨list, hlist⟩ : ∃ list, parseParameters? (squeeze p.parameters) = some list := by
    rw [parseParameters?_squeeze]
    exact Option.isSome_iff_exists.1 h.accepted
  have hempty : p.name.isEmpty = false := by simpa using hne
  rw [returned] at hkind
  rw [parseFunction]
  simp only [hqualified, hleading, h.direct_squeeze, declaredName?, hcolons, hidentifier, hdeleted,
    htrailing, hlist, hempty, hkind, Bool.not_true, Bool.false_eq_true, if_false]
  split
  · next hdeleted => exact (isPure_of_isDeleted hdeleted).symm
  · exact hpure

/-- An operator: the word in the place of a name, and its symbol or the type it converts to. -/
structure Overload (p : Prototype) : Prop where
  named : ∃ symbol, p.name = "operator".toList ++ symbol ∧ ∀ c ∈ symbol.head?, isWord c = false
  gap : ∀ c ∈ p.gap, isBlank c
  apart : ∀ c ∈ p.leading.getLast?, isWord c = false
  unclosed : cutAtParen 0 none (p.leading ++ "operator".toList) = none
  attributes : Unattributed p.chars

/-- The text of an operator, up to its symbol. -/
theorem core_operator (leading rest : List Char) :
    core (leading ++ ("operator".toList ++ rest)) =
      core leading ++ ("operator".toList ++ squeeze rest) := by
  have hsolid : ∀ c ∈ "perator".toList, isBlank c = false := by simp [isBlank]
  have hcore := core_append_cons (c := 'o') (by decide) (by decide) (by decide) leading
    ("perator".toList ++ rest)
  rw [squeeze_append_of_solid hsolid] at hcore
  exact hcore

/-- The word of an operator is a token of what stands before its symbol. -/
theorem Overload.mem_tokens_core (h : Overload p) {rest : List Char}
    (hrest : ∀ c ∈ rest.head?, isWord c = false) :
    "operator".toList ∈ tokens (core p.leading ++ ("operator".toList ++ rest)) :=
  mem_tokens (getLast?_core (fun _ => isWord_of_isBlank) h.apart)
    (by simp [isWord]) hrest

/-- What stands behind the word of an operator. -/
theorem Overload.symbol (h : Overload p) : ∃ symbol, p.before =
      p.leading ++ ("operator".toList ++ symbol) ∧ ∀ c ∈ symbol.head?, isWord c = false := by
  obtain ⟨symbol, hname, hsymbol⟩ := h.named
  refine ⟨symbol ++ p.gap, by simp [before, hname], head?_append_holds hsymbol fun c hc => ?_⟩
  exact isWord_of_isBlank (h.gap c (List.mem_of_head? hc))

theorem Overload.isSkipped (h : Overload p) : Declaration.isSkipped p.before := by
  obtain ⟨symbol, hbefore, hsymbol⟩ := h.symbol
  rw [Declaration.isSkipped, hbefore, core_operator, Bool.or_eq_true]
  exact .inr (List.contains_iff_mem.2 <| h.mem_tokens_core (head?_squeeze_isWord hsymbol))

/-- No operator is read as a function, pure or not. -/
theorem Overload.isPure_parse (h : Overload p) (owner : Option String) :
    (parse owner access p.chars).isPure = false := by
  obtain ⟨symbol, hbefore, hsymbol⟩ := h.symbol
  have hchars : trimEnd (core p.chars) = core p.leading ++ ("operator".toList ++
      trimEnd (squeeze (symbol ++ '(' :: (p.parameters ++ ')' :: p.suffix)))) := by
    have hword : ∀ rest, core p.leading ++ ("operator".toList ++ rest) =
        (core p.leading ++ "operato".toList) ++ 'r' :: rest := fun rest => by simp
    rw [chars, hbefore, List.append_assoc, List.append_assoc, core_operator, hword, hword,
      trimEnd_append_cons (by decide)]
  have hunclosed : cutAtParen 0 none (core p.leading ++ "operator".toList) = none := by
    have hcore := core_operator p.leading []
    have hcut := cutAtParen_core (p.leading ++ "operator".toList)
    rw [List.append_nil, squeeze_nil, List.append_nil] at hcore
    rwa [hcore, h.unclosed] at hcut
  rw [parse_eq h.attributes]
  split
  · rfl
  · split
    · exact isPure_eq_false fun m => parseVariable_ne_method _ m
    · next before rest hcut =>
      rw [hchars, ← List.append_assoc] at hcut
      obtain ⟨tail, hbefore', htail⟩ := cutAtParen_append hunclosed hcut
      have hhead : ∀ c ∈ tail.head?, isWord c = false := fun c hc => by
        obtain ⟨more, hmore⟩ :
            tail <+: squeeze (symbol ++ '(' :: (p.parameters ++ ')' :: p.suffix)) :=
          (htail ▸ List.prefix_append _ _ : tail <+: _).trans (prefix_dropEndWhile _ _)
        have hparen : ∀ {cs : List Char}, ∀ d ∈ ('(' :: cs).head?, isWord d = false :=
            fun d hd => by
          cases hd
          rfl
        exact head?_squeeze_isWord (head?_append_holds hsymbol hparen) c
          (hmore ▸ List.mem_head?_append_of_mem_head? hc)
      have hmem := h.mem_tokens_core hhead
      rw [← List.append_assoc, ← hbefore'] at hmem
      rw [if_pos (List.contains_iff_mem.2 hmem)]
      rfl

/-- A declaration of a class body is that of a function with a name or of an operator. -/
inductive Readable (owner : String) (p : Prototype) : Prop
  | named : Named owner p → Readable owner p
  | overload : Overload p → Readable owner p

/-- What is not read as a function for the words before its parameters. -/
def isOverlooked (p : Prototype) : Bool := Declaration.isSkipped p.before

theorem Readable.isPure_parse (h : Readable owner p) :
    (parse (some owner) access p.chars).isPure = (p.isPure && !p.isOverlooked) := by
  cases h with
  | named h =>
    rw [chars, parse_closed h.front (fun _ => unassigned_before h) h.enclosed h.attributes,
      isOverlooked]
    cases Declaration.isSkipped p.before with
    | true => simp [Declaration.isPure]
    | false => simpa using h.isPure_parseFunction
  | overload h => rw [h.isPure_parse, isOverlooked, h.isSkipped, Bool.not_true, Bool.and_false]

end Prototype

end TestSynth.Declaration
