import Mathlib
import TestSynth.Declaration.Basic
import TestSynth.Proofs.Text.Nesting
/-!
Types as syntax trees, how they are written, and what the readers of declarations find in the
written text.
-/
namespace TestSynth.Declaration

open Text

/-- Words that begin or modify a declaration, or that mark it for export. -/
def isReserved (w : List Char) : Bool :=
  skippedWords.contains (String.ofList w) || isModifier w || w == "operator".toList

/-- An identifier that may stand in a type. -/
structure Word where
  text : String
  identifier : isIdentifier text.toList
  free : isReserved text.toList = false

/-- An identifier that may be declared: no word that reads as part of a type. -/
structure Name extends Word where
  plain : typeWords.contains text = false

inductive Declarator where
  | pointer
  | reference
  | forwarding
deriving DecidableEq, Repr

def Declarator.chars : Declarator → List Char
  | .pointer => ['*']
  | .reference => ['&']
  | .forwarding => ['&', '&']

/-- The parts of a type that have a grammar of their own: the name with its scopes and arguments,
the list of arguments, and the whole. -/
inductive Part where
  | qualified
  | arguments
  | whole
deriving DecidableEq, Repr

/-- The list of arguments is the only part with commas of its own. -/
def Part.isList : Part → Bool
  | .arguments => true
  | .qualified | .whole => false

inductive TypeSyntax : Part → Type where
  | name (w : Word) : TypeSyntax .qualified
  | member (scope : TypeSyntax .qualified) (w : Word) : TypeSyntax .qualified
  | applied (template : TypeSyntax .qualified) (arguments : TypeSyntax .arguments) :
      TypeSyntax .qualified
  | last (t : TypeSyntax .whole) : TypeSyntax .arguments
  | more (t : TypeSyntax .whole) (arguments : TypeSyntax .arguments) : TypeSyntax .arguments
  | plain (q : TypeSyntax .qualified) : TypeSyntax .whole
  | const (q : TypeSyntax .qualified) : TypeSyntax .whole
  | declarator (t : TypeSyntax .whole) (d : Declarator) : TypeSyntax .whole

namespace TypeSyntax

def chars : {part : Part} → TypeSyntax part → List Char
  | _, .name w => w.text.toList
  | _, .member scope w => scope.chars ++ ':' :: ':' :: w.text.toList
  | _, .applied template arguments => template.chars ++ ('<' :: arguments.chars ++ ['>'])
  | _, .last t => t.chars
  | _, .more t arguments => t.chars ++ ',' :: ' ' :: arguments.chars
  | _, .plain q => q.chars
  | _, .const q => "const".toList ++ ' ' :: q.chars
  | _, .declarator t d => t.chars ++ d.chars

-- The equation of `const` is slow to make, and every induction below rewrites with it.
attribute [local simp] chars

def text {part : Part} (t : TypeSyntax part) : String := String.ofList t.chars

end TypeSyntax

section Predicates
variable {a b cs : List Char} {c : Char}

/-- The characters a type is written with. -/
def isTypeChar (c : Char) : Bool := isWord c || " :<>,*&".toList.contains c

/-- The characters a type ends in. -/
def isTypeEnd (c : Char) : Bool := isWord c || ">*&".toList.contains c

theorem isTypeChar_of_isWord (h : isWord c) : isTypeChar c := by
  simp [isTypeChar, h]

/-- No identifier of the text is reserved. -/
def Unreserved (cs : List Char) : Prop := ∀ w ∈ tokens cs, isReserved w = false

/-- Every colon of the text is half of `::`, so that the text is passed over before a colon. -/
def Paired (cs : List Char) : Prop :=
  ∀ previous rest, ∃ p, beforeColon previous (cs ++ rest) = cs ++ beforeColon p rest

theorem Unreserved.append_cons (ha : Unreserved a) (hc : isWord c = false) (hb : Unreserved b) :
    Unreserved (a ++ c :: b) := by
  intro w hw
  rw [tokens, fields_append_cons (by simp [hc])] at hw
  exact (List.mem_append.1 hw).elim (ha w) (hb w)

theorem unreserved_nil : Unreserved [] := by
  simp only [Unreserved, tokens, fields, List.forall_mem_cons]
  exact ⟨by decide, by simp⟩

theorem Unreserved.of_isWord (h : ∀ c ∈ cs, isWord c) (hfree : isReserved cs = false) :
    Unreserved cs := by
  rw [Unreserved, tokens, fields_eq_singleton (by simpa using h)]
  simpa using hfree

theorem Unreserved.ordinary (h : Unreserved cs) : "operator".toList ∉ tokens cs := fun hmem => by
  have hfree := h _ hmem
  revert hfree
  decide

theorem Unreserved.not_mem_words {w : List Char} (h : Unreserved cs) (hw : isReserved w)
    (hword : ∀ c ∈ w, isWord c) : w ∉ words cs := fun hmem => by
  simp [h w (mem_tokens_of_mem_words hmem hword)] at hw

/-- Dropping words that are reserved leaves a text without reserved identifiers as it is. -/
theorem Unreserved.filter_words {p : List Char → Bool} (h : Unreserved cs)
    (hp : ∀ w, p w → isReserved w ∧ ∀ c ∈ w, isWord c) :
    (words cs).filter (!p ·) = words cs := by
  refine List.filter_eq_self.2 fun w hw => ?_
  cases hpw : p w with
  | false => rfl
  | true => exact absurd hw (h.not_mem_words (hp w hpw).1 (hp w hpw).2)

theorem Paired.of_not_mem (h : ':' ∉ cs) : Paired cs := by
  intro previous rest
  induction cs generalizing previous with
  | nil => exact ⟨previous, rfl⟩
  | cons c cs ih =>
    rw [List.mem_cons, not_or] at h
    obtain ⟨p, hp⟩ := ih h.2 (some c)
    exact ⟨p, by simp [beforeColon, Ne.symm h.1, hp]⟩

theorem Paired.append (ha : Paired a) (hb : Paired b) : Paired (a ++ b) := by
  intro previous rest
  obtain ⟨p, hp⟩ := ha previous (b ++ rest)
  obtain ⟨p', hp'⟩ := hb p rest
  exact ⟨p', by rw [List.append_assoc, hp, hp', List.append_assoc]⟩

theorem paired_colons : Paired [':', ':'] := fun _ _ => ⟨some ':', by simp [beforeColon]⟩

theorem Paired.beforeColon_eq (h : Paired cs) : beforeColon none cs = cs := by
  obtain ⟨p, hp⟩ := h none []
  simpa [beforeColon] using hp

end Predicates

namespace Word

variable (w : Word)

theorem isWord_chars : ∀ c ∈ w.text.toList, isWord c := isWord_of_mem_isIdentifier w.identifier

theorem starts : ∃ c rest, w.text.toList = c :: rest ∧ isWordStart c :=
  isIdentifier_cons w.identifier

theorem ne_nil : w.text.toList ≠ [] := by
  obtain ⟨c, rest, h, -⟩ := w.starts
  simp [h]

theorem unreserved : Unreserved w.text.toList := .of_isWord w.isWord_chars w.free

theorem not_mem {c : Char} (h : isWord c = false) : c ∉ w.text.toList :=
  not_mem_of_holds w.isWord_chars h

theorem solid : ∀ c ∈ w.text.toList, isBlank c = false := fun c hc =>
  isBlank_of_isWord (w.isWord_chars c hc)

theorem tidy : Tidy w.text.toList := .of_solid w.solid

theorem nested {inside : Bool} : Nested inside w.text.toList :=
  .of_plain fun c hc => isPlain_of_isWord (w.isWord_chars c hc)

theorem paired : Paired w.text.toList := .of_not_mem (w.not_mem (by decide))

end Word

/-- The word in front of a constant type. -/
def constWord : Word := ⟨"const", by decide, by decide⟩

namespace TypeSyntax

variable {part : Part}

theorem isTypeChar_chars (t : TypeSyntax part) : ∀ c ∈ t.chars, isTypeChar c := by
  induction t with
  | name w => exact fun c hc => isTypeChar_of_isWord (w.isWord_chars c hc)
  | member scope w ih =>
    simp only [chars, List.forall_mem_append, List.forall_mem_cons]
    exact ⟨ih, by decide, by decide, fun c hc => isTypeChar_of_isWord (w.isWord_chars c hc)⟩
  | applied template arguments iht iha =>
    simp only [chars, List.forall_mem_append, List.forall_mem_cons]
    exact ⟨iht, ⟨by decide, iha⟩, by decide, List.forall_mem_nil _⟩
  | last t ih => exact ih
  | more t arguments iht iha =>
    simp only [chars, List.forall_mem_append, List.forall_mem_cons]
    exact ⟨iht, by decide, by decide, iha⟩
  | plain q ih => exact ih
  | const q ih =>
    simp only [chars, List.forall_mem_append, List.forall_mem_cons]
    exact ⟨fun c hc => isTypeChar_of_isWord (constWord.isWord_chars c hc), by decide, ih⟩
  | declarator t d ih =>
    simp only [chars, List.forall_mem_append]
    exact ⟨ih, by cases d <;> simp [Declarator.chars, isTypeChar]⟩

theorem not_mem_chars (t : TypeSyntax part) {c : Char} (h : isTypeChar c = false) :
    c ∉ t.chars := not_mem_of_holds t.isTypeChar_chars h

theorem starts (t : TypeSyntax part) : ∃ c rest, t.chars = c :: rest ∧ isWordStart c := by
  induction t with
  | name w => exact w.starts
  | const q ih => exact ⟨'c', _, rfl, by decide⟩
  | last t ih => exact ih
  | plain q ih => exact ih
  | member _ _ ih | applied _ _ ih | more _ _ ih | declarator _ _ ih =>
    obtain ⟨c, rest, h, hc⟩ := ih
    exact ⟨c, _, by rw [chars, h, List.cons_append], hc⟩

theorem ne_nil (t : TypeSyntax part) : t.chars ≠ [] := by
  obtain ⟨c, rest, h, -⟩ := t.starts
  simp [h]

theorem ends (t : TypeSyntax part) : ∀ c ∈ t.chars.getLast?, isTypeEnd c := by
  have hword : ∀ (w : Word), ∀ c ∈ w.text.toList.getLast?, isTypeEnd c := fun w c hc => by
    simp [isTypeEnd, w.isWord_chars c (List.mem_of_getLast? hc)]
  induction t with
  | name w => exact hword w
  | member scope w ih =>
    rw [chars, List.getLast?_append_of_ne_nil _ (by simp), List.getLast?_cons_of_ne_nil (by simp),
      List.getLast?_cons_of_ne_nil w.ne_nil]
    exact hword w
  | applied template arguments =>
    rw [chars, List.getLast?_append_of_ne_nil _ (by simp), List.getLast?_concat]
    simp [isTypeEnd]
  | last t ih => exact ih
  | more t arguments _ ih =>
    rw [chars, List.getLast?_append_of_ne_nil _ (by simp), List.getLast?_cons_of_ne_nil (by simp),
      List.getLast?_cons_of_ne_nil arguments.ne_nil]
    exact ih
  | plain q ih => exact ih
  | const q ih =>
    rw [chars, List.getLast?_append_of_ne_nil _ (by simp), List.getLast?_cons_of_ne_nil q.ne_nil]
    exact ih
  | declarator t d =>
    rw [chars, List.getLast?_append_of_ne_nil _ (by cases d <;> simp [Declarator.chars])]
    cases d <;> simp [Declarator.chars, isTypeEnd]

/-- No declarator and no closing bracket stands where a type starts. -/
theorem starts_apart (t : TypeSyntax part) :
    ∀ c ∈ t.chars.head?, c ≠ '*' ∧ c ≠ '&' ∧ c ≠ '>' := by
  obtain ⟨c, rest, h, hc⟩ := t.starts
  simp only [h, List.head?_cons, Option.mem_some_iff, forall_eq']
  exact apart_of_isWordStart hc

theorem tidy (t : TypeSyntax part) : Tidy t.chars := by
  induction t with
  | name w => exact w.tidy
  | member scope w ih => exact ih.append (.cons (by decide) (.cons (by decide) w.tidy))
  | applied template arguments iht iha =>
    have hclose : Tidy ['>'] := .of_solid (by simp [isBlank])
    exact iht.append (.cons (by decide) (iha.append hclose))
  | last t ih => exact ih
  | more t arguments iht iha =>
    have hcomma : Tidy [','] := .of_solid (by simp [isBlank])
    rw [chars, List.append_cons]
    exact (iht.append hcomma).spaced iha (by simp) arguments.ne_nil (by simp)
      arguments.starts_apart
  | plain q ih => exact ih
  | const q ih =>
    have hends : ∀ c ∈ "const".toList.getLast?, c ≠ '<' := by simp
    exact constWord.tidy.spaced ih constWord.ne_nil q.ne_nil hends q.starts_apart
  | declarator t d ih =>
    refine ih.append (.of_solid ?_)
    cases d <;> simp [Declarator.chars, isBlank]

theorem nested (t : TypeSyntax part) : Nested part.isList t.chars := by
  induction t with
  | name w => exact w.nested
  | member scope w ih =>
    have hcolon : isPlain ':' := by simp [isPlain]
    exact ih.append (.plain hcolon (.plain hcolon w.nested))
  | applied template arguments iht iha => exact iht.append (.angles iha .nil)
  | last t ih => exact ih.mono
  | more t arguments iht iha =>
    have hspace : isPlain ' ' := by simp [isPlain]
    exact iht.mono.append (.comma (.plain hspace iha))
  | plain q ih => exact ih
  | const q ih =>
    have hspace : isPlain ' ' := by simp [isPlain]
    exact constWord.nested.append (.plain hspace ih)
  | declarator t d ih =>
    exact ih.append (.of_plain (by cases d <;> simp [Declarator.chars, isPlain]))

theorem unreserved (t : TypeSyntax part) : Unreserved t.chars := by
  induction t with
  | name w => exact w.unreserved
  | member scope w ih =>
    exact ih.append_cons (by decide) (unreserved_nil.append_cons (by decide) w.unreserved)
  | applied template arguments iht iha =>
    exact iht.append_cons (by decide) (iha.append_cons (by decide) unreserved_nil)
  | last t ih => exact ih
  | more t arguments iht iha =>
    exact iht.append_cons (by decide) (unreserved_nil.append_cons (by decide) iha)
  | plain q ih => exact ih
  | const q ih => exact constWord.unreserved.append_cons (by decide) ih
  | declarator t d ih =>
    cases d with
    | pointer | reference => exact ih.append_cons (by decide) unreserved_nil
    | forwarding =>
      exact ih.append_cons (by decide) (unreserved_nil.append_cons (by decide) unreserved_nil)

theorem paired (t : TypeSyntax part) : Paired t.chars := by
  induction t with
  | name w => exact w.paired
  | member scope w ih => exact ih.append (paired_colons.append w.paired)
  | applied template arguments iht iha =>
    have hopen : Paired ['<'] := .of_not_mem (by decide)
    have hclose : Paired ['>'] := .of_not_mem (by decide)
    exact iht.append (hopen.append (iha.append hclose))
  | last t ih => exact ih
  | more t arguments iht iha =>
    have hcomma : Paired [',', ' '] := .of_not_mem (by decide)
    exact iht.append (hcomma.append iha)
  | plain q ih => exact ih
  | const q ih =>
    have hspace : Paired [' '] := .of_not_mem (by decide)
    exact constWord.paired.append (hspace.append ih)
  | declarator t d ih => exact ih.append (.of_not_mem (by cases d <;> decide))

end TypeSyntax

end TestSynth.Declaration
