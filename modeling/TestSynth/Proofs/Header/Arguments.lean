import Mathlib
import TestSynth.Proofs.Declaration.Prototypes
import TestSynth.Proofs.Header.Body
import TestSynth.Proofs.Header.Items
/-!
Parameter lists with default arguments. A braced initialiser from which the group is taken out is
read as a zero in its place.
-/
namespace TestSynth.Declaration

open Text Header

/-- What a parameter is when its argument is left out. A braced initialiser is a type, or nothing,
and a group. -/
inductive Default where
  | none
  | value (text : List Char)
  | braced (type inside gap : List Char)
deriving DecidableEq, Repr

namespace Default

def chars : Default → List Char
  | none => []
  | value text => '=' :: text
  | braced type inside gap => '=' :: (type ++ '{' :: (inside ++ '}' :: gap))

/-- A zero in the place of a braced initialiser. -/
def zeroed : Default → Default
  | braced .. => value [' ', '0']
  | d => d

/-- What is left of an initialiser without its group. -/
def emptied : Default → Default
  | braced type _ gap => value (type ++ gap)
  | d => d

def isBraced : Default → Bool
  | braced .. => true
  | _ => false

end Default

/-- A parameter as it is declared: its type and its name, and its default. -/
structure Argument where
  declared : List Char
  default : Default
deriving DecidableEq, Repr

namespace Argument

def chars (a : Argument) : List Char := a.declared ++ a.default.chars

def zeroed (a : Argument) : Argument := { a with default := a.default.zeroed }

def emptied (a : Argument) : Argument := { a with default := a.default.emptied }

end Argument

def listOf (as : List Argument) : List Char := joinWith [','] (as.map Argument.chars)

section Stretches
variable {a b cs : List Char} {c : Char}

/-- A piece of a parameter list that opens and closes no parentheses but its own, ends no
statement, and holds no attribute and no label. -/
structure Stretch (cs : List Char) : Prop where
  enclosed : Enclosed '(' ')' cs
  unattributed : Unattributed cs
  unmarked : Unmarked cs
  unlabelled : Unlabelled cs

instance (cs : List Char) : Decidable (Stretch cs) :=
  decidable_of_iff (Enclosed '(' ')' cs ∧ Unattributed cs ∧ Unmarked cs ∧ Unlabelled cs)
    ⟨fun ⟨h, i, j, k⟩ => ⟨h, i, j, k⟩, fun ⟨h, i, j, k⟩ => ⟨h, i, j, k⟩⟩

theorem Stretch.append_cons (ha : Stretch a) (hb : Stretch b) (hc : c = '=' ∨ c = ',') :
    Stretch (a ++ c :: b) := by
  have hplain : c ≠ '(' ∧ c ≠ ')' ∧ c ≠ '[' ∧ isMark c = false ∧ isWord c = false := by
    rcases hc with rfl | rfl <;> decide
  obtain ⟨hopen, hclose, hattribute, hmark, hword⟩ := hplain
  exact
    { enclosed := ha.enclosed.append_cons (by decide) hb.enclosed hopen hclose
      unattributed := ha.unattributed.append_cons hattribute hb.unattributed
      unmarked := List.forall_mem_append.2
        ⟨ha.unmarked, List.forall_mem_cons.2 ⟨hmark, hb.unmarked⟩⟩
      unlabelled := ha.unlabelled.append_cons hword hb.unlabelled }

theorem stretch_nil : Stretch [] where
  enclosed := by decide
  unattributed := by decide
  unmarked := List.forall_mem_nil _
  unlabelled := unlabelled_nil

theorem Stretch.append_blanks (ha : Stretch a) (hb : ∀ c ∈ b, isBlank c) :
    Stretch (a ++ b) where
  enclosed := ha.enclosed.append_blanks (by decide) (by decide) (by decide) hb
  unattributed := by
    have h := @infix_append_blanks ['[', '['] a (by simp [isBlank]) (by simp) [] b (by simp) hb
    rw [List.nil_append] at h
    exact (not_congr h).2 ha.unattributed
  unmarked := List.forall_mem_append.2 ⟨ha.unmarked, unmarked_of_blanks hb⟩
  unlabelled := by
    cases b with
    | nil => rw [List.append_nil]; exact ha.unlabelled
    | cons c b =>
      rw [List.forall_mem_cons] at hb
      have hblanks : Unlabelled b := by simpa using unlabelled_nil.blanks_append hb.2
      exact ha.unlabelled.append_cons (isWord_of_isBlank hb.1) hblanks

theorem stretch_joinWith {ts : List (List Char)} (h : ∀ t ∈ ts, Stretch t) :
    Stretch (joinWith [','] ts) := by
  induction ts with
  | nil => exact stretch_nil
  | cons t ts ih =>
    rw [List.forall_mem_cons] at h
    cases ts with
    | nil => exact h.1
    | cons u ts =>
      rw [joinWith, List.append_assoc]
      · exact h.1.append_cons (ih h.2) (.inr rfl)
      · exact List.cons_ne_nil _ _

end Stretches

section Arguments
variable {a b : Argument} {as bs : List Argument}

/-- How a default without a group is written. -/
inductive Default.Plain : Default → Prop
  | none : Plain .none
  | value {text : List Char} : Stretch text → Sealed text → text.head? ≠ some '=' →
    Plain (.value text)

/-- What may stand before the group of a braced initialiser: the type that it is of, or nothing. -/
structure Initialized (type : List Char) : Prop extends Stretch type where
  closed : Sealed type
  assigned : type.head? ≠ some '='
  dotless : ¬ ['.', '.', '.'] <:+: type
  quoteless : '"' ∉ type

instance (type : List Char) : Decidable (Initialized type) :=
  decidable_of_iff (Stretch type ∧ Sealed type ∧ type.head? ≠ some '=' ∧
      ¬ ['.', '.', '.'] <:+: type ∧ '"' ∉ type)
    ⟨fun ⟨h, i, j, k, l⟩ => ⟨h, i, j, k, l⟩, fun ⟨h, i, j, k, l⟩ => ⟨h, i, j, k, l⟩⟩

/-- How a default is written, braced or not. -/
inductive Default.Written : Default → Prop
  | plain {d : Default} : d.Plain → Written d
  | braced {type inside gap : List Char} : Initialized type → bracesBalanced inside →
    (∀ c ∈ gap, isBlank c) → Written (.braced type inside gap)

instance : DecidablePred Default.Plain
  | .none => isTrue .none
  | .value text => decidable_of_iff (Stretch text ∧ Sealed text ∧ text.head? ≠ some '=')
      ⟨fun ⟨h, i, j⟩ => .value h i j, fun | .value h i j => ⟨h, i, j⟩⟩
  | .braced .. => isFalse nofun

instance : DecidablePred Default.Written
  | .none => isTrue (.plain .none)
  | .value text => decidable_of_iff (Default.value text).Plain ⟨.plain, fun | .plain h => h⟩
  | .braced type inside gap =>
    decidable_of_iff (Initialized type ∧ bracesBalanced inside ∧ gap.all isBlank)
      ⟨fun ⟨h, i, j⟩ => .braced h i (List.all_eq_true.1 j),
        fun | .braced h i j => ⟨h, i, List.all_eq_true.2 j⟩⟩

/-- How a parameter is written whose default is as it may be. -/
structure Argument.With (p : Default → Prop) (a : Argument) : Prop where
  stretch : Stretch a.declared
  closed : Sealed a.declared
  assignable : Assignable a.declared
  default : p a.default

instance (p : Default → Prop) [DecidablePred p] (a : Argument) : Decidable (a.With p) :=
  decidable_of_iff (Stretch a.declared ∧ Sealed a.declared ∧ Assignable a.declared ∧ p a.default)
    ⟨fun ⟨h, i, j, k⟩ => ⟨h, i, j, k⟩, fun ⟨h, i, j, k⟩ => ⟨h, i, j, k⟩⟩

theorem Default.Written.plain_of_not_braced {d : Default} (h : d.Written)
    (hbraced : d.isBraced = false) : d.Plain := by
  cases h with
  | plain hplain => exact hplain
  | braced => cases hbraced

theorem Default.Written.of_braced {type inside gap : List Char}
    (h : (Default.braced type inside gap).Written) :
    Initialized type ∧ bracesBalanced inside ∧ ∀ c ∈ gap, isBlank c := by
  cases h with
  | plain hplain => cases hplain
  | braced htype hinside hgap => exact ⟨htype, hinside, hgap⟩

theorem Argument.With.of_default {p q : Default → Prop} (h : a.With p) (hq : q a.default) :
    a.With q :=
  ⟨h.stretch, h.closed, h.assignable, hq⟩

theorem Default.Written.zeroed {d : Default} (h : d.Written) : d.zeroed.Plain := by
  cases h with
  | plain h => cases h <;> constructor <;> assumption
  | braced =>
    have hunmarked : Unmarked [' ', '0'] := by simp [Unmarked, isMark]
    exact .value ⟨by decide, by decide, hunmarked, by decide⟩ (by decide) (by decide)

theorem Default.Written.emptied {d : Default} (h : d.Written) : d.emptied.Plain := by
  cases h with
  | plain h => cases h <;> constructor <;> assumption
  | @braced type _ gap htype _ hgap =>
    refine .value (htype.append_blanks hgap) (htype.closed.append_blanks hgap) fun heq => ?_
    refine head?_append_holds (q := (· ≠ '=')) (fun c hc => ?_) (fun c hc => ?_) _ heq rfl
    · rintro rfl
      exact htype.assigned hc
    · exact ne_of_holds (hgap c (List.mem_of_mem_head? hc)) (by decide)

theorem Argument.With.zeroed (h : a.With Default.Written) : a.zeroed.With Default.Plain :=
  ⟨h.stretch, h.closed, h.assignable, h.default.zeroed⟩

theorem Argument.With.emptied (h : a.With Default.Written) : a.emptied.With Default.Plain :=
  ⟨h.stretch, h.closed, h.assignable, h.default.emptied⟩

theorem Argument.With.stretch_chars (h : a.With Default.Plain) : Stretch a.chars := by
  obtain ⟨declared, default⟩ := a
  cases h.default with
  | none => simpa [Argument.chars, Default.chars] using h.stretch
  | value htext => exact h.stretch.append_cons htext (.inl rfl)

theorem Argument.With.sealed_chars (h : a.With Default.Plain) : Sealed a.chars := by
  obtain ⟨declared, default⟩ := a
  cases h.default with
  | none => simpa [Argument.chars, Default.chars] using h.closed
  | value _ htext => exact h.closed.append_cons htext (by decide)

/-- Arguments that differ in the value of a default at most. -/
inductive Argument.Similar : Argument → Argument → Prop
  | refl (a : Argument) : Similar a a
  | value (declared : List Char) {s t : List Char} : ¬ ['.', '.', '.'] <:+: s →
    ¬ ['.', '.', '.'] <:+: t → Similar ⟨declared, .value s⟩ ⟨declared, .value t⟩

theorem Argument.With.similar (h : a.With Default.Written) : a.emptied.Similar a.zeroed := by
  obtain ⟨declared, default⟩ := a
  cases h.default with
  | plain h => cases h <;> exact .refl _
  | @braced type inside gap htype _ hgap =>
    refine .value declared ?_ (by decide +kernel)
    have := @infix_append_blanks ['.', '.', '.'] type (by simp [isBlank]) (by simp) [] gap (by simp)
      hgap
    rw [List.nil_append] at this
    exact (not_congr this).2 htype.dotless

/-- The entries of similar arguments are read alike. -/
theorem Argument.Similar.alike (h : a.Similar b) (ha : a.With Default.Plain)
    (hb : b.With Default.Plain) : Alike (normalizeSpaces a.chars) (normalizeSpaces b.chars) := by
  cases h with
  | refl => exact ⟨rfl, rfl, rfl⟩
  | @value declared s t hs ht =>
    have hempty : ∀ v, (normalizeSpaces (declared ++ '=' :: v)).isEmpty = false := fun v => by
      rw [normalizeSpaces_eq, squeeze_append _ _ (by decide), trim_append_cons (by decide)]
      simp
    have hdots : ∀ v, ¬ ['.', '.', '.'] <:+: v →
        isEllipsis (normalizeSpaces (declared ++ '=' :: v)) = isEllipsis declared := fun v hv => by
      have hsolid : ∀ c ∈ ['.', '.', '.'], isBlank c = false := by simp [isBlank]
      rw [Bool.eq_iff_iff, isEllipsis, isEllipsis, containsText_iff, containsText_iff,
        normalizeSpaces_eq, infix_trim hsolid (by simp), infix_squeeze hsolid (by simp),
        infix_append_cons (by simp) (by simp), or_iff_left hv]
    have hvalue : ∀ {v}, Argument.With Default.Plain ⟨declared, .value v⟩ →
        v.head? ≠ some '=' := fun h => by
      cases h.default with
      | value _ _ hhead => exact hhead
    exact
      { empty := (hempty s).trans (hempty t).symm
        ellipsis := (hdots s hs).trans (hdots t ht).symm
        parameter := ha.assignable.entry_eq (hvalue ha) (hvalue hb) }

theorem forall_zeroed (h : ∀ a ∈ as, a.With Default.Written) :
    ∀ b ∈ as.map Argument.zeroed, b.With Default.Plain :=
  List.forall_mem_map.2 fun a ha => (h a ha).zeroed

theorem forall_emptied (h : ∀ a ∈ as, a.With Default.Written) :
    ∀ b ∈ as.map Argument.emptied, b.With Default.Plain :=
  List.forall_mem_map.2 fun a ha => (h a ha).emptied

theorem similar_lists (h : ∀ a ∈ as, a.With Default.Written) :
    List.Forall₂ Argument.Similar (as.map Argument.emptied) (as.map Argument.zeroed) := by
  rw [List.forall₂_map_left_iff, List.forall₂_map_right_iff, List.forall₂_same]
  exact fun a ha => (h a ha).similar

theorem listOf_cons_cons (a b : Argument) (as : List Argument) :
    listOf (a :: b :: as) = a.chars ++ ',' :: listOf (b :: as) := by
  simp [listOf, joinWith]

/-- Similar lists are the same, or a default makes both more than a void list. -/
theorem similar_cases (h : List.Forall₂ Argument.Similar as bs) :
    as = bs ∨ (∃ a ∈ as, '=' ∈ a.chars) ∧ ∃ b ∈ bs, '=' ∈ b.chars := by
  induction h with
  | nil => exact .inl rfl
  | @cons a b as bs hab _ ih =>
    cases hab with
    | refl =>
      rcases ih with rfl | ⟨⟨c, hc, hmem⟩, d, hd, hmem'⟩
      · exact .inl rfl
      · exact .inr ⟨⟨c, List.mem_cons_of_mem _ hc, hmem⟩, d, List.mem_cons_of_mem _ hd, hmem'⟩
    | value declared =>
      refine .inr ⟨⟨_, List.mem_cons_self, ?_⟩, _, List.mem_cons_self, ?_⟩ <;>
        exact List.mem_append_right _ List.mem_cons_self

theorem isVoid_of_mem {cs : List Char} (h : '=' ∈ cs) : isVoid cs = false := by
  obtain ⟨a, b, hsplit⟩ := List.append_of_mem h
  have hmem : '=' ∈ trim cs := by
    rw [hsplit, trim_append_cons (by decide)]
    exact List.mem_append_right _ List.mem_cons_self
  rw [isVoid, Bool.or_eq_false_iff, List.isEmpty_eq_false_iff, beq_eq_false_iff_ne]
  refine ⟨List.ne_nil_of_mem hmem, ?_⟩
  intro hvoid
  rw [hvoid] at hmem
  revert hmem
  decide

theorem entries_listOf (hne : as ≠ []) (h : ∀ a ∈ as, a.With Default.Plain) :
    entries (listOf as) = (as.map fun a => normalizeSpaces a.chars).filter (!·.isEmpty) := by
  have hsealed : ∀ t ∈ as.map Argument.chars, Sealed t := fun t ht => by
    obtain ⟨a, ha, rfl⟩ := List.mem_map.1 ht
    exact (h a ha).sealed_chars
  rw [entries, listOf, splitTopLevel_joinWith_sealed (by simpa using hne) hsealed, List.map_map]
  rfl

/-- What is left of braced defaults is read as zeros in their place. -/
theorem parseParameters?_emptied (h : ∀ a ∈ as, a.With Default.Written) :
    parseParameters? (listOf (as.map Argument.emptied)) =
      parseParameters? (listOf (as.map Argument.zeroed)) := by
  rcases similar_cases (similar_lists h) with heq | ⟨⟨a, ha, heq⟩, b, hb, heq'⟩
  · rw [heq]
  · have hvoid : ∀ {bs : List Argument} {b}, b ∈ bs → '=' ∈ b.chars → isVoid (listOf bs) = false :=
      fun hb hmem => isVoid_of_mem (mem_joinWith (List.mem_map_of_mem hb) hmem)
    have halike : List.Forall₂ Alike
        ((as.map Argument.emptied).map fun a => normalizeSpaces a.chars)
        ((as.map Argument.zeroed).map fun a => normalizeSpaces a.chars) := by
      rw [List.map_map, List.map_map, List.forall₂_map_left_iff, List.forall₂_map_right_iff,
        List.forall₂_same]
      exact fun a ha => (h a ha).similar.alike (h a ha).emptied (h a ha).zeroed
    rw [parseParameters?_eq, parseParameters?_eq, hvoid ha heq, hvoid hb heq',
      entries_listOf (List.ne_nil_of_mem ha) (forall_emptied h),
      entries_listOf (List.ne_nil_of_mem hb) (forall_zeroed h)]
    exact parseEntries?_congr halike

/-- Similar lists start with the same character. -/
theorem head?_trimStart_similar (h : List.Forall₂ Argument.Similar as bs) :
    (trimStart (listOf as)).head? = (trimStart (listOf bs)).head? := by
  have hhead : ∀ {c}, isBlank c = false → ∀ p q r : List Char,
      (trimStart (p ++ c :: q)).head? = (trimStart (p ++ c :: r)).head? := fun hc p q r => by
    simp [trimStart_append_cons hc]
  cases h with
  | nil => rfl
  | @cons a b as bs hab htail =>
    cases hab with
    | refl =>
      cases htail with
      | nil => rfl
      | cons =>
        rw [listOf_cons_cons, listOf_cons_cons]
        exact hhead (by decide) _ _ _
    | @value declared s t =>
      have hfirst : ∀ (v : List Char) (as : List Argument), ∃ rest,
          listOf (⟨declared, .value v⟩ :: as) = declared ++ '=' :: rest := fun v as => by
        cases as with
        | nil => exact ⟨v, rfl⟩
        | cons a as =>
          rw [listOf_cons_cons]
          exact ⟨v ++ ',' :: listOf (a :: as), by simp [Argument.chars, Default.chars]⟩
      obtain ⟨p, hp⟩ := hfirst s as
      obtain ⟨q, hq⟩ := hfirst t bs
      rw [hp, hq]
      exact hhead (by decide) _ _ _

theorem stretch_listOf (h : ∀ a ∈ as, a.With Default.Plain) : Stretch (listOf as) := by
  refine stretch_joinWith fun t ht => ?_
  obtain ⟨a, ha, rfl⟩ := List.mem_map.1 ht
  exact (h a ha).stretch_chars

end Arguments

section Lists
variable {owner : Option String} {access : Access} {before suffix : List Char}
  {as : List Argument}

/-- What is left of braced defaults is read as zeros in their place, in the list of any function. -/
theorem parse_emptied (hfront : Fronting before)
    (hassign : isSkipped before = false → '=' ∉ before) (hbefore : Unattributed before)
    (h : ∀ a ∈ as, a.With Default.Written) (hsuffix : Unattributed suffix) :
    parse owner access (before ++ '(' :: (listOf (as.map Argument.emptied) ++ ')' :: suffix)) =
      parse owner access (before ++ '(' :: (listOf (as.map Argument.zeroed) ++ ')' :: suffix)) := by
  have hemptied := forall_emptied h
  have hzeroed := forall_zeroed h
  have hattributes : ∀ {bs : List Argument}, (∀ b ∈ bs, b.With Default.Plain) →
      Unattributed (before ++ '(' :: (listOf bs ++ ')' :: suffix)) := fun hbs =>
    hbefore.append_cons (by decide) ((stretch_listOf hbs).unattributed.append_cons (by decide)
      hsuffix)
  rw [parse_closed hfront hassign (stretch_listOf hemptied).enclosed (hattributes hemptied),
    parse_closed hfront hassign (stretch_listOf hzeroed).enclosed (hattributes hzeroed)]
  split
  · rfl
  · refine parseFunction_congr ?_ ?_
    · have hhead := head?_trimStart_similar (similar_lists h)
      rw [trimStart_squeeze, trimStart_squeeze, head?_squeeze, head?_squeeze, hhead]
    · rw [parseParameters?_squeeze, parseParameters?_squeeze, parseParameters?_emptied h]

end Lists

end TestSynth.Declaration
