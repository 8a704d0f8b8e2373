import Mathlib
import TestSynth.Proofs.Header.Arguments
import TestSynth.Proofs.Header.Members
/-!
Functions whose parameters have groups in braces for defaults. In a class the groups are taken out
of the text before it is cut into statements, and a semicolon stands for one that no comma follows:
the list of parameters is cut there, and the function is lost. Outside classes a group opens a block
wherever it stands.
-/
namespace TestSynth.Header

open Text Declaration

section Stripping
variable {a : Argument} {as : List Argument} {rest tail : List Char}

/-- A group is taken out of a default when a comma follows. -/
theorem stripBodies_chars (h : a.With Default.Written)
    (hrest : a.default.isBraced → bodyMark rest = []) :
    stripBodies (a.chars ++ rest) = a.emptied.chars ++ stripBodies rest := by
  obtain ⟨declared, default⟩ := a
  have hdeclared : '{' ∉ declared := h.stretch.unmarked.not_mem rfl
  cases h.default with
  | plain hplain =>
    have hsame : default.emptied = default := by cases hplain <;> rfl
    have hunmarked := (h.of_default hplain).stretch_chars.unmarked
    rw [Argument.emptied, hsame]
    exact stripBodies_append_of_not_mem (hunmarked.not_mem rfl) rest
  | @braced type inside gap htype hinside hgap =>
    have hfront : '{' ∉ declared ++ '=' :: type := by
      simp [hdeclared, htype.unmarked.not_mem (c := '{') rfl]
    have hchars : (⟨declared, .braced type inside gap⟩ : Argument).chars ++ rest =
        (declared ++ '=' :: type) ++ '{' :: (inside ++ '}' :: (gap ++ rest)) := by
      simp [Argument.chars, Default.chars]
    rw [hchars, stripBodies_append_of_not_mem hfront,
      stripBodies_group (splitGroup_of_balanced hinside _), bodyMark_blanks_append hgap, hrest rfl,
      List.nil_append, stripBodies_append_of_not_mem (not_mem_of_holds hgap (by decide))]
    simp [Argument.emptied, Default.emptied, Argument.chars, Default.chars]

/-- All groups but one at the end are taken out of a parameter list. -/
theorem stripBodies_listOf (h : ∀ a ∈ as, a.With Default.Written)
    (hlast : ∀ a ∈ as.getLast?, a.default.isBraced = false) (rest : List Char) :
    stripBodies (listOf as ++ rest) = listOf (as.map Argument.emptied) ++ stripBodies rest := by
  induction as with
  | nil => rfl
  | cons a as ih =>
    rw [List.forall_mem_cons] at h
    cases as with
    | nil =>
      refine stripBodies_chars h.1 fun hbraced => ?_
      cases (hlast a rfl).symm.trans hbraced
    | cons b as =>
      have hmark : bodyMark (',' :: (listOf (b :: as) ++ rest)) = [] := rfl
      have hcomma := stripBodies_append_of_not_mem (a := [',']) (by decide)
        (listOf (b :: as) ++ rest)
      rw [List.singleton_append, ih h.2 hlast] at hcomma
      have hlist : listOf ((a :: b :: as).map Argument.emptied) =
          a.emptied.chars ++ ',' :: listOf ((b :: as).map Argument.emptied) :=
        listOf_cons_cons _ _ _
      rw [listOf_cons_cons, List.append_assoc, List.cons_append,
        stripBodies_chars h.1 fun _ => hmark, hcomma, hlist, List.append_assoc]
      rfl

/-- A text without marks, and with zeros for the defaults in braces, keeps everything. -/
theorem stripBodies_listOf_zeroed (h : ∀ a ∈ as, a.With Default.Written) (rest : List Char) :
    stripBodies (listOf (as.map Argument.zeroed) ++ rest) =
      listOf (as.map Argument.zeroed) ++ stripBodies rest := by
  have hzeroed : ∀ b ∈ as.map Argument.zeroed, b.With Default.Plain :=
    List.forall_mem_map.2 fun a ha => (h a ha).zeroed
  exact stripBodies_append_of_not_mem ((stretch_listOf hzeroed).unmarked.not_mem rfl) rest

end Stripping

section Surroundings
variable {header : SourceUnit} {cs ds inside : List Char} {l : Layer} {ls : List Layer}

/-- A namespace or a linkage block around a text. -/
structure Layer where
  front : List Char
  head : List Char
  rest : List Char

def Layer.chars (l : Layer) (inside : List Char) : List Char :=
  l.front ++ (l.head ++ '{' :: (inside ++ '}' :: l.rest))

structure Layer.Sound (l : Layer) : Prop where
  settled : Settled l.front
  unmarked : Unmarked l.head
  opens : (∃ name, blockKind (trim l.head) = .scope name) ∨ blockKind (trim l.head) = .linkage
  balanced : bracesBalanced l.rest

/-- A text in blocks that are looked into, the outermost first. -/
def surround (ls : List Layer) (inside : List Char) : List Char := ls.foldr Layer.chars inside

theorem Layer.Sound.balanced_chars (h : l.Sound) (hinside : bracesBalanced inside) :
    bracesBalanced (l.chars inside) := by
  rw [Layer.chars, bracesBalanced_append h.settled.balanced,
    bracesBalanced_append (bracesBalanced_of_unmarked h.unmarked), bracesBalanced_block hinside]
  exact h.balanced

theorem balanced_surround (hls : ∀ l ∈ ls, l.Sound) (h : bracesBalanced inside) :
    bracesBalanced (surround ls inside) := by
  induction ls with
  | nil => exact h
  | cons l ls ih =>
    rw [List.forall_mem_cons] at hls
    exact hls.1.balanced_chars (ih hls.2)

/-- Texts that declare the same classes and functions in every namespace. -/
def SameItems (header : SourceUnit) (cs ds : List Char) : Prop :=
  ∀ scope, (items scope cs).filterMap (itemClass? header) =
      (items scope ds).filterMap (itemClass? header) ∧
    (items scope cs).filterMap (itemFunction? header) =
      (items scope ds).filterMap (itemFunction? header)

theorem SameItems.settled_append {front : List Char} (hfront : Settled front)
    (h : SameItems header cs ds) : SameItems header (front ++ cs) (front ++ ds) := by
  intro scope
  obtain ⟨hclasses, hfunctions⟩ := h scope
  rw [filterMap_itemClass?_append header hfront, filterMap_itemClass?_append header hfront,
    filterMap_itemFunction?_append header hfront, filterMap_itemFunction?_append header hfront,
    hclasses, hfunctions]
  exact ⟨rfl, rfl⟩

theorem SameItems.layer (hl : l.Sound) (hcs : bracesBalanced cs) (hds : bracesBalanced ds)
    (h : SameItems header cs ds) : SameItems header (l.chars cs) (l.chars ds) := by
  refine SameItems.settled_append hl.settled fun scope => ?_
  rw [items_block hl.unmarked (splitGroup_of_balanced hcs _),
    items_block hl.unmarked (splitGroup_of_balanced hds _)]
  rcases hl.opens with ⟨name, hkind⟩ | hkind
  · simp only [hkind, List.filterMap_append, h (joinScopes scope name)]
    exact ⟨trivial, trivial⟩
  · simp only [hkind, List.filterMap_append, h scope]
    exact ⟨trivial, trivial⟩

theorem SameItems.surround (hls : ∀ l ∈ ls, l.Sound) (hcs : bracesBalanced cs)
    (hds : bracesBalanced ds) (h : SameItems header cs ds) :
    SameItems header (surround ls cs) (surround ls ds) := by
  induction ls with
  | nil => exact h
  | cons l ls ih =>
    rw [List.forall_mem_cons] at hls
    exact SameItems.layer hls.1 (balanced_surround hls.2 hcs) (balanced_surround hls.2 hds)
      (ih hls.2)

/-- Headers whose texts are these once comments and literals are masked come to the same table. -/
def SameTable (header : SourceUnit) (cs ds : List Char) : Prop :=
  ∀ (limits : Limits) (text text' : String), sanitize text.toList = cs →
    sanitize text'.toList = ds → extract limits header text = extract limits header text'

theorem SameItems.sameTable (h : SameItems header cs ds) : SameTable header cs ds := by
  intro limits text text' htext htext'
  obtain ⟨hclasses, hfunctions⟩ := h ""
  rw [extract, extract, htext, htext', ofItems, ofItems, hclasses, hfunctions]

end Surroundings

section ClassScope
variable {owner : Option String} {access : Access} {scope : String} {header : SourceUnit}
  {head : ClassHead} {front before tail suffix post rest inside : List Char}
  {label : Option (Access × List Char)} {as : List Argument} {a : Argument}

/-- What stands before the parameters of a function. -/
structure Heading (before : List Char) : Prop where
  fronting : Fronting before
  unassigned : isSkipped before = false → '=' ∉ before
  starts : (trimStart before).head? ≠ some ','
  unattributed : Unattributed before
  unmarked : Unmarked before
  unlabelled : Unlabelled before

instance (before : List Char) : Decidable (Heading before) :=
  decidable_of_iff (Fronting before ∧ (isSkipped before = false → '=' ∉ before) ∧
      (trimStart before).head? ≠ some ',' ∧ Unattributed before ∧ Unmarked before ∧
      Unlabelled before)
    ⟨fun ⟨h, i, j, k, l, m⟩ => ⟨h, i, j, k, l, m⟩, fun ⟨h, i, j, k, l, m⟩ => ⟨h, i, j, k, l, m⟩⟩

/-- A function with a list of parameters, and what follows it. -/
def functionText (before list tail : List Char) : List Char :=
  before ++ '(' :: (list ++ ')' :: tail)

theorem Heading.bodyMark_eq (h : Heading before) (rest : List Char) :
    bodyMark (labelChars label ++ (before ++ '(' :: rest)) = [';'] := by
  cases label with
  | some label =>
    obtain ⟨access, gap⟩ := label
    cases access <;> rfl
  | none =>
    have hhead : ∀ c ∈ (trimStart before ++ '(' :: rest).head?, c ≠ ',' ∧ c ≠ '{' :=
      head?_append_holds (q := fun c => c ≠ ',' ∧ c ≠ '{')
        (fun c hc => ⟨fun heq => h.starts (heq ▸ hc), fun heq =>
          h.unmarked.not_mem (c := '{') rfl
            ((List.dropWhile_suffix _).subset (heq ▸ List.mem_of_mem_head? hc))⟩)
        (fun c hc => by cases hc; decide)
    have hstart : trimStart (labelChars none ++ (before ++ '(' :: rest)) =
        trimStart before ++ '(' :: rest := trimStart_append_cons (by decide) before rest
    rw [bodyMark, hstart]
    split
    · next heq => exact absurd rfl (hhead _ heq).1
    · next heq => exact absurd rfl (hhead _ heq).2
    · rfl

theorem unmarked_labelChars (hlabel : ∀ l ∈ label, ∀ c ∈ l.2, isBlank c) :
    Unmarked (labelChars label) := by
  cases label with
  | none => exact List.forall_mem_nil _
  | some label =>
    refine List.forall_mem_append.2 ⟨fun c hc => ?_, List.forall_mem_append.2 ⟨fun c hc => ?_, ?_⟩⟩
    · have hword := isWord_keyword _ c hc
      exact isMark_eq_false_iff.2 ⟨ne_of_holds hword (by decide), ne_of_holds hword (by decide),
        ne_of_holds hword (by decide)⟩
    · exact unmarked_of_blanks (hlabel _ rfl) c hc
    · exact List.forall_mem_singleton.2 rfl

/-- Bodies are taken out of a text before a function and out of what follows its parameters. -/
theorem stripBodies_functionText (hfront : Settled front)
    (hlabel : ∀ l ∈ label, ∀ c ∈ l.2, isBlank c) (hbefore : Heading before) (rest : List Char) :
    stripBodies (front ++ (labelChars label ++ (before ++ '(' :: rest))) =
      stripBodies front ++ (labelChars label ++ (before ++ '(' :: stripBodies rest)) := by
  have hopen : '{' ∉ labelChars label ++ (before ++ ['(']) := by
    simp only [List.mem_append, not_or]
    exact ⟨(unmarked_labelChars hlabel).not_mem rfl, hbefore.unmarked.not_mem rfl, by decide⟩
  have hsplit : ∀ rest, labelChars label ++ (before ++ '(' :: rest) =
      labelChars label ++ (before ++ ['(']) ++ rest := fun rest => by simp
  rw [stripBodies_append hfront.balanced (hbefore.bodyMark_eq rest), hsplit,
    stripBodies_append_of_not_mem hopen, ← hsplit]

/-- What follows the parameters of a function in a class, up to the end of its declaration. -/
structure Trailing (suffix : List Char) : Prop where
  unattributed : Unattributed suffix
  ended : ';' ∉ suffix
  unlabelled : Unlabelled suffix

instance (suffix : List Char) : Decidable (Trailing suffix) :=
  decidable_of_iff (Unattributed suffix ∧ ';' ∉ suffix ∧ Unlabelled suffix)
    ⟨fun ⟨h, i, j⟩ => ⟨h, i, j⟩, fun ⟨h, i, j⟩ => ⟨h, i, j⟩⟩

theorem statement_functionText (hbefore : Heading before)
    (hcolon : label.isSome → before.head? ≠ some ':') {list : List Char} (hlist : Stretch list)
    (hsuffix : Trailing suffix) : Statement label (functionText before list suffix) where
  unlabelled := hbefore.unlabelled.append_cons (by decide)
    (hlist.unlabelled.append_cons (by decide) hsuffix.unlabelled)
  ended := by
    simp only [functionText, List.mem_append, List.mem_cons, not_or]
    exact ⟨hbefore.unmarked.not_mem rfl, by decide, hlist.unmarked.not_mem rfl, by decide,
      hsuffix.ended⟩
  apart := fun hsome heq => by
    cases before with
    | nil => cases heq
    | cons c before => exact hcolon hsome heq

/-- A body declares the same whether its defaults are braced or zeros, where the last is not
braced. -/
theorem classModel_zeroed (hfront : Settled front) (hlabel : ∀ l ∈ label, ∀ c ∈ l.2, isBlank c)
    (hbefore : Heading before) (hcolon : label.isSome → before.head? ≠ some ':')
    (has : ∀ a ∈ as, a.With Default.Written)
    (hlast : ∀ a ∈ as.getLast?, a.default.isBraced = false)
    (htail : stripBodies tail = suffix ++ ';' :: post) (hsuffix : Trailing suffix) :
    classModel head (front ++ (labelChars label ++ functionText before (listOf as) tail)) scope
        header =
      classModel head (front ++ (labelChars label ++
        functionText before (listOf (as.map Argument.zeroed)) tail)) scope header := by
  have hstrip : stripBodies (')' :: tail) = ')' :: (suffix ++ ';' :: post) := by
    have := stripBodies_append_of_not_mem (a := [')']) (by decide) tail
    rwa [htail] at this
  have htext : ∀ list, before ++ '(' :: (list ++ ')' :: (suffix ++ ';' :: post)) =
      functionText before list suffix ++ ';' :: post := fun list => by simp [functionText]
  have hstatement : ∀ {bs : List Argument}, (∀ b ∈ bs, b.With Default.Plain) →
      Statement label (functionText before (listOf bs) suffix) := fun hbs =>
    statement_functionText hbefore hcolon (stretch_listOf hbs) hsuffix
  rw [functionText, functionText, classModel_eq, classModel_eq,
    stripBodies_functionText hfront hlabel hbefore, stripBodies_functionText hfront hlabel hbefore,
    stripBodies_listOf has hlast, stripBodies_listOf_zeroed has, hstrip, htext, htext]
  exact congrArg _ (declared_congr hfront hlabel (hstatement (forall_emptied has))
    (hstatement (forall_zeroed has)) (fun access => parse_emptied hbefore.fronting
      hbefore.unassigned hbefore.unattributed has hsuffix.unattributed) post)

/-- A list that no parenthesis closes makes no function. -/
theorem parse_unclosed (hbefore : Heading before) {list : List Char} (hlist : Stretch list) :
    parse owner access (before ++ '(' :: list) = .skip := by
  have hgroup : splitGroup '(' ')' 0 (trimEnd (squeeze list)) = none := by
    have hclosed : Enclosed '(' ')' (squeeze list) :=
      enclosed_squeeze (by decide) (by decide) (by decide) hlist.enclosed
    have hnone : splitGroup '(' ')' 0 (squeeze list) = none := by
      rw [← List.append_nil (squeeze list), ← Nat.zero_add 0,
        splitGroup_enclosed (by decide) hclosed]
      rfl
    obtain ⟨blanks, hsplit⟩ := prefix_dropEndWhile isBlank (squeeze list)
    rw [splitGroup_eq_cutBy (by decide)] at hnone ⊢
    rw [Option.eq_none_iff_forall_ne_some]
    intro cut hcut
    have hlonger := @cutBy_append _ _ _ _ _ _ _ blanks hcut fun _ _ => rfl
    rw [← trimEnd] at hsplit
    rw [hsplit, hnone] at hlonger
    cases hlonger
  rw [parse_paren hbefore.fronting
    (hbefore.unattributed.append_cons (by decide) hlist.unattributed),
    hgroup]
  cases hskip : isSkipped before with
  | true => rfl
  | false =>
    rw [cutAtAssign_core (hbefore.unassigned hskip)]
    rfl

section Groups
variable {declared type gap : List Char} {pre : List Argument}

/-- What parameters before another leave in front of it. -/
def leadingChars (pre : List Argument) : List Char := pre.flatMap fun a => a.chars ++ [',']

/-- What parameters behind another leave behind it. -/
def followingChars : List Argument → List Char
  | [] => []
  | a :: as => ',' :: listOf (a :: as)

theorem listOf_append_cons (pre : List Argument) (a : Argument) (post : List Argument) :
    listOf (pre ++ a :: post) = leadingChars pre ++ (a.chars ++ followingChars post) := by
  induction pre with
  | nil =>
    cases post with
    | nil => simp [listOf, joinWith, leadingChars, followingChars]
    | cons b post => exact listOf_cons_cons a b post
  | cons b pre ih =>
    obtain ⟨c, cs, hcons⟩ : ∃ c cs, pre ++ a :: post = c :: cs := by
      cases pre <;> exact ⟨_, _, rfl⟩
    rw [List.cons_append, hcons, listOf_cons_cons, ← hcons, ih]
    simp [leadingChars]

/-- A braced default in a list stands behind what the list would be without the group. -/
theorem listOf_braced (pre : List Argument) (declared type inside gap : List Char)
    (post : List Argument) :
    listOf (pre ++ ⟨declared, .braced type inside gap⟩ :: post) =
      listOf (pre ++ [⟨declared, .value type⟩]) ++
        '{' :: (inside ++ '}' :: (gap ++ followingChars post)) := by
  rw [listOf_append_cons, listOf_append_cons]
  simp [Argument.chars, Default.chars, followingChars]

/-- What stands before a group has a value for its default. -/
theorem forall_value (h : ∀ a ∈ pre, a.With Default.Written)
    (ha : Argument.With Default.Written ⟨declared, .braced type inside gap⟩) :
    ∀ a ∈ pre ++ [⟨declared, .value type⟩], a.With Default.Written := by
  rw [List.forall_mem_append, List.forall_mem_singleton]
  obtain ⟨htype, -, -⟩ := ha.default.of_braced
  exact ⟨h, ha.stretch, ha.closed, ha.assignable,
    .plain (.value htype.toStretch htype.closed htype.assigned)⟩

/-- A group at the end of a parameter list leaves a semicolon. -/
theorem stripBodies_braced (hpre : ∀ a ∈ pre, a.With Default.Written)
    (ha : Argument.With Default.Written ⟨declared, .braced type inside gap⟩) (tail : List Char) :
    stripBodies (listOf (pre ++ [⟨declared, .braced type inside gap⟩]) ++ ')' :: tail) =
      listOf ((pre ++ [(⟨declared, .value type⟩ : Argument)]).map Argument.emptied) ++
        ';' :: stripBodies (gap ++ ')' :: tail) := by
  obtain ⟨-, hinside, hgap⟩ := ha.default.of_braced
  have hlist : listOf (pre ++ [⟨declared, .braced type inside gap⟩]) ++ ')' :: tail =
      listOf (pre ++ [⟨declared, .value type⟩]) ++
        '{' :: (inside ++ '}' :: (gap ++ ')' :: tail)) := by
    rw [listOf_braced]
    simp [followingChars]
  have hlast : ∀ a ∈ (pre ++ [(⟨declared, .value type⟩ : Argument)]).getLast?,
      a.default.isBraced = false := fun a ha => by
    simp at ha
    subst ha
    rfl
  rw [hlist, stripBodies_listOf (forall_value hpre ha) hlast,
    stripBodies_group (splitGroup_of_balanced hinside _), bodyMark_blanks_append hgap]
  rfl

theorem stripBodies_semicolon (hfront : Settled front)
    (hlabel : ∀ l ∈ label, ∀ c ∈ l.2, isBlank c) (rest : List Char) :
    stripBodies (front ++ (labelChars label ++ ';' :: rest)) =
      stripBodies front ++ (labelChars label ++ ';' :: stripBodies rest) := by
  have hmark : ∀ rest, bodyMark (labelChars label ++ ';' :: rest) = [';'] := fun rest => by
    cases label with
    | none => rfl
    | some label =>
      obtain ⟨access, gap⟩ := label
      cases access <;> rfl
  have hopen : '{' ∉ labelChars label ++ [';'] := by
    simp only [List.mem_append, not_or]
    exact ⟨(unmarked_labelChars hlabel).not_mem rfl, by decide⟩
  rw [stripBodies_append hfront.balanced (hmark _), List.append_cons,
    stripBodies_append_of_not_mem hopen, ← List.append_cons]

/-- A function whose last default is braced is read as if a semicolon stood in its place, up to the
group that ends the default. -/
theorem classModel_unread (hfront : Settled front) (hlabel : ∀ l ∈ label, ∀ c ∈ l.2, isBlank c)
    (hbefore : Heading before) (hcolon : label.isSome → before.head? ≠ some ':')
    (hpre : ∀ a ∈ pre, a.With Default.Written)
    (ha : Argument.With Default.Written ⟨declared, .braced type inside gap⟩) (tail : List Char) :
    classModel head (front ++ (labelChars label ++
        functionText before (listOf (pre ++ [⟨declared, .braced type inside gap⟩])) tail)) scope
        header =
      classModel head (front ++ (labelChars label ++ ';' :: (gap ++ ')' :: tail))) scope
        header := by
  have hvalue := forall_value hpre ha
  have hstretch := stretch_listOf (forall_emptied hvalue)
  have hstatement : ∀ list rest : List Char, before ++ '(' :: (list ++ ';' :: rest) =
      (before ++ '(' :: list) ++ ';' :: rest := fun list rest => by simp
  have hcut : Statement label (before ++ '(' :: listOf
      ((pre ++ [(⟨declared, .value type⟩ : Argument)]).map Argument.emptied)) :=
    { unlabelled := hbefore.unlabelled.append_cons (by decide) hstretch.unlabelled
      ended := by
        simp only [List.mem_append, List.mem_cons, not_or]
        exact ⟨hbefore.unmarked.not_mem rfl, by decide, hstretch.unmarked.not_mem rfl⟩
      apart := fun hsome heq => by
        cases before with
        | nil => cases heq
        | cons c before => exact hcolon hsome heq }
  have hempty : Statement label [] := ⟨unlabelled_nil, List.not_mem_nil, fun _ => by simp⟩
  rw [functionText, classModel_eq, classModel_eq, stripBodies_functionText hfront hlabel hbefore,
    stripBodies_braced hpre ha, stripBodies_semicolon hfront hlabel, hstatement]
  exact congrArg _ (declared_congr hfront hlabel hcut hempty
    (fun access => parse_unclosed hbefore hstretch) _)

end Groups

end ClassScope

section NamespaceScope
variable {before list : List Char}

/-- A text that starts with a word is looked at by that word. -/
theorem takeWhile_core {word more : List Char} {b : Char} (hword : ∀ c ∈ word, isWord c)
    (hne : word ≠ []) (hb : isBlank b) (h : trimStart before = word ++ b :: more) :
    (core before).takeWhile isWord = word := by
  have hfront : trimStart (squeeze before) = word ++ squeeze (b :: more) := by
    rw [trimStart_squeeze, h, squeeze_append_of_solid fun d hd => isBlank_of_isWord (hword d hd)]
  have hcore : core before = word ++ squeeze (b :: more) := by
    obtain ⟨c, cs, rfl⟩ := List.exists_cons_of_ne_nil hne
    have hc : isWord c := hword c List.mem_cons_self
    have hmarks : (c == ',' || c == ':') = false := by
      simp [ne_of_holds (d := ',') hc (by decide), ne_of_holds (d := ':') hc (by decide)]
    rw [core, hfront, List.cons_append, List.dropWhile_cons_of_neg (by simp [hmarks]),
      trimStart_eq_self (by simpa using isBlank_of_isWord hc)]
  rw [hcore, takeWhile_append_of_head (head?_squeeze_isWord fun d hd => ?_),
    List.takeWhile_eq_self_iff.2 hword]
  cases hd
  exact isWord_of_isBlank hb

/-- A function that is looked at starts with no keyword of a class. -/
theorem afterBlanks?_of_not_skipped (hskip : isSkipped before = false) (word : String)
    (hword : ∀ c ∈ word.toList, isWord c) (hne : word.toList ≠ [])
    (hskipped : skippedWords.contains word) (rest : List Char) :
    (after? word (trimStart before ++ '(' :: rest)).bind afterBlanks? = none := by
  rw [Option.bind_eq_none_iff]
  intro after hafter
  rw [after?_eq_some_iff] at hafter
  rw [afterBlanks?, if_neg]
  intro hblank
  obtain ⟨b, after, rfl⟩ : ∃ b more, after = b :: more := by
    cases after with
    | nil => cases hblank
    | cons b after => exact ⟨b, after, rfl⟩
  have hb : isBlank b := by simpa using hblank
  have hprefix : word.toList ++ [b] <+: trimStart before := by
    have hparen : '(' ∉ word.toList ++ [b] := by
      rw [List.mem_append, not_or]
      exact ⟨not_mem_of_holds hword (by decide), by simpa using (ne_of_holds hb (by decide)).symm⟩
    rw [← prefix_append_cons hparen, hafter]
    exact ⟨after, by simp⟩
  obtain ⟨more, hmore⟩ := hprefix
  rw [List.append_assoc, List.singleton_append] at hmore
  rw [isSkipped, takeWhile_core hword hne hb hmore.symm, String.ofList_toList, hskipped] at hskip
  cases hskip

theorem isLinkage_eq_false {cs : List Char} (h : cs.getLast? ≠ some '"') :
    isLinkage cs = false := by
  rw [isLinkage]
  split
  · rfl
  · next rest hrest =>
    split
    · next literal hliteral =>
      rw [Bool.and_eq_false_iff]
      refine .inl (beq_eq_false_iff_ne.2 fun hlast => h ?_)
      have hsuffix : '"' :: literal <:+ cs := by
        rw [after?_eq_some_iff.1 hrest, ← hliteral]
        exact (List.dropWhile_suffix _).trans (List.suffix_append _ _)
      obtain ⟨front, rfl⟩ := hsuffix
      rw [List.getLast?_append_of_ne_nil _ (List.cons_ne_nil _ _), List.getLast?_cons, hlast]
      rfl
    · rfl

theorem mem_after? {word : String} {cs rest : List Char} {c : Char}
    (h : after? word cs = some rest) (hc : c ∈ cs) (hword : c ∉ word.toList) : c ∈ rest := by
  rw [after?_eq_some_iff.1 h, List.mem_append] at hc
  exact hc.resolve_left hword

theorem namespaceName?_eq_none {cs : List Char} (h : '(' ∈ cs) : namespaceName? cs = none := by
  have hhead : '(' ∈ ((after? "inline" cs).bind afterBlanks?).getD cs := by
    cases hinline : (after? "inline" cs).bind afterBlanks? with
    | none => exact h
    | some head =>
      obtain ⟨rest, hrest, hblanks⟩ := Option.bind_eq_some_iff.1 hinline
      rw [afterBlanks?] at hblanks
      split at hblanks
      · cases hblanks
        have hmem := mem_after? hrest h (by decide)
        obtain ⟨a, b, rfl⟩ := List.append_of_mem hmem
        rw [Option.getD_some, trimStart_append_cons (by decide)]
        exact List.mem_append_right _ List.mem_cons_self
      · cases hblanks
  rw [namespaceName?, Option.bind_eq_none_iff]
  intro rest hrest
  have hmem := mem_trim_of_mem (by decide) (mem_after? hrest hhead (by decide))
  have hempty : (trim rest).isEmpty = false := by simpa using List.ne_nil_of_mem hmem
  have hall : (trim rest).all (fun c => isWordAnywhere c || c == ':') = false := by
    rw [List.all_eq_false]
    exact ⟨'(', hmem, by decide⟩
  simp [hempty, hall]

/-- The head of a block that a function with an open list leads up to. -/
theorem blockKind_unclosed (hskip : isSkipped before = false)
    (hquote : (trimEnd ('(' :: list)).getLast? ≠ some '"') :
    blockKind (trim (before ++ '(' :: list)) = .function ∨
      blockKind (trim (before ++ '(' :: list)) = .other := by
  have htrim : trim (before ++ '(' :: list) = trimStart before ++ '(' :: trimEnd list :=
    trim_append_cons (by decide) before list
  have hlast : (trimStart before ++ '(' :: trimEnd list).getLast? ≠ some '"' := by
    rw [List.getLast?_append_of_ne_nil _ (List.cons_ne_nil _ _), ← trimEnd_cons (by decide)]
    exact hquote
  have hclass := afterBlanks?_of_not_skipped hskip "class" (by simp [isWord]) (by simp)
    (by decide) (trimEnd list)
  have hstruct := afterBlanks?_of_not_skipped hskip "struct" (by simp [isWord]) (by simp)
    (by decide) (trimEnd list)
  have hhead : classHead? (trimStart before ++ '(' :: trimEnd list) = none := by
    simp [classHead?, hclass, hstruct]
  rw [htrim, blockKind, namespaceName?_eq_none (List.mem_append_right _ List.mem_cons_self),
    isLinkage_eq_false hlast, hhead]
  simp only [Bool.false_eq_true, if_false]
  split
  · exact .inl rfl
  · exact .inr rfl

/-- A function with an open list counts for nothing outside classes. -/
theorem sameItems_unclosed (h : Heading before) (hskip : isSkipped before = false)
    (hlist : Stretch list) (hquote : (trimEnd ('(' :: list)).getLast? ≠ some '"')
    {inside : List Char} (hinside : bracesBalanced inside) (header : SourceUnit)
    (rest : List Char) :
    SameItems header (before ++ '(' :: (list ++ '{' :: (inside ++ '}' :: rest))) rest := by
  have hunmarked : Unmarked (before ++ '(' :: list) :=
    List.forall_mem_append.2 ⟨h.unmarked, List.forall_mem_cons.2 ⟨rfl, hlist.unmarked⟩⟩
  have htext : before ++ '(' :: (list ++ '{' :: (inside ++ '}' :: rest)) =
      (before ++ '(' :: list) ++ '{' :: (inside ++ '}' :: rest) := by simp
  intro scope
  have hfunction : function? header scope (trim (before ++ '(' :: list)) = none := by
    have hparse : parse none .everyone (trim (trim (before ++ '(' :: list))) = .skip := by
      rw [trim_trim, parse, normalizeSpaces_trim]
      exact parse_unclosed h hlist
    simp [function?, hparse]
  rw [htext, items_block hunmarked (splitGroup_of_balanced hinside rest)]
  rcases blockKind_unclosed hskip hquote with hkind | hkind
  · simp only [hkind]
    exact ⟨rfl, by rw [List.singleton_append, List.filterMap_cons, itemFunction?, hfunction]⟩
  · simp only [hkind]
    exact ⟨rfl, rfl⟩

end NamespaceScope

section Functions
variable {header : SourceUnit}

/-- A function as it is declared: what stands before its parameters, these, and the text behind
them. -/
structure Callable where
  before : List Char
  arguments : List Argument
  tail : List Char

namespace Callable

def chars (f : Callable) : List Char := functionText f.before (listOf f.arguments) f.tail

/-- The function with zeros in the place of braced defaults. -/
def zeroed (f : Callable) : Callable := { f with arguments := f.arguments.map Argument.zeroed }

structure Written (f : Callable) : Prop where
  heading : Heading f.before
  arguments : ∀ a ∈ f.arguments, a.With Default.Written
  balanced : bracesBalanced f.tail

instance (f : Callable) : Decidable f.Written :=
  decidable_of_iff (Heading f.before ∧ (∀ a ∈ f.arguments, a.With Default.Written) ∧
      bracesBalanced f.tail)
    ⟨fun ⟨h, i, j⟩ => ⟨h, i, j⟩, fun ⟨h, i, j⟩ => ⟨h, i, j⟩⟩

variable {f : Callable}

theorem Written.zeroed (h : f.Written) : f.zeroed.Written :=
  ⟨h.heading, List.forall_mem_map.2 fun a ha =>
    have hzeroed := (h.arguments a ha).zeroed
    hzeroed.of_default (.plain hzeroed.default), h.balanced⟩

theorem balanced_argument {a : Argument} (h : a.With Default.Written) : bracesBalanced a.chars := by
  obtain ⟨declared, default⟩ := a
  cases h.default with
  | plain hplain =>
    exact bracesBalanced_of_unmarked (h.of_default hplain).stretch_chars.unmarked
  | @braced type inside gap htype hinside hgap =>
    have hchars : (⟨declared, .braced type inside gap⟩ : Argument).chars =
        (declared ++ '=' :: type) ++ '{' :: (inside ++ '}' :: gap) := by
      simp [Argument.chars, Default.chars]
    have hfront := (h.stretch.append_cons htype.toStretch (.inl rfl)).unmarked
    rw [hchars, bracesBalanced_append (bracesBalanced_of_unmarked hfront),
      bracesBalanced_block hinside]
    exact bracesBalanced_of_unmarked (unmarked_of_blanks hgap)

theorem balanced_listOf {as : List Argument} (h : ∀ a ∈ as, a.With Default.Written) :
    bracesBalanced (listOf as) := by
  induction as with
  | nil => rfl
  | cons a as ih =>
    rw [List.forall_mem_cons] at h
    cases as with
    | nil => exact balanced_argument h.1
    | cons b as =>
      rw [listOf_cons_cons, bracesBalanced_append (balanced_argument h.1),
        bracesBalanced_cons (by decide) (by decide)]
      exact ih h.2

theorem Written.balanced_chars (h : f.Written) : bracesBalanced f.chars := by
  rw [chars, functionText, bracesBalanced_append (bracesBalanced_of_unmarked h.heading.unmarked),
    bracesBalanced_cons (by decide) (by decide),
    bracesBalanced_append (balanced_listOf h.arguments),
    bracesBalanced_cons (by decide) (by decide)]
  exact h.balanced

theorem paren_mem (f : Callable) : ∃ c ∈ f.chars, isBlank c = false :=
  ⟨'(', List.mem_append_right _ List.mem_cons_self, by decide⟩

/-- The declaration ends in the text behind the parameters. -/
def Ends (f : Callable) : Prop :=
  ∃ suffix post, stripBodies f.tail = suffix ++ ';' :: post ∧ Trailing suffix

end Callable

/-- Where a member of a class stands: in a class behind some text and a label. -/
structure ClassPlace where
  layers : List Layer
  outer : List Char
  head : List Char
  front : List Char
  label : Option (Access × List Char)
  after : List Char

namespace ClassPlace

def chars (p : ClassPlace) (d : List Char) : List Char :=
  surround p.layers
    (p.outer ++ (p.head ++ '{' :: ((p.front ++ (labelChars p.label ++ d)) ++ '}' :: p.after)))

structure Sound (p : ClassPlace) : Prop where
  layers : ∀ l ∈ p.layers, l.Sound
  outer : Settled p.outer
  unmarked : Unmarked p.head
  opens : ∃ head, blockKind (trim p.head) = .definition head
  front : Settled p.front
  label : ∀ l ∈ p.label, ∀ c ∈ l.2, isBlank c
  after : bracesBalanced p.after

theorem Sound.sameTable {p : ClassPlace} (hp : p.Sound) {d e : List Char}
    (hd : bracesBalanced d) (he : bracesBalanced e) (hsolid : ∃ c ∈ d, isBlank c = false)
    (hsolid' : ∃ c ∈ e, isBlank c = false)
    (hmodel : ∀ head scope, classModel head (p.front ++ (labelChars p.label ++ d)) scope header =
      classModel head (p.front ++ (labelChars p.label ++ e)) scope header) :
    SameTable header (p.chars d) (p.chars e) := by
  obtain ⟨found, hkind⟩ := hp.opens
  have hlabel := unmarked_labelChars hp.label
  have hbody : ∀ {d}, bracesBalanced d → bracesBalanced (p.front ++ (labelChars p.label ++ d)) :=
    fun hd => by
      rwa [bracesBalanced_append hp.front.balanced,
        bracesBalanced_append (bracesBalanced_of_unmarked hlabel)]
  have hpiece : ∀ {d}, bracesBalanced d → bracesBalanced
      (p.outer ++ (p.head ++ '{' :: ((p.front ++ (labelChars p.label ++ d)) ++ '}' :: p.after))) :=
    fun hd => by
      rw [bracesBalanced_append hp.outer.balanced,
        bracesBalanced_append (bracesBalanced_of_unmarked hp.unmarked),
        bracesBalanced_block (hbody hd)]
      exact hp.after
  have hfull : ∀ {d}, (∃ c ∈ d, isBlank c = false) →
      (trim (p.front ++ (labelChars p.label ++ d))).isEmpty = false := fun ⟨c, hc, hblank⟩ => by
    have hmem := mem_trim_of_mem hblank (List.mem_append_right p.front
      (List.mem_append_right (labelChars p.label) hc))
    simpa using List.ne_nil_of_mem hmem
  refine SameItems.sameTable (SameItems.surround hp.layers (hpiece hd) (hpiece he)
    (SameItems.settled_append hp.outer fun scope => ?_))
  rw [items_block hp.unmarked (splitGroup_of_balanced (hbody hd) _),
    items_block hp.unmarked (splitGroup_of_balanced (hbody he) _)]
  simp only [hkind, hfull hsolid, hfull hsolid', Bool.false_eq_true, if_false,
    List.singleton_append, List.filterMap_cons, itemClass?, itemFunction?, hmodel]
  exact ⟨trivial, trivial⟩

variable {p : ClassPlace} {f : Callable}

/-- A member function may stand behind the label before it. -/
def Fits (p : ClassPlace) (f : Callable) : Prop := p.label.isSome → f.before.head? ≠ some ':'

/-- In a class, braced defaults are read as zeros if the last parameter has none. -/
theorem Sound.sameTable_zeroed (hp : p.Sound) (hf : f.Written) (hfits : p.Fits f) (hends : f.Ends)
    (hlast : ∀ a ∈ f.arguments.getLast?, a.default.isBraced = false) :
    SameTable header (p.chars f.chars) (p.chars f.zeroed.chars) := by
  obtain ⟨suffix, post, htail, hsuffix⟩ := hends
  exact hp.sameTable hf.balanced_chars hf.zeroed.balanced_chars f.paren_mem f.zeroed.paren_mem
    (fun head scope => classModel_zeroed hp.front hp.label hf.heading hfits hf.arguments hlast htail
      hsuffix)

/-- In a class, a function whose last default is braced is lost. -/
theorem Sound.sameTable_unread (hp : p.Sound) (hf : f.Written) (hfits : p.Fits f)
    {pre : List Argument} {declared type inside gap : List Char}
    (hlast : f.arguments = pre ++ [⟨declared, .braced type inside gap⟩]) :
    SameTable header (p.chars f.chars) (p.chars (';' :: (gap ++ ')' :: f.tail))) := by
  have hpre : ∀ a ∈ pre, a.With Default.Written := fun a ha =>
    hf.arguments a (hlast ▸ List.mem_append_left _ ha)
  have hbraced : Argument.With Default.Written ⟨declared, .braced type inside gap⟩ :=
    hf.arguments _ (hlast ▸ List.mem_append_right _ List.mem_cons_self)
  obtain ⟨-, -, hgap⟩ := hbraced.default.of_braced
  have hrest : bracesBalanced (';' :: (gap ++ ')' :: f.tail)) := by
    rw [bracesBalanced_cons (by decide) (by decide),
      bracesBalanced_append (bracesBalanced_of_unmarked (unmarked_of_blanks hgap)),
      bracesBalanced_cons (by decide) (by decide)]
    exact hf.balanced
  refine hp.sameTable hf.balanced_chars hrest f.paren_mem ⟨';', List.mem_cons_self, by decide⟩
    (fun head scope => ?_)
  rw [Callable.chars, hlast]
  exact classModel_unread hp.front hp.label hf.heading hfits hpre hbraced f.tail

end ClassPlace

/-- Where a function outside classes stands: in blocks, behind some text. -/
structure ScopePlace where
  layers : List Layer
  front : List Char

namespace ScopePlace

def chars (p : ScopePlace) (d : List Char) : List Char := surround p.layers (p.front ++ d)

structure Sound (p : ScopePlace) : Prop where
  layers : ∀ l ∈ p.layers, l.Sound
  front : Settled p.front

variable {p : ScopePlace} {f : Callable}

/-- A list that stops at an equals sign and a type does not end in a quote. -/
theorem getLast?_listOf_value (pre : List Argument) {declared type : List Char}
    (htype : '"' ∉ type) :
    (trimEnd ('(' :: listOf (pre ++ [⟨declared, .value type⟩]))).getLast? ≠ some '"' := by
  have hlist : '(' :: listOf (pre ++ [⟨declared, .value type⟩]) =
      ('(' :: (leadingChars pre ++ declared)) ++ '=' :: type := by
    rw [listOf_append_cons]
    simp [Argument.chars, Default.chars, followingChars]
  rw [hlist, trimEnd_append_cons (by decide),
    List.getLast?_append_of_ne_nil _ (List.cons_ne_nil _ _)]
  intro hlast
  rcases List.mem_cons.1 (List.mem_of_getLast? hlast) with heq | hmem
  · cases heq
  · exact htype ((prefix_dropEndWhile isBlank type).subset hmem)

/-- Outside classes, a function with a braced default is lost. -/
theorem Sound.sameTable_unread (hp : p.Sound) (hf : f.Written) (hskip : isSkipped f.before = false)
    {pre post : List Argument} {declared type inside gap : List Char}
    (hfirst : f.arguments = pre ++ ⟨declared, .braced type inside gap⟩ :: post)
    (hpre : ∀ a ∈ pre, a.default.isBraced = false) :
    SameTable header (p.chars f.chars)
      (p.chars (gap ++ (followingChars post ++ ')' :: f.tail))) := by
  have hbraced : Argument.With Default.Written ⟨declared, .braced type inside gap⟩ :=
    hf.arguments _ (hfirst ▸ List.mem_append_right _ List.mem_cons_self)
  have hpost : ∀ a ∈ post, a.With Default.Written := fun a ha =>
    hf.arguments a (hfirst ▸ List.mem_append_right _ (List.mem_cons_of_mem _ ha))
  obtain ⟨htype, hinside, hgap⟩ := hbraced.default.of_braced
  have hplain : ∀ a ∈ pre ++ [⟨declared, .value type⟩], a.With Default.Plain := by
    rw [List.forall_mem_append, List.forall_mem_singleton]
    refine ⟨fun a ha => ?_, hbraced.stretch, hbraced.closed, hbraced.assignable,
      .value htype.toStretch htype.closed htype.assigned⟩
    have hwritten := hf.arguments a (hfirst ▸ List.mem_append_left _ ha)
    exact hwritten.of_default (hwritten.default.plain_of_not_braced (hpre a ha))
  have hchars : f.chars = f.before ++ '(' :: (listOf (pre ++ [⟨declared, .value type⟩]) ++
      '{' :: (inside ++ '}' :: (gap ++ (followingChars post ++ ')' :: f.tail)))) := by
    rw [Callable.chars, functionText, hfirst, listOf_braced]
    simp
  have hrest : bracesBalanced (gap ++ (followingChars post ++ ')' :: f.tail)) := by
    have hfollowing : bracesBalanced (followingChars post) := by
      cases post with
      | nil => rfl
      | cons a post =>
        rw [followingChars, bracesBalanced_cons (by decide) (by decide)]
        exact Callable.balanced_listOf hpost
    rw [bracesBalanced_append (bracesBalanced_of_unmarked (unmarked_of_blanks hgap)),
      bracesBalanced_append hfollowing, bracesBalanced_cons (by decide) (by decide)]
    exact hf.balanced
  have hsame : SameItems header f.chars (gap ++ (followingChars post ++ ')' :: f.tail)) := by
    rw [hchars]
    exact sameItems_unclosed hf.heading hskip (stretch_listOf hplain)
      (getLast?_listOf_value pre htype.quoteless) hinside header _
  refine SameItems.sameTable (SameItems.surround hp.layers ?_ ?_ (hsame.settled_append hp.front))
  · rw [bracesBalanced_append hp.front.balanced]
    exact hf.balanced_chars
  · rw [bracesBalanced_append hp.front.balanced]
    exact hrest

end ScopePlace

/-- A default that is a group in braces counts as a zero in a class if another parameter, or none
with a group, ends the list. A function of a class whose last default is a group is lost, and so is
every function outside classes with such a default. -/
theorem extract_braced_defaults {f : Callable} (hf : f.Written) (header : SourceUnit) :
    (∀ p : ClassPlace, p.Sound → p.Fits f → f.Ends →
      (∀ a ∈ f.arguments.getLast?, a.default.isBraced = false) →
        SameTable header (p.chars f.chars) (p.chars f.zeroed.chars)) ∧
    (∀ p : ClassPlace, p.Sound → p.Fits f → ∀ pre declared type inside gap,
      f.arguments = pre ++ [⟨declared, .braced type inside gap⟩] →
        SameTable header (p.chars f.chars) (p.chars (';' :: (gap ++ ')' :: f.tail)))) ∧
    ∀ p : ScopePlace, p.Sound → isSkipped f.before = false → ∀ pre declared type inside gap post,
      f.arguments = pre ++ ⟨declared, .braced type inside gap⟩ :: post →
      (∀ a ∈ pre, a.default.isBraced = false) →
        SameTable header (p.chars f.chars)
          (p.chars (gap ++ (followingChars post ++ ')' :: f.tail))) :=
  ⟨fun _ hp hfits hends hlast => hp.sameTable_zeroed hf hfits hends hlast,
    fun _ hp hfits _ _ _ _ _ hlast => hp.sameTable_unread hf hfits hlast,
    fun _ hp hskip _ _ _ _ _ _ hfirst hpre => hp.sameTable_unread hf hskip hfirst hpre⟩

/-- A function with two braced defaults in front of its last parameter. -/
def boxFit : Callable :=
  ⟨" bool fit".toList, [⟨"int x ".toList, .braced [' '] [] []⟩,
    ⟨" Size s ".toList, .braced " Size".toList "1, 2".toList [' ']⟩,
    ⟨" int z ".toList, .value " 3".toList⟩], " const; ".toList⟩

/-- A function with a braced default at the end. -/
def boxGrow : Callable :=
  ⟨" void grow".toList, [⟨"int by ".toList, .braced [' '] [] []⟩], "; ".toList⟩

def namespaceLayer : Layer := ⟨[], "namespace n ".toList, []⟩

def boxPlace : ClassPlace :=
  ⟨[namespaceLayer], [' '], "class Box ".toList, " int w; ".toList, some (.everyone, []),
    "; ".toList⟩

/-- Text that leaves nothing open in the same namespace. -/
def freePlace : ScopePlace := ⟨[namespaceLayer], " int area(int w);".toList⟩

theorem sound_namespaceLayer : namespaceLayer.Sound where
  settled := by decide
  unmarked := by decide +kernel
  opens := .inl ⟨"n", by decide +kernel⟩
  balanced := by decide

theorem sound_boxPlace : boxPlace.Sound where
  layers := List.forall_mem_singleton.2 sound_namespaceLayer
  outer := by decide
  unmarked := by decide +kernel
  opens := ⟨⟨false, "Box", .empty⟩, by decide +kernel⟩
  front := by decide +kernel
  label := fun l hl => by cases hl; exact List.forall_mem_nil _
  after := by decide +kernel

theorem sound_freePlace : freePlace.Sound where
  layers := List.forall_mem_singleton.2 sound_namespaceLayer
  front := by decide +kernel

theorem extract_braced_defaults_box :
    boxFit.Written ∧ boxGrow.Written ∧ boxPlace.Sound ∧ freePlace.Sound ∧
      extract {} ⟨⟨"a.h"⟩, .header⟩ (String.ofList (boxPlace.chars boxFit.chars)) =
        extract {} ⟨⟨"a.h"⟩, .header⟩ (String.ofList (boxPlace.chars boxFit.zeroed.chars)) ∧
      extract {} ⟨⟨"a.h"⟩, .header⟩ (String.ofList (boxPlace.chars boxGrow.chars)) =
        extract {} ⟨⟨"a.h"⟩, .header⟩ (String.ofList (boxPlace.chars ";); ".toList)) ∧
      extract {} ⟨⟨"a.h"⟩, .header⟩ (String.ofList (freePlace.chars boxFit.chars)) =
        extract {} ⟨⟨"a.h"⟩, .header⟩ (String.ofList
          (freePlace.chars ", Size s = Size\x7b1, 2\x7d , int z = 3) const; ".toList)) := by
  have hfit : boxFit.Written := by decide +kernel
  have hgrow : boxGrow.Written := by decide +kernel
  have hends : boxFit.Ends := ⟨" const".toList, [' '], by decide +kernel, by decide +kernel⟩
  obtain ⟨hzeroed, -, hfree⟩ := extract_braced_defaults hfit ⟨⟨"a.h"⟩, .header⟩
  obtain ⟨-, hunread, -⟩ := extract_braced_defaults hgrow ⟨⟨"a.h"⟩, .header⟩
  refine ⟨hfit, hgrow, sound_boxPlace, sound_freePlace, ?_, ?_, ?_⟩
  · refine hzeroed boxPlace sound_boxPlace ?_ hends ?_ {} _ _ ?_ ?_
    · exact fun _ => by decide +kernel
    · intro a ha
      cases ha
      rfl
    · decide +kernel
    · decide +kernel
  · refine hunread boxPlace sound_boxPlace ?_ [] _ _ _ _ rfl {} _ _ ?_ ?_
    · exact fun _ => by decide +kernel
    · decide +kernel
    · decide +kernel
  · refine hfree freePlace sound_freePlace ?_ [] _ _ _ _ _ rfl ?_ {} _ _ ?_ ?_
    · decide +kernel
    · simp
    · decide +kernel
    · decide +kernel

/-- A function whose only default is braced is lost in a class and outside classes. With a zero in
the place of the default it is found. -/
theorem extract_loses_braced_default :
    boxGrow.Written ∧ boxPlace.Sound ∧ freePlace.Sound ∧
      ((extract {} ⟨⟨"/p/a.h"⟩, .header⟩ (String.ofList (boxPlace.chars boxGrow.chars))).lookup?
        "n::Box").map (·.2.methods.map (·.name)) = some [] ∧
      ((extract {} ⟨⟨"/p/a.h"⟩, .header⟩
        (String.ofList (boxPlace.chars boxGrow.zeroed.chars))).lookup? "n::Box").map
          (·.2.methods.map (·.name)) = some ["grow"] ∧
      (extract {} ⟨⟨"/p/a.h"⟩, .header⟩
        (String.ofList (freePlace.chars boxGrow.chars))).functions.map (·.signature.name) =
          ["area"] ∧
      (extract {} ⟨⟨"/p/a.h"⟩, .header⟩
        (String.ofList (freePlace.chars boxGrow.zeroed.chars))).functions.map (·.signature.name) =
          ["area", "grow"] :=
  ⟨by decide +kernel, sound_boxPlace, sound_freePlace, by decide +kernel, by decide +kernel,
    by decide +kernel, by decide +kernel⟩

end Functions

end TestSynth.Header
