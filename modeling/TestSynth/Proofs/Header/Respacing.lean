import Mathlib
import TestSynth.Proofs.Header.Body
import TestSynth.Proofs.Text.Squeezing
/-!
Heads, bodies and statements are read the same however their blanks are laid out.
-/
namespace TestSynth.Header

open Text

section Fronts
variable {cs rest : List Char} {word : String}

theorem after?_squeeze (h : ∀ c ∈ word.toList, isBlank c = false) (cs : List Char) :
    after? word (squeeze cs) = (after? word cs).map squeeze := by
  ext rest
  rw [after?_eq_some_iff, Option.map_eq_some_iff]
  constructor
  · intro hs
    obtain ⟨rest, rfl, hrest⟩ := squeeze_eq_append h hs
    exact ⟨rest, after?_eq_some_iff.2 rfl, hrest⟩
  · rintro ⟨rest, hrest, rfl⟩
    rw [after?_eq_some_iff.1 hrest, squeeze_append_of_solid h]

theorem afterBlanks?_squeeze (cs : List Char) :
    afterBlanks? (squeeze cs) = (afterBlanks? cs).map squeeze := by
  rw [afterBlanks?, afterBlanks?, head?_any_squeeze, trimStart_squeeze]
  split <;> rfl

end Fronts

section Namespaces

theorem namespaceName?_squeeze (head : List Char) :
    namespaceName? (squeeze head) = namespaceName? head := by
  have hinline : ((after? "inline" (squeeze head)).bind afterBlanks?).getD (squeeze head) =
      squeeze (((after? "inline" head).bind afterBlanks?).getD head) := by
    rw [after?_squeeze (by simp [isBlank])]
    cases after? "inline" head with
    | none => rfl
    | some rest =>
      simp only [Option.map_some, Option.bind_some, afterBlanks?_squeeze]
      cases afterBlanks? rest <;> rfl
  have hname : ∀ c, isBlank c → (isWordAnywhere c || c == ':') = false := fun c hc => by
    rw [isWordAnywhere_of_isBlank hc, Bool.false_or, beq_eq_false_iff_ne]
    exact ne_of_holds hc (by decide)
  rw [namespaceName?, namespaceName?, hinline, after?_squeeze (by simp [isBlank]),
    Option.bind_map]
  congr 1
  funext rest
  simp only [Function.comp_apply, trim_squeeze, List.isEmpty_iff, squeeze_eq_nil_iff,
    head?_any_squeeze, head?_any_squeeze_of_solid fun _ => isWordStart_of_isBlank,
    all_squeeze hname]
  split
  · rfl
  · split
    · next hall =>
      simp only [Bool.and_eq_true, List.all_eq_true] at hall
      rw [squeeze_eq_self fun c hc => ?_]
      rw [Bool.eq_false_iff]
      intro hblank
      cases (hname c hblank).symm.trans (hall.2 c hc)
    · rfl

/-- A literal is closed by the one quote at its end. -/
def isClosedLiteral (literal : List Char) : Bool :=
  literal.getLast? == some '"' && !literal.dropLast.contains '"'

theorem isClosedLiteral_squeeze (literal : List Char) :
    isClosedLiteral (squeeze literal) = isClosedLiteral literal := by
  rw [isClosedLiteral, isClosedLiteral]
  rcases List.eq_nil_or_concat' literal with rfl | ⟨inside, c, rfl⟩
  · rfl
  · cases hc : isBlank c with
    | false =>
      have hmem : (squeeze inside).contains '"' = inside.contains '"' := by
        rw [Bool.eq_iff_iff, List.contains_iff_mem, List.contains_iff_mem]
        exact mem_squeeze (by decide)
      rw [squeeze_append inside [] hc, squeeze_nil]
      simp only [List.dropLast_concat, List.getLast?_concat, hmem]
    | true =>
      have hquote := ne_of_holds (d := '"') hc (by decide)
      rw [getLast?_squeeze, List.getLast?_concat, Option.map_some, if_pos hc]
      simp [hquote]

theorem isLinkage_squeeze (head : List Char) : isLinkage (squeeze head) = isLinkage head := by
  rw [isLinkage, isLinkage, after?_squeeze (by simp [isBlank])]
  cases after? "extern" head with
  | none => rfl
  | some rest =>
    simp only [Option.map_some, trimStart_squeeze]
    rcases squeeze_mark_cases '"' (by decide) (trimStart rest) with
      ⟨literal, hrest, hsqueezed⟩ | ⟨hrest, hsqueezed⟩
    · rw [hsqueezed, hrest]
      exact isClosedLiteral_squeeze literal
    · simp

end Namespaces

section ClassHeads
variable {cs rest : List Char} {isStruct : Bool} {m n : Nat}

/-- What stands behind the parentheses in front and at least one blank. -/
def afterParens? : List Char → Option (List Char)
  | '(' :: inside => match inside.dropWhile (· != ')') with
    | _ :: after => afterBlanks? after
    | [] => none
  | _ => none

theorem afterParens?_squeeze (cs : List Char) :
    afterParens? (squeeze cs) = (afterParens? cs).map squeeze := by
  have hother : ∀ {cs}, (∀ rest, cs ≠ '(' :: rest) → afterParens? cs = none := fun h => by
    rw [afterParens?]
    exact h
  rcases squeeze_mark_cases '(' (by decide) cs with
    ⟨inside, rfl, hsqueezed⟩ | ⟨hcs, hsqueezed⟩
  · have hblank : ∀ c, isBlank c → (c != ')') = true := fun c hc => by
      simpa using ne_of_holds (d := ')') hc (by decide)
    rw [hsqueezed, afterParens?, afterParens?, dropWhile_squeeze hblank]
    cases hclose : inside.dropWhile (· != ')') with
    | nil => rfl
    | cons d after =>
      have hd := List.head?_dropWhile_not (· != ')') inside
      rw [hclose] at hd
      obtain rfl : d = ')' := by simpa using hd
      rw [squeeze_solid (by decide)]
      exact afterBlanks?_squeeze after
  · rw [hother hcs, hother hsqueezed]
    rfl

theorem afterMarker?_eq (cs : List Char) : afterMarker? cs =
    if isExportWord (cs.takeWhile (!isBlank ·)) then
      afterBlanks? (cs.drop (cs.takeWhile (!isBlank ·)).length)
    else (after? "alignas" cs).bind fun rest => afterParens? (trimStart rest) := rfl

theorem afterMarker?_squeeze (cs : List Char) :
    afterMarker? (squeeze cs) = (afterMarker? cs).map squeeze := by
  have hword : ∀ c, isBlank c → (!isBlank c) = false := fun c hc => by rw [hc]; rfl
  rw [afterMarker?_eq, afterMarker?_eq, takeWhile_squeeze_of_solid hword]
  split
  · rw [drop_squeeze_of_solid hword, afterBlanks?_squeeze]
  · rw [after?_squeeze (by simp [isBlank]), Option.bind_map, Option.map_bind]
    congr 1
    funext rest
    rw [Function.comp_apply, Function.comp_apply, trimStart_squeeze, afterParens?_squeeze]

theorem baseNames_squeeze (cs : List Char) : baseNames (squeeze cs) = baseNames cs := by
  unfold baseNames splitTopLevel
  simp only [splitTopLevelFrom_squeeze, List.map_map, Function.comp_def, words_squeeze]

/-- The text without the word `final` in front and the blanks behind it. -/
def afterFinal (cs : List Char) : List Char :=
  match after? "final" cs with
  | some rest => if rest.head?.any isWordAnywhere then cs else trimStart rest
  | none => cs

theorem afterFinal_squeeze (cs : List Char) :
    afterFinal (squeeze cs) = squeeze (afterFinal cs) := by
  rw [afterFinal, afterFinal, after?_squeeze (by simp [isBlank])]
  cases after? "final" cs with
  | none => rfl
  | some rest =>
    simp only [Option.map_some, trimStart_squeeze,
      head?_any_squeeze_of_solid fun _ => isWordAnywhere_of_isBlank]
    split <;> rfl

/-- The bases in a text that starts with their colon, or is empty. -/
def bases? : List Char → Option NameSet
  | [] => some .empty
  | ':' :: list => some (baseNames (trimStart list))
  | _ => none

theorem bases?_squeeze (cs : List Char) : bases? (squeeze cs) = bases? cs := by
  have hother : ∀ {cs}, cs ≠ [] → (∀ list, cs ≠ ':' :: list) → bases? cs = none :=
    fun hne h => by
      rw [bases?]
      · exact hne
      · exact h
  rcases squeeze_mark_cases ':' (by decide) cs with
    ⟨list, rfl, hsqueezed⟩ | ⟨hcs, hsqueezed⟩
  · rw [hsqueezed, bases?, bases?, trimStart_squeeze, baseNames_squeeze]
  · cases cs with
    | nil => rfl
    | cons c cs =>
      have hne : squeeze (c :: cs) ≠ [] := squeeze_eq_nil_iff.not.2 (List.cons_ne_nil _ _)
      rw [hother hne hsqueezed, hother (List.cons_ne_nil _ _) hcs]

theorem afterName?_eq (cs : List Char) :
    afterName? cs = bases? (afterFinal (trimStart cs)) := rfl

theorem afterName?_squeeze (cs : List Char) : afterName? (squeeze cs) = afterName? cs := by
  rw [afterName?_eq, afterName?_eq, trimStart_squeeze, afterFinal_squeeze, bases?_squeeze]

theorem named?_squeeze (isStruct : Bool) (cs : List Char) :
    named? isStruct (squeeze cs) = named? isStruct cs := by
  unfold named?
  simp only [head?_any_squeeze_of_solid fun _ => isWordStart_of_isBlank,
    takeWhile_squeeze_of_solid fun _ => isWordAnywhere_of_isBlank,
    drop_squeeze_of_solid fun _ => isWordAnywhere_of_isBlank, afterName?_squeeze]

theorem afterMarkers?_squeeze (isStruct : Bool) (n : Nat) (cs : List Char) :
    afterMarkers? isStruct n (squeeze cs) = afterMarkers? isStruct n cs := by
  induction n generalizing cs with
  | zero => exact named?_squeeze isStruct cs
  | succ n ih =>
    have hmarker : ((afterMarker? cs).map squeeze).bind (afterMarkers? isStruct n) =
        (afterMarker? cs).bind (afterMarkers? isStruct n) := by
      rw [Option.bind_map]
      congr 1
      funext rest
      exact ih rest
    rw [afterMarkers?, afterMarkers?, afterMarker?_squeeze, named?_squeeze, hmarker]

theorem afterBlanks?_length (h : afterBlanks? cs = some rest) : rest.length ≤ cs.length := by
  rw [afterBlanks?] at h
  split at h
  · cases h
    exact (List.dropWhile_suffix _).length_le
  · cases h

theorem afterParens?_length (h : afterParens? cs = some rest) : rest.length ≤ cs.length := by
  unfold afterParens? at h
  split at h
  · next inside =>
    have hsuffix := (List.dropWhile_suffix (· != ')') (l := inside)).length_le
    split at h
    · next hclose =>
      rw [hclose] at hsuffix
      have hrest := afterBlanks?_length h
      simp only [List.length_cons] at hsuffix ⊢
      omega
    · cases h
  · cases h

theorem afterMarker?_length (h : afterMarker? cs = some rest) : rest.length < cs.length := by
  rw [afterMarker?_eq] at h
  split at h
  · next hword =>
    have hrest := afterBlanks?_length h
    have hpos : 0 < (cs.takeWhile (!isBlank ·)).length := by
      rw [List.length_pos_iff]
      rintro hnil
      rw [hnil] at hword
      cases hword
    have hle := (List.takeWhile_prefix (!isBlank ·) (l := cs)).length_le
    rw [List.length_drop] at hrest
    omega
  · obtain ⟨behind, hbehind, hparens⟩ := Option.bind_eq_some_iff.1 h
    have hcs := congrArg List.length (after?_eq_some_iff.1 hbehind)
    have hblanks := (List.dropWhile_suffix isBlank (l := behind)).length_le
    have hrest := afterParens?_length hparens
    rw [List.length_append] at hcs
    have hword : "alignas".toList.length = 7 := rfl
    rw [trimStart] at hrest
    omega

/-- More markers than the text has characters are not looked for. -/
theorem afterMarkers?_eq (hm : cs.length ≤ m) (hn : cs.length ≤ n) :
    afterMarkers? isStruct m cs = afterMarkers? isStruct n cs := by
  have hnil : ∀ n {cs}, cs.length = 0 → afterMarkers? isStruct n cs = named? isStruct cs := by
    intro n cs hlength
    obtain rfl := List.length_eq_zero_iff.1 hlength
    cases n <;> rfl
  induction m generalizing n cs with
  | zero => rw [hnil 0 (Nat.le_zero.1 hm), hnil n (Nat.le_zero.1 hm)]
  | succ m ih =>
    cases n with
    | zero => rw [hnil _ (Nat.le_zero.1 hn), hnil _ (Nat.le_zero.1 hn)]
    | succ n =>
      rw [afterMarkers?, afterMarkers?]
      cases hmarker : afterMarker? cs with
      | none => rfl
      | some rest =>
        have hrest := afterMarker?_length hmarker
        have hmarkers : afterMarkers? isStruct m rest = afterMarkers? isStruct n rest :=
          ih (by omega) (by omega)
        rw [Option.bind_some, Option.bind_some, hmarkers]

theorem length_squeeze_le (cs : List Char) : (squeeze cs).length ≤ cs.length := by
  induction cs with
  | nil => exact Nat.le_refl _
  | cons c cs ih =>
    rw [squeeze]
    split
    · exact Nat.succ_le_succ ih
    · split
      · exact Nat.le_succ_of_le ih
      · exact Nat.succ_le_succ ih

/-- What stands behind a keyword and at least one blank. -/
def afterKeyword? (keyword : String) (head : List Char) : Option (List Char) :=
  (after? keyword head).bind afterBlanks?

theorem afterKeyword?_squeeze {keyword : String} (h : ∀ c ∈ keyword.toList, isBlank c = false)
    (head : List Char) :
    afterKeyword? keyword (squeeze head) = (afterKeyword? keyword head).map squeeze := by
  rw [afterKeyword?, afterKeyword?, after?_squeeze h]
  cases after? keyword head with
  | none => rfl
  | some rest => exact afterBlanks?_squeeze rest

theorem afterKeyword?_length {keyword : String} (h : afterKeyword? keyword cs = some rest) :
    rest.length ≤ cs.length := by
  obtain ⟨behind, hbehind, hrest⟩ := Option.bind_eq_some_iff.1 h
  exact (afterBlanks?_length hrest).trans (after?_length hbehind)

theorem classHead?_squeeze (head : List Char) : classHead? (squeeze head) = classHead? head := by
  have hkeyword : ∀ {keyword : String}, (∀ c ∈ keyword.toList, isBlank c = false) →
      ∀ isStruct, (afterKeyword? keyword (squeeze head)).bind
          (afterMarkers? isStruct (squeeze head).length) =
        (afterKeyword? keyword head).bind (afterMarkers? isStruct head.length) := by
    intro keyword hsolid isStruct
    cases hrest : afterKeyword? keyword head with
    | none =>
      rw [afterKeyword?_squeeze hsolid, hrest]
      rfl
    | some rest =>
      have hsqueezed : afterKeyword? keyword (squeeze head) = some (squeeze rest) := by
        rw [afterKeyword?_squeeze hsolid, hrest]
        rfl
      have hlength := (length_squeeze_le rest).trans (afterKeyword?_length hrest)
      have hmarkers : afterMarkers? isStruct (squeeze head).length (squeeze rest) =
          afterMarkers? isStruct head.length (squeeze rest) :=
        afterMarkers?_eq (afterKeyword?_length hsqueezed) hlength
      rw [hsqueezed, Option.bind_some, Option.bind_some, hmarkers, afterMarkers?_squeeze]
  have hclass := hkeyword (by simp [isBlank] : ∀ c ∈ "class".toList, isBlank c = false) false
  have hstruct := hkeyword (by simp [isBlank] : ∀ c ∈ "struct".toList, isBlank c = false) true
  simp only [afterKeyword?] at hclass hstruct
  simp only [classHead?, hclass, hstruct]

end ClassHeads

section Bodies

/-- A label with the rest of its text squeezed. -/
def squeezeLabel (label : Access × Bool × List Char) : Access × Bool × List Char :=
  (label.1, label.2.1, squeeze label.2.2)

theorem colons?_squeeze (access : Access) (cs : List Char) :
    colons? access (squeeze cs) = (colons? access cs).map squeezeLabel := by
  rcases squeeze_mark_cases ':' (by decide) cs with
    ⟨rest, rfl, hsqueezed⟩ | ⟨hcs, hsqueezed⟩
  · rcases squeeze_mark_cases ':' (by decide) rest with
      ⟨after, rfl, hdouble⟩ | ⟨hrest, hdouble⟩
    · rw [hsqueezed, hdouble]
      rfl
    · rw [hsqueezed, colons?, colons?]
      · rfl
      · exact hrest
      · exact hdouble
  · have hother : ∀ {cs}, (∀ rest, cs ≠ ':' :: rest) → colons? access cs = none := fun h => by
      rw [colons?]
      · exact fun _ => h _
      · exact h
    rw [hother hcs, hother hsqueezed]
    rfl

theorem label?_squeeze (cs : List Char) : label? (squeeze cs) = (label? cs).map squeezeLabel := by
  rw [label?_eq, label?_eq, List.map_findSome?]
  congr 1
  funext access
  have hsolid : ∀ c ∈ access.keyword.toList, isBlank c = false := fun c hc =>
    isBlank_of_isWord (isWord_keyword access c hc)
  rw [after?_squeeze hsolid, Function.comp_apply, Option.bind_map, Option.map_bind]
  congr 1
  funext rest
  rw [Function.comp_apply, Function.comp_apply, trimStart_squeeze, colons?_squeeze]

section Sections
variable {current access : Access} {previous : Option Char} {sofar after : List Char} {c : Char}
  {cs : List Char}

/-- A keyword before two colons is part of the section. -/
theorem label?_double (h : label? cs = some (access, true, after)) :
    ∃ label, cs = label ++ ':' :: after := by
  rw [label?_eq] at h
  obtain ⟨level, -, hlevel⟩ := List.exists_of_findSome?_eq_some h
  obtain ⟨rest, hrest, hcolons⟩ := Option.bind_eq_some_iff.1 hlevel
  have hstart : trimStart rest = ':' :: ':' :: after := by
    unfold colons? at hcolons
    split at hcolons
    · next heq =>
      cases hcolons
      exact heq
    · cases hcolons
    · cases hcolons
  have hsplit := List.takeWhile_append_dropWhile (p := isBlank) (l := rest)
  rw [← trimStart, hstart] at hsplit
  refine ⟨level.keyword.toList ++ rest.takeWhile isBlank ++ [':'], ?_⟩
  rw [after?_eq_some_iff.1 hrest]
  conv_lhs => rw [← hsplit]
  simp

theorem sectionsFrom_of_double {label : List Char} (hprevious : previous.any isWordAnywhere = false)
    (h : label? (label ++ ':' :: after) = some (access, true, after)) :
    sectionsFrom current previous sofar (label ++ ':' :: after) =
      sectionsFrom current (some ':') (':' :: label.reverse ++ sofar) after := by
  obtain ⟨c, cs, hcons⟩ : ∃ c cs, label ++ ':' :: after = c :: cs := by
    cases label <;> exact ⟨_, _, rfl⟩
  have htake : (c :: cs).take ((c :: cs).length - after.length) = label ++ [':'] := by
    rw [← hcons, List.append_cons, List.length_append, Nat.add_sub_cancel, List.take_left]
  rw [hcons] at h ⊢
  rw [sectionsFrom, if_neg (by simp [hprevious])]
  split
  · next hread => cases h.symm.trans hread
  · next hread => cases h.symm.trans hread
  · next hread =>
    cases h.symm.trans hread
    have hreverse : (label ++ [':']).reverse = ':' :: label.reverse := by simp
    simp only [htake, hreverse]

theorem label?_of_isBlank (h : isBlank c) : label? (c :: cs) = none := by
  refine label?_eq_none fun access => ?_
  have hword : isWord c = false := by
    rw [Bool.eq_false_iff]
    intro hword
    cases h.symm.trans (isBlank_of_isWord hword)
  rw [List.takeWhile_cons, if_neg (by simp [hword])]
  cases access <;> decide

/-- Blanks are part of the section they stand in. -/
theorem sectionsFrom_blanks {blanks : List Char} (h : ∀ c ∈ blanks, isBlank c) (cs : List Char) :
    sectionsFrom current previous sofar (blanks ++ cs) =
      sectionsFrom current (blanks.getLast?.or previous) (blanks.reverse ++ sofar) cs := by
  induction blanks generalizing previous sofar with
  | nil => rfl
  | cons c blanks ih =>
    rw [List.forall_mem_cons] at h
    rw [List.cons_append, sectionsFrom_cons fun _ => label?_of_isBlank h.1, ih h.2,
      List.reverse_cons, List.append_assoc, List.singleton_append, getLast?_cons_or]

theorem isWordAnywhere_behind_blanks {blanks : List Char} (h : ∀ c ∈ blanks, isBlank c)
    (hne : blanks ≠ []) : (blanks.getLast?.or previous).any isWordAnywhere = false := by
  rw [List.getLast?_eq_some_getLast hne]
  exact isWordAnywhere_of_isBlank (h _ (List.getLast_mem hne))

/-- The sections of a body with one space for every run of blanks. -/
def squeezeSections (sections : List (Access × List Char)) : List (Access × List Char) :=
  sections.map fun (access, text) => (access, squeeze text)

/-- The blanks that a text starts with count as one space. -/
theorem exists_blankRun {c : Char} (hc : isBlank c) (cs : List Char) :
    ∃ run, run ≠ [] ∧ (∀ d ∈ run, isBlank d) ∧ squeeze [' '] = squeeze run ∧
      c :: cs = run ++ trimStart cs := by
  have htake : ∀ d ∈ cs.takeWhile isBlank, isBlank d := fun d hd => List.mem_takeWhile_imp hd
  have hnil : trimStart (cs.takeWhile isBlank) = [] := List.dropWhile_eq_nil_iff.2 htake
  refine ⟨c :: cs.takeWhile isBlank, List.cons_ne_nil _ _, List.forall_mem_cons.2 ⟨hc, htake⟩, ?_,
    ?_⟩
  · rw [squeeze_run hc, hnil]
    rfl
  · rw [List.cons_append, trimStart, List.takeWhile_append_dropWhile]

/-- A text has the sections of the squeezed text, but for their blanks, behind whatever was read
before it. -/
def SectionsSqueeze (cs : List Char) : Prop :=
  ∀ (current : Access) ⦃p q : Option Char⦄ ⦃sofar sofar' : List Char⦄,
    p.any isWordAnywhere = q.any isWordAnywhere →
    squeeze sofar.reverse = squeeze sofar'.reverse →
    squeezeSections (sectionsFrom current p sofar (squeeze cs)) =
      squeezeSections (sectionsFrom current q sofar' cs)

theorem SectionsSqueeze.nil : SectionsSqueeze [] := by
  intro current p q sofar sofar' hprevious hsofar
  simp [sectionsFrom, squeezeSections, hsofar]

theorem SectionsSqueeze.blank (h : SectionsSqueeze (trimStart cs)) (hc : isBlank c) :
    SectionsSqueeze (c :: cs) := by
  intro current p q sofar sofar' _ hsofar
  obtain ⟨run, hne, hblanks, hrun, hcs⟩ := exists_blankRun hc cs
  rw [squeeze_run hc]
  conv_rhs => rw [hcs, sectionsFrom_blanks hblanks]
  rw [← List.singleton_append, sectionsFrom_blanks (by simp)]
  refine h current ?_ ?_
  · rw [isWordAnywhere_behind_blanks (by simp) (by simp), isWordAnywhere_behind_blanks hblanks hne]
  · rw [List.reverse_append, List.reverse_append, List.reverse_reverse, List.reverse_reverse]
    exact squeeze_append_congr hsofar hrun

theorem label?_solid_squeeze (hc : isBlank c = false) (cs : List Char) :
    label? (c :: squeeze cs) = (label? (c :: cs)).map squeezeLabel := by
  rw [← squeeze_solid hc, label?_squeeze]

section Solid
variable {p q : Option Char} {sofar' : List Char}
  (hsofar : squeeze sofar.reverse = squeeze sofar'.reverse)
include hsofar

/-- A character that no label starts at stands in front of the sections of the rest. -/
theorem SectionsSqueeze.solid (h : SectionsSqueeze cs) (hc : isBlank c = false)
    (hprevious : p.any isWordAnywhere = q.any isWordAnywhere)
    (hnone : q.any isWordAnywhere = false → label? (c :: cs) = none) :
    squeezeSections (sectionsFrom current p sofar (squeeze (c :: cs))) =
      squeezeSections (sectionsFrom current q sofar' (c :: cs)) := by
  have hnone' : p.any isWordAnywhere = false → label? (c :: squeeze cs) = none := by
    intro hp
    rw [label?_solid_squeeze hc, hnone (hprevious ▸ hp)]
    rfl
  rw [squeeze_solid hc, sectionsFrom_cons hnone', sectionsFrom_cons hnone]
  refine h current rfl ?_
  rw [List.reverse_cons, List.reverse_cons]
  exact squeeze_append_congr hsofar rfl

theorem SectionsSqueeze.label (h : SectionsSqueeze after) (hc : isBlank c = false)
    (hlabel : label? (c :: cs) = some (access, false, after))
    (hp : p.any isWordAnywhere = false) (hq : q.any isWordAnywhere = false) :
    squeezeSections (sectionsFrom current p sofar (squeeze (c :: cs))) =
      squeezeSections (sectionsFrom current q sofar' (c :: cs)) := by
  have hsqueezed : label? (c :: squeeze cs) = some (access, false, squeeze after) := by
    rw [label?_solid_squeeze hc, hlabel]
    rfl
  have hafter : squeezeSections (sectionsFrom access (some ':') [] (squeeze after)) =
      squeezeSections (sectionsFrom access (some ':') [] after) := h access rfl rfl
  rw [squeeze_solid hc, sectionsFrom_of_label hp hsqueezed, sectionsFrom_of_label hq hlabel]
  simp only [squeezeSections, List.map_cons, hsofar] at hafter ⊢
  rw [hafter]

theorem SectionsSqueeze.double (h : SectionsSqueeze after)
    (hlabel : label? (c :: cs) = some (access, true, after))
    (hp : p.any isWordAnywhere = false) (hq : q.any isWordAnywhere = false) :
    squeezeSections (sectionsFrom current p sofar (squeeze (c :: cs))) =
      squeezeSections (sectionsFrom current q sofar' (c :: cs)) := by
  have hsqueezed : label? (squeeze (c :: cs)) = some (access, true, squeeze after) := by
    rw [label?_squeeze, hlabel]
    rfl
  obtain ⟨front, hfront⟩ := label?_double hlabel
  have hcolon : isBlank ':' = false := by decide
  rw [hfront] at hlabel
  rw [hfront, squeeze_append front after hcolon] at hsqueezed ⊢
  rw [sectionsFrom_of_double hp hsqueezed, sectionsFrom_of_double hq hlabel]
  refine h current rfl ?_
  simp only [List.cons_append, List.reverse_cons, List.reverse_append, List.reverse_reverse]
  exact squeeze_append_congr (squeeze_append_congr hsofar (squeeze_squeeze front)) rfl

end Solid

/-- The sections of a text are those of the squeezed text, but for their blanks. -/
theorem sectionsSqueeze (cs : List Char) : SectionsSqueeze cs := by
  -- the reading goes on behind a whole label or a whole run of blanks
  induction hn : cs.length using Nat.strong_induction_on generalizing cs with
  | _ n ih =>
    subst hn
    cases cs with
    | nil => exact .nil
    | cons c cs =>
      cases hc : isBlank c with
      | true =>
        have hshorter := (List.dropWhile_suffix isBlank (l := cs)).length_le
        exact (ih _ (Nat.lt_succ_of_le hshorter) (trimStart cs) rfl).blank hc
      | false =>
        intro current p q sofar sofar' hprevious hsofar
        have hrest : SectionsSqueeze cs := ih _ (Nat.lt_succ_self _) cs rfl
        cases hq : q.any isWordAnywhere with
        | true => exact hrest.solid hsofar hc hprevious fun h => by cases hq.symm.trans h
        | false =>
          cases hlabel : label? (c :: cs) with
          | none => exact hrest.solid hsofar hc hprevious fun _ => hlabel
          | some label =>
            obtain ⟨access, double, after⟩ := label
            have hafter : SectionsSqueeze after := ih _ (label?_length hlabel) after rfl
            cases double with
            | false => exact hafter.label hsofar hc hlabel (hprevious.trans hq) hq
            | true => exact hafter.double hsofar hlabel (hprevious.trans hq) hq

end Sections

theorem parse_squeeze (owner : Option String) (access : Access) (cs : List Char) :
    Declaration.parse owner access (squeeze cs) = Declaration.parse owner access cs := by
  rw [Declaration.parse, Declaration.parse, normalizeSpaces, normalizeSpaces, words_squeeze]

/-- The sections of a squeezed body. -/
theorem sections_stripBodies_squeeze (access : Access) (body : List Char) :
    squeezeSections (sections access (stripBodies (squeeze body))) =
      squeezeSections (sections access (stripBodies body)) := by
  have hsections : ∀ cs, squeezeSections (sections access (squeeze cs)) =
      squeezeSections (sections access cs) := fun cs =>
    sectionsSqueeze cs access rfl rfl
  rw [← hsections, squeeze_stripBodies, hsections]

/-- Adds what the declarations of a section say. -/
def declareAll (owner : String) (c : ClassModel) (part : Access × List Char) : ClassModel :=
  (fields (· == ';') part.2).foldl
    (fun c text => declare part.1 c (.parse (some owner) part.1 text)) c

theorem foldl_declareAll_squeeze (owner : String) (parts : List (Access × List Char))
    (c : ClassModel) :
    (squeezeSections parts).foldl (declareAll owner) c = parts.foldl (declareAll owner) c := by
  have hend : ∀ c, isBlank c → (c == ';') = false := fun c hc => by
    simpa using ne_of_holds (d := ';') hc (by decide)
  rw [squeezeSections, List.foldl_map]
  congr 1
  funext c part
  rw [declareAll, declareAll, fields_squeeze hend, List.foldl_map]
  simp only [parse_squeeze]

/-- A class declares the same however the text between its braces is laid out. -/
theorem classModel_squeeze (head : ClassHead) (body : List Char) (scope : String)
    (header : SourceUnit) :
    classModel head (squeeze body) scope header = classModel head body scope header := by
  have hfold : ∀ access c,
      (sections access (stripBodies (squeeze body))).foldl (declareAll head.name) c =
        (sections access (stripBodies body)).foldl (declareAll head.name) c := fun access c => by
    rw [← foldl_declareAll_squeeze, sections_stripBodies_squeeze, foldl_declareAll_squeeze]
  exact congrArg (fun c : ClassModel =>
    { c with
      hasDefaultConstructor :=
        c.declaredConstructors == 0 || c.constructors.any (·.callableWithoutArguments) })
    (hfold (if head.isStruct then .everyone else .owner) _)

theorem function?_squeeze (header : SourceUnit) (scope : String) (cs : List Char) :
    function? header scope (squeeze cs) = function? header scope cs := by
  have hopen : (squeeze (trim cs)).contains '(' = (trim cs).contains '(' := by
    rw [Bool.eq_iff_iff, List.contains_iff_mem, List.contains_iff_mem]
    exact mem_squeeze (by decide)
  simp only [function?, trim_squeeze, hopen, parse_squeeze]

end Bodies

end TestSynth.Header
