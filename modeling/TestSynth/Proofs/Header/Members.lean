import Mathlib
import TestSynth.Proofs.Declaration.Prototypes
import TestSynth.Proofs.Header.Concatenation
import TestSynth.Proofs.Header.Respacing
/-!
Class bodies that declare member functions behind access labels. Each declaration is read on its
own, so that the class is abstract when one of them is read as pure.
-/
namespace TestSynth.Header

open Text Declaration

section Statements
variable {cs rest sofar : List Char} {current access : Access} {previous : Option Char}

/-- The text in front of the first section. -/
def onFirst (lead : List Char) : List (Access × List Char) → List (Access × List Char)
  | [] => []
  | (access, text) :: parts => (access, lead ++ text) :: parts

/-- What was read of a section before stands in front of it. -/
theorem sectionsFrom_sofar (current : Access) (previous : Option Char) (sofar tail cs : List Char) :
    sectionsFrom current previous (sofar ++ tail) cs =
      onFirst tail.reverse (sectionsFrom current previous sofar cs) := by
  induction hn : cs.length using Nat.strong_induction_on generalizing current previous sofar cs with
  | _ n ih =>
    subst hn
    cases cs with
    | nil => simp [sectionsFrom, onFirst]
    | cons c cs =>
      have hcons := ih cs.length (Nat.lt_succ_self _) current (some c) (c :: sofar) cs rfl
      rw [List.cons_append] at hcons
      rw [sectionsFrom, sectionsFrom]
      split
      · exact hcons
      · split
        · exact hcons
        · simp [onFirst]
        · next hlabel =>
          have := label?_length hlabel
          simp only [← List.append_assoc]
          exact ih _ this _ _ _ _ rfl

theorem sectionsFrom_head (current : Access) (previous : Option Char) (sofar cs : List Char) :
    ∃ text parts, sectionsFrom current previous sofar cs = (current, text) :: parts := by
  induction hn : cs.length using Nat.strong_induction_on generalizing previous sofar cs with
  | _ n ih =>
    subst hn
    cases cs with
    | nil => exact ⟨_, _, by rw [sectionsFrom]⟩
    | cons c cs =>
      have hcons := ih cs.length (Nat.lt_succ_self _) (some c) (c :: sofar) cs rfl
      rw [sectionsFrom]
      split
      · exact hcons
      · split
        · exact hcons
        · exact ⟨_, _, rfl⟩
        · next hlabel => exact ih _ (label?_length hlabel) _ _ _ rfl

/-- What a section says, statement by statement. -/
def statements (part : Access × List Char) : List (Access × List Char) :=
  (fields (· == ';') part.2).map (part.1, ·)

/-- The declarations of a body, each with the access that the label before it grants. -/
def declarationsFrom (current : Access) (previous : Option Char) (cs : List Char) :
    List (Access × List Char) :=
  (sectionsFrom current previous [] cs).flatMap statements

/-- What a text of a body declares. -/
def declared (owner : String) (d : Access × List Char) : Access × Declaration :=
  (d.1, parse (some owner) d.1 d.2)

/-- Behind a semicolon a body is read on as if its section started there. -/
theorem flatMap_statements (sofar : List Char) :
    (sectionsFrom current previous (';' :: sofar) cs).flatMap statements =
      statements (current, sofar.reverse) ++ declarationsFrom current previous cs := by
  have hsofar := sectionsFrom_sofar current previous [] (';' :: sofar) cs
  obtain ⟨text, parts, hparts⟩ := sectionsFrom_head current previous [] cs
  rw [List.nil_append, hparts] at hsofar
  rw [hsofar, declarationsFrom, hparts, onFirst, List.flatMap_cons, List.flatMap_cons,
    ← List.append_assoc]
  congr 1
  rw [statements, List.reverse_cons, List.append_assoc, List.singleton_append,
    fields_append_cons (by simp), List.map_append]
  rfl

/-- A statement without labels is declared with the access that holds where it stands. -/
theorem declarationsFrom_statement (hcs : Unlabelled cs) (hend : ';' ∉ cs) (rest : List Char) :
    declarationsFrom current previous (cs ++ ';' :: rest) =
      (current, cs) :: declarationsFrom current (some ';') rest := by
  have hlabels : Unlabelled (cs ++ [';']) := hcs.append_cons (by decide) unlabelled_nil
  have hfields : fields (· == ';') cs = [cs] :=
    fields_eq_singleton fun c hc => beq_eq_false_iff_ne.2 fun h => hend (h ▸ hc)
  have hsections := @sectionsFrom_append rest [] current previous (cs ++ [';']) hlabels
    (by simp [isWord])
  rw [List.append_assoc, List.singleton_append, List.getLast?_concat, List.reverse_append,
    List.append_nil] at hsections
  rw [declarationsFrom, hsections]
  refine (flatMap_statements cs.reverse).trans ?_
  rw [List.reverse_reverse, statements, hfields]
  rfl

/-- A label grants access to what follows it. -/
theorem declarationsFrom_label (hprevious : previous.any isWordAnywhere = false)
    {lead gap rest : List Char} (hlead : ∀ c ∈ lead, isBlank c) (hgap : ∀ c ∈ gap, isBlank c)
    (hrest : rest.head? ≠ some ':') :
    declarationsFrom current previous
        (lead ++ (access.keyword.toList ++ (gap ++ ':' :: rest))) =
      (current, lead) :: declarationsFrom access (some ':') rest := by
  have hbehind : (lead.getLast?.or previous).any isWordAnywhere = false := by
    cases lead with
    | nil => exact hprevious
    | cons c lead => exact isWordAnywhere_behind_blanks hlead (List.cons_ne_nil _ _)
  have hfields : fields (· == ';') lead = [lead] :=
    fields_eq_singleton fun c hc => beq_eq_false_iff_ne.2 (ne_of_holds (hlead c hc) (by decide))
  rw [declarationsFrom, sectionsFrom_blanks hlead, sectionsFrom_label hbehind hgap hrest,
    List.flatMap_cons, List.append_nil, List.reverse_reverse, statements, hfields]
  rfl

/-- Blanks at the end of a body are all that they declare. -/
theorem declarationsFrom_blanks (h : ∀ c ∈ cs, isBlank c) :
    declarationsFrom current previous cs = [(current, cs)] := by
  have hsections : sectionsFrom current previous [] (cs ++ []) = _ := sectionsFrom_blanks h []
  have hfields : fields (· == ';') cs = [cs] :=
    fields_eq_singleton fun c hc => beq_eq_false_iff_ne.2 (ne_of_holds (h c hc) (by decide))
  rw [List.append_nil, List.append_nil] at hsections
  rw [declarationsFrom, hsections, sectionsFrom, List.reverse_reverse, List.flatMap_singleton,
    statements, hfields]
  rfl

end Statements

section Borders
variable {current access : Access} {previous : Option Char} {sofar : List Char}

theorem after?_semicolon {word : String} (hword : ';' ∉ word.toList) (cs : List Char) :
    (∀ rest, after? word (cs ++ ';' :: rest) = none) ∨ ∃ t, cs = word.toList ++ t ∧
      ∀ rest, after? word (cs ++ ';' :: rest) = some (t ++ ';' :: rest) := by
  by_cases hprefix : word.toList <+: cs
  · obtain ⟨t, rfl⟩ := hprefix
    exact .inr ⟨t, rfl, fun rest => after?_eq_some_iff.2 (List.append_assoc _ _ _)⟩
  · refine .inl fun rest => ?_
    rw [after?, if_neg]
    rwa [List.isPrefixOf_iff_prefix, prefix_append_cons hword]

/-- What colons make of a keyword is settled before a semicolon. -/
theorem colons?_semicolon (access : Access) (u : List Char) :
    (∀ rest, colons? access (u ++ ';' :: rest) = none) ∨ ∃ double after, after.length ≤ u.length ∧
      ∀ rest, colons? access (u ++ ';' :: rest) = some (access, double, after ++ ';' :: rest) := by
  match u with
  | [] => exact .inl fun rest => rfl
  | [c] =>
    by_cases hc : c = ':'
    · subst hc
      exact .inr ⟨false, [], Nat.zero_le _, fun rest => rfl⟩
    · exact .inl fun rest => by simp [colons?, hc]
  | c :: d :: u =>
    by_cases hc : c = ':'
    · subst hc
      by_cases hd : d = ':'
      · subst hd
        exact .inr ⟨true, u, by simp only [List.length_cons]; omega, fun rest => rfl⟩
      · refine .inr ⟨false, d :: u, by simp, fun rest => colons?_single access ?_⟩
        simpa using hd
    · exact .inl fun rest => by simp [colons?, hc]

/-- A label in front of a semicolon ends before it. -/
theorem label?_semicolon (cs : List Char) : (∀ rest, label? (cs ++ ';' :: rest) = none) ∨
    ∃ access double after, after.length < cs.length ∧
      ∀ rest, label? (cs ++ ';' :: rest) = some (access, double, after ++ ';' :: rest) := by
  have hlevel : ∀ access : Access,
      (∀ rest, ((after? access.keyword (cs ++ ';' :: rest)).bind fun rest =>
        colons? access (trimStart rest)) = none) ∨
      ∃ double after, after.length < cs.length ∧
        ∀ rest, ((after? access.keyword (cs ++ ';' :: rest)).bind fun rest =>
          colons? access (trimStart rest)) = some (access, double, after ++ ';' :: rest) :=
    fun access => by
      have hkeyword : ';' ∉ access.keyword.toList :=
        not_mem_of_holds (isWord_keyword access) (by decide)
      rcases after?_semicolon hkeyword cs with hnone | ⟨t, hcs, ht⟩
      · exact .inl fun rest => by rw [hnone]; rfl
      · have hstart : ∀ rest, trimStart (t ++ ';' :: rest) = trimStart t ++ ';' :: rest :=
          trimStart_append_cons (by decide) t
        have hshorter : (trimStart t).length < cs.length := by
          have hsuffix := (List.dropWhile_suffix isBlank (l := t)).length_le
          have hpositive : 0 < access.keyword.toList.length := by cases access <;> decide
          rw [hcs, List.length_append, trimStart]
          omega
        simp only [ht, Option.bind_some, hstart]
        rcases colons?_semicolon access (trimStart t) with hnone | ⟨double, after, hle, hsome⟩
        · exact .inl hnone
        · exact .inr ⟨double, after, Nat.lt_of_le_of_lt hle hshorter, hsome⟩
  simp only [label?_eq, List.findSome?_cons, List.findSome?_nil]
  rcases hlevel .everyone with heveryone | ⟨double, after, hlt, hsome⟩
  · rcases hlevel .derived with hderived | ⟨double, after, hlt, hsome⟩
    · rcases hlevel .owner with howner | ⟨double, after, hlt, hsome⟩
      · exact .inl fun rest => by rw [heveryone, hderived, howner]
      · exact .inr ⟨_, double, after, hlt, fun rest => by rw [heveryone, hderived, hsome]⟩
    · exact .inr ⟨_, double, after, hlt, fun rest => by rw [heveryone, hsome]⟩
  · exact .inr ⟨_, double, after, hlt, fun rest => by rw [hsome]⟩

/-- What stands behind a semicolon has no part in how the text before it is cut. -/
theorem sectionsFrom_semicolon (cs : List Char) : ∃ parts access text, ∀ rest,
    sectionsFrom current previous sofar (cs ++ ';' :: rest) =
      parts ++ sectionsFrom access (some ';') (';' :: text) rest := by
  induction hn : cs.length using Nat.strong_induction_on generalizing current previous sofar cs with
  | _ n ih =>
    subst hn
    cases cs with
    | nil =>
      refine ⟨[], current, sofar, fun rest => sectionsFrom_cons fun _ => label?_eq_none ?_⟩
      intro access
      rw [List.takeWhile_cons_of_neg (by decide)]
      cases access <;> decide
    | cons c cs =>
      have hcons : (∀ rest, previous.any isWordAnywhere = false →
          label? (c :: (cs ++ ';' :: rest)) = none) → _ := fun h =>
        let ⟨parts, access, text, hparts⟩ :=
          @ih cs.length (Nat.lt_succ_self _) current (some c) (c :: sofar) cs rfl
        (⟨parts, access, text, fun rest => (sectionsFrom_cons (h rest)).trans (hparts rest)⟩ :
          ∃ parts access text, ∀ rest,
            sectionsFrom current previous sofar (c :: (cs ++ ';' :: rest)) =
              parts ++ sectionsFrom access (some ';') (';' :: text) rest)
      cases hprevious : previous.any isWordAnywhere with
      | true => exact hcons fun rest h => by cases hprevious.symm.trans h
      | false =>
        rcases label?_semicolon (c :: cs) with hnone | ⟨access, double, after, hlt, hsome⟩
        · exact hcons fun rest _ => hnone rest
        · cases double with
          | false =>
            obtain ⟨parts, access', text, hparts⟩ :=
              @ih after.length hlt access (some ':') [] after rfl
            refine ⟨(current, sofar.reverse) :: parts, access', text, fun rest => ?_⟩
            exact (sectionsFrom_of_label hprevious (hsome rest)).trans (congrArg _ (hparts rest))
          | true =>
            obtain ⟨label, hlabel⟩ := label?_double (hsome [])
            have hcs : c :: cs = label ++ ':' :: after := by
              rw [← List.append_cancel_right_eq _ [';']]
              simpa using hlabel
            obtain ⟨parts, access', text, hparts⟩ :=
              @ih after.length hlt current (some ':') (':' :: label.reverse ++ sofar) after rfl
            refine ⟨parts, access', text, fun rest => ?_⟩
            have hdouble := hsome rest
            rw [hcs, List.append_assoc, List.cons_append] at hdouble ⊢
            exact (sectionsFrom_of_double hprevious hdouble).trans (hparts rest)

theorem declarationsFrom_semicolon (cs : List Char) : ∃ ds access, ∀ rest,
    declarationsFrom current previous (cs ++ ';' :: rest) =
      ds ++ declarationsFrom access (some ';') rest := by
  obtain ⟨parts, access, text, hparts⟩ := @sectionsFrom_semicolon current previous [] cs
  refine ⟨parts.flatMap statements ++ statements (access, text.reverse), access, fun rest => ?_⟩
  rw [declarationsFrom, hparts, List.flatMap_append, flatMap_statements, List.append_assoc]

/-- Where nothing is left open, the text is blank, or without its bodies it ends in a semicolon. -/
theorem stripBodies_settled {front : List Char} (h : Settled front) :
    (∀ c ∈ front, isBlank c) ∨ ∃ cs blanks, stripBodies front = cs ++ ';' :: blanks ∧
      ∀ c ∈ blanks, isBlank c := by
  have hblank : ∀ {cs}, (∀ c ∈ cs, isBlank c) → stripBodies cs = cs := fun hcs =>
    stripBodies_eq_self (not_mem_of_holds hcs (by decide))
  obtain ⟨hbalanced, hended⟩ := h
  revert hended
  refine balanced_induction (fun _ => .inl (by simp)) ?_ ?_ hbalanced
  · intro inside rest hinside _ ih hended
    have hended' : ∀ c ∈ (trimEnd rest).getLast?, c = ';' ∨ c = '}' :=
      ended_of_append (a := '{' :: (inside ++ ['}'])) (by simpa using hended)
    rw [stripBodies_group (splitGroup_of_balanced hinside rest)]
    rcases ih hended' with hblanks | ⟨cs, blanks, hcs, hblanks⟩
    · have hmark : bodyMark rest = [';'] := by
        have := bodyMark_blanks_append hblanks []
        rw [List.append_nil] at this
        exact this
      exact .inr ⟨[], rest, by rw [hmark, hblank hblanks]; rfl, hblanks⟩
    · exact .inr ⟨bodyMark rest ++ cs, blanks, by rw [hcs, List.append_assoc], hblanks⟩
  · intro c front hopen hclose _ ih hended
    have hended' : ∀ c ∈ (trimEnd front).getLast?, c = ';' ∨ c = '}' :=
      ended_of_append (a := [c]) hended
    rw [stripBodies_cons hopen]
    rcases ih hended' with hblanks | ⟨cs, blanks, hcs, hblanks⟩
    · cases hc : isBlank c with
      | true => exact .inl (List.forall_mem_cons.2 ⟨hc, hblanks⟩)
      | false =>
        have hlast : trimEnd (c :: front) = [c] := by
          rw [trimEnd_cons hc, trimEnd, dropEndWhile_eq_nil_iff.2 hblanks]
        rcases hended c (by rw [hlast]; rfl) with rfl | rfl
        · exact .inr ⟨[], front, by rw [hblank hblanks]; rfl, hblanks⟩
        · exact absurd rfl hclose
    · exact .inr ⟨c :: cs, blanks, by rw [hcs]; rfl, hblanks⟩

/-- Behind a settled text a body is read on from a new statement. -/
theorem declarationsFrom_settled {front : List Char} (h : Settled front) :
    ∃ ds access lead previous, (∀ c ∈ lead, isBlank c) ∧ previous.any isWordAnywhere = false ∧
      ∀ rest, declarationsFrom current none (stripBodies front ++ rest) =
        ds ++ declarationsFrom access previous (lead ++ rest) := by
  rcases stripBodies_settled h with hblank | ⟨cs, blanks, hcs, hblank⟩
  · refine ⟨[], current, front, none, hblank, rfl, fun rest => ?_⟩
    rw [stripBodies_eq_self (not_mem_of_holds hblank (by decide)), List.nil_append]
  · obtain ⟨ds, access, hds⟩ := @declarationsFrom_semicolon current none cs
    refine ⟨ds, access, blanks, some ';', hblank, by decide, fun rest => ?_⟩
    rw [hcs, List.append_assoc, List.cons_append, hds]

/-- The access label that may stand right before a declaration. -/
def labelChars : Option (Access × List Char) → List Char
  | none => []
  | some (access, gap) => access.keyword.toList ++ (gap ++ [':'])

theorem declarationsFrom_labelled {front : List Char} {label : Option (Access × List Char)}
    (h : Settled front) (hlabel : ∀ l ∈ label, ∀ c ∈ l.2, isBlank c) :
    ∃ ds access lead previous, (∀ c ∈ lead, isBlank c) ∧ previous.any isWordAnywhere = false ∧
      ∀ rest : List Char, (label.isSome → rest.head? ≠ some ':') →
        declarationsFrom current none (stripBodies front ++ (labelChars label ++ rest)) =
          ds ++ declarationsFrom access previous (lead ++ rest) := by
  obtain ⟨ds, access, lead, previous, hlead, hprevious, hds⟩ :=
    @declarationsFrom_settled current front h
  cases label with
  | none => exact ⟨ds, access, lead, previous, hlead, hprevious, fun rest _ => hds rest⟩
  | some label =>
    obtain ⟨level, gap⟩ := label
    refine ⟨ds ++ [(access, lead)], level, [], some ':', by simp, by decide, fun rest hrest => ?_⟩
    have hchars : labelChars (some (level, gap)) ++ rest =
        level.keyword.toList ++ (gap ++ ':' :: rest) := by simp [labelChars]
    rw [hds, hchars, declarationsFrom_label hprevious hlead (hlabel _ rfl) (hrest rfl),
      List.append_assoc]
    rfl

/-- A text that a semicolon ends as one statement, behind a label or not. -/
structure Statement (label : Option (Access × List Char)) (d : List Char) : Prop where
  unlabelled : Unlabelled d
  ended : ';' ∉ d
  apart : label.isSome → (d ++ [';']).head? ≠ some ':'

/-- Statements that are read alike are alike in a body. -/
theorem declared_congr {owner : String} {front d e : List Char}
    {label : Option (Access × List Char)} (hfront : Settled front)
    (hlabel : ∀ l ∈ label, ∀ c ∈ l.2, isBlank c) (hd : Statement label d) (he : Statement label e)
    (hparse : ∀ access, parse (some owner) access d = parse (some owner) access e)
    (post : List Char) :
    (declarationsFrom current none
        (stripBodies front ++ (labelChars label ++ (d ++ ';' :: post)))).map (declared owner) =
      (declarationsFrom current none
        (stripBodies front ++ (labelChars label ++ (e ++ ';' :: post)))).map (declared owner) := by
  obtain ⟨ds, access, lead, previous, hlead, hprevious, hds⟩ :=
    @declarationsFrom_labelled current front label hfront hlabel
  have hstatement : ∀ {d : List Char}, Statement label d →
      (declarationsFrom current none
        (stripBodies front ++ (labelChars label ++ (d ++ ';' :: post)))).map (declared owner) =
      ds.map (declared owner) ++ (access, parse (some owner) access d) ::
        (declarationsFrom access (some ';') post).map (declared owner) := fun {d} hd => by
    have hhead : (d ++ ';' :: post).head? = (d ++ [';']).head? := by cases d <;> rfl
    have hend : ';' ∉ lead ++ d := by
      rw [List.mem_append, not_or]
      exact ⟨not_mem_of_holds hlead (by decide), hd.ended⟩
    rw [hds _ (hhead ▸ hd.apart), ← List.append_assoc lead,
      declarationsFrom_statement (hd.unlabelled.blanks_append hlead) hend, List.map_append,
      List.map_cons, declared, parse_blanks_append _ _ _ hlead]
  rw [hstatement hd, hstatement he, hparse]

end Borders

section Bodies
variable {owner : String} {body lead : List Char} {ps : List Prototype} {current access : Access}
  {previous : Option Char}

/-- A body that is a sequence of access labels and declarations of member functions. -/
inductive Members (owner : String) : List Char → List Prototype → Prop
  | done (tail : List Char) : (∀ c ∈ tail, isBlank c) → Members owner tail []
  | label (lead : List Char) (access : Access) (gap rest : List Char) (ps : List Prototype) :
    (∀ c ∈ lead, isBlank c) → (∀ c ∈ gap, isBlank c) → rest.head? ≠ some ':' →
    Members owner rest ps →
    Members owner (lead ++ (access.keyword.toList ++ (gap ++ ':' :: rest))) ps
  | declaration (lead : List Char) (p : Prototype) (rest : List Char) (ps : List Prototype) :
    (∀ c ∈ lead, isBlank c) → p.Readable owner → Unlabelled p.chars → ';' ∉ p.chars →
    Members owner rest ps → Members owner (lead ++ (p.chars ++ ';' :: rest)) (p :: ps)

/-- Blanks declare nothing. -/
theorem isPure_parse_blanks (owner : Option String) (access : Access)
    (h : ∀ c ∈ lead, isBlank c) : (parse owner access lead).isPure = false := by
  rw [← List.append_nil lead, parse_blanks_append owner access [] h]
  rfl

/-- A body declares a pure function when one that is not overlooked is marked as pure. -/
theorem Members.any_isPure (h : Members owner body ps)
    (hprevious : previous.any isWordAnywhere = false) :
    ((declarationsFrom current previous body).map (declared owner)).any (·.2.isPure) =
      ps.any fun p => p.isPure && !p.isOverlooked := by
  induction h generalizing current previous with
  | done tail htail =>
    rw [declarationsFrom_blanks htail, List.map_cons, List.any_cons, declared,
      isPure_parse_blanks _ _ htail]
    rfl
  | label lead access gap rest ps hlead hgap hrest _ ih =>
    rw [declarationsFrom_label hprevious hlead hgap hrest, List.map_cons, List.any_cons, declared,
      isPure_parse_blanks _ _ hlead, Bool.false_or]
    exact ih (by decide)
  | declaration lead p rest ps hlead hp hlabels hend _ ih =>
    have hend' : ';' ∉ lead ++ p.chars := by
      rw [List.mem_append, not_or]
      exact ⟨not_mem_of_holds hlead (by decide), hend⟩
    rw [← List.append_assoc, declarationsFrom_statement (hlabels.blanks_append hlead) hend',
      List.map_cons, List.any_cons, declared, parse_blanks_append _ _ _ hlead, hp.isPure_parse,
      List.any_cons, ih (by decide)]

/-- The access of the members in front of the first label. -/
def ClassHead.initialAccess (head : ClassHead) : Access :=
  if head.isStruct then .everyone else .owner

/-- A class with the declarations of its body. -/
def declaring (head : ClassHead) (scope : String) (header : SourceUnit)
    (ds : List (Access × Declaration)) : ClassModel :=
  let c := ds.foldl (fun c d => declare d.1 c d.2)
    { name := head.name, scope, bases := head.bases, methods := [], memberVariables := []
      hasDefaultConstructor := false, isAbstract := false, header, isStruct := head.isStruct }
  { c with hasDefaultConstructor :=
      c.declaredConstructors == 0 || c.constructors.any (·.callableWithoutArguments) }

/-- The body of a class counts for its declarations only. -/
theorem classModel_eq (head : ClassHead) (body : List Char) (scope : String)
    (header : SourceUnit) : classModel head body scope header = declaring head scope header
      ((declarationsFrom head.initialAccess none (stripBodies body)).map (declared head.name)) := by
  have hparts : ∀ (parts : List (Access × List Char)) (c : ClassModel),
      parts.foldl (fun c part => (fields (· == ';') part.2).foldl
          (fun c text => declare part.1 c (parse (some head.name) part.1 text)) c) c =
        ((parts.flatMap statements).map (declared head.name)).foldl
          (fun c d => declare d.1 c d.2) c := fun parts c => by
    simp only [List.foldl_flatMap, List.foldl_map, List.map_flatMap, statements, declared]
  rw [declaring, declarationsFrom, ← hparts]
  rfl

theorem isAbstract_declaring (head : ClassHead) (scope : String) (header : SourceUnit)
    (ds : List (Access × Declaration)) :
    (declaring head scope header ds).isAbstract = ds.any (·.2.isPure) := by
  have hfold : ∀ c : ClassModel, (ds.foldl (fun c d => declare d.1 c d.2) c).isAbstract =
      (c.isAbstract || ds.any (·.2.isPure)) := by
    induction ds with
    | nil => simp
    | cons d ds ih =>
      intro c
      have hdeclare : (declare d.1 c d.2).isAbstract = (c.isAbstract || d.2.isPure) := by
        cases d.2 <;> simp [declare, Declaration.isPure]
      rw [List.foldl_cons, ih, hdeclare, Bool.or_assoc, List.any_cons]
  exact (hfold _).trans (Bool.false_or _)

/-- A class whose body is a sequence of labels and declarations is abstract when one of these that
is not overlooked is marked as pure. -/
theorem Members.isAbstract_classModel {head : ClassHead}
    (h : Members head.name (stripBodies body) ps) (scope : String) (header : SourceUnit) :
    (classModel head body scope header).isAbstract =
      ps.any fun p => p.isPure && !p.isOverlooked := by
  rw [classModel_eq, isAbstract_declaring, h.any_isPure Option.any_none]

end Bodies

section Definitions
variable {header : SourceUnit} {name : String} {members : Item → List Prototype}

/-- The definitions of a class of that qualified name. -/
def definitions (name : String) (cs : List Char) : List Item :=
  (items "" cs).filter fun
    | .classBody scope head _ => qualify scope head.name == name
    | .statement .. => false

/-- The body of a definition is a sequence of access labels and these declarations. -/
def Item.Declares : Item → List Prototype → Prop
  | .classBody _ head body, ps => Members head.name (stripBodies body) ps
  | .statement .., _ => False

theorem qualifiedName_classModel (head : ClassHead) (body : List Char) (scope : String)
    (header : SourceUnit) :
    (classModel head body scope header).qualifiedName = qualify scope head.name := by
  have hdeclare : ∀ (access : Access) (c : ClassModel) (d : Declaration),
      (declare access c d).qualifiedName = c.qualifiedName := fun access c d => by cases d <;> rfl
  rw [classModel_eq]
  exact List.foldlRecOn (motive := fun c : ClassModel => c.qualifiedName = qualify scope head.name)
    _ _ rfl fun c hc d _ => (hdeclare d.1 c d.2).trans hc

/-- The definitions of a name are those that are joined to its class. -/
theorem named_models (header : SourceUnit) (name : String) (cs : List Char) :
    ClassModel.named name ((items "" cs).filterMap (itemClass? header)) =
      (definitions name cs).filterMap (itemClass? header) := by
  rw [ClassModel.named, definitions, List.filter_filterMap, List.filterMap_filter]
  congr 1
  funext i
  cases i with
  | statement scope text => rfl
  | classBody scope head body =>
    rw [itemClass?, Option.filter_some, qualifiedName_classModel]

/-- Every class whose definitions are sequences of labels and declarations is abstract exactly when
one of the declarations that is not overlooked is marked as pure. -/
theorem extract_isAbstract_iff (limits : Limits) (header : SourceUnit) (text : String)
    (hdefined : definitions name (sanitize text.toList) ≠ [])
    (hmembers : ∀ i ∈ definitions name (sanitize text.toList), i.Declares (members i)) :
    ∃ e, (extract limits header text).lookup? name = some e ∧ (e.2.isAbstract = true ↔
      ∃ i ∈ definitions name (sanitize text.toList),
        ∃ p ∈ members i, p.isPure ∧ p.isOverlooked = false) := by
  have hlookup : (extract limits header text).lookup? name = ModelTable.entryOf
      ((definitions name (sanitize text.toList)).filterMap (itemClass? header)) := by
    rw [ModelTable.lookup?, classes_extract, ← ModelTable.lookup?, classTable,
      ModelTable.lookup?_definitions, named_models]
  have hclass : ∀ i ∈ definitions name (sanitize text.toList), ∃ c, itemClass? header i = some c ∧
      c.isAbstract = (members i).any fun p => p.isPure && !p.isOverlooked := fun i hi => by
    have hdeclares := hmembers i hi
    cases i with
    | statement scope text => exact hdeclares.elim
    | classBody scope head body => exact ⟨_, rfl, hdeclares.isAbstract_classModel scope header⟩
  generalize definitions name (sanitize text.toList) = is at hdefined hlookup hclass ⊢
  cases hmodels : is.filterMap (itemClass? header) with
  | nil =>
    obtain ⟨i, hi⟩ := List.exists_mem_of_ne_nil is hdefined
    obtain ⟨c, hc, -⟩ := hclass i hi
    rw [List.filterMap_eq_nil_iff] at hmodels
    cases hc.symm.trans (hmodels i hi)
  | cons d ds =>
    rw [hmodels] at hlookup
    refine ⟨_, hlookup, ?_⟩
    rw [(ClassModel.joins_foldl_merge d ds).isAbstract, ← hmodels, List.any_filterMap,
      List.any_eq_true]
    refine exists_congr fun i => and_congr_right fun hi => ?_
    obtain ⟨c, hc, habstract⟩ := hclass i hi
    simp [hc, habstract]

section Figures

def figureArea : Prototype :=
  ⟨"virtual double ".toList, "area".toList, [], [], " const ".toList, some ⟨[' '], .pure, []⟩⟩

def figureEquality : Prototype :=
  ⟨"virtual bool ".toList, "operator==".toList, [], "const Figure& o".toList, " const ".toList,
    some ⟨[' '], .pure, []⟩⟩

def figureDestructor : Prototype :=
  ⟨"virtual ".toList, "~Figure".toList, [], [], [' '], some ⟨[' '], .default, []⟩⟩

theorem readable_figureArea : figureArea.Readable "Figure" := by
  have hlast : figureArea.leading.getLast? = some ' ' := by decide +kernel
  have hparameters : trimStart figureArea.parameters = [] := rfl
  exact .named
    { kind := .method (by decide +kernel) (by decide +kernel)
        ⟨"double".toList, by decide +kernel, by decide +kernel⟩
      gap := List.all_eq_true.1 rfl
      apart := by simp [hlast, isNamePart, isWord]
      front := by decide +kernel
      unassigned := by decide +kernel
      accepted := by decide +kernel
      direct := by simp [hparameters]
      attributes := by decide +kernel
      enclosed := by decide +kernel
      qualifiers := by decide +kernel
      blanks := fun e he => by
        cases he
        exact ⟨List.all_eq_true.1 rfl, List.all_eq_true.1 rfl⟩ }

theorem readable_figureEquality : figureEquality.Readable "Figure" := by
  have hlast : figureEquality.leading.getLast? = some ' ' := by decide +kernel
  exact .overload
    { named := ⟨"==".toList, by decide +kernel, by simp [isWord]⟩
      gap := List.all_eq_true.1 rfl
      apart := by simp [hlast, isWord]
      unclosed := by decide +kernel
      attributes := by decide +kernel }

theorem readable_figureDestructor : figureDestructor.Readable "Figure" := by
  have hlast : figureDestructor.leading.getLast? = some ' ' := by decide +kernel
  have hparameters : trimStart figureDestructor.parameters = [] := rfl
  exact .named
    { kind := .destructor (by decide +kernel) (by decide +kernel)
      gap := List.all_eq_true.1 rfl
      apart := by simp [hlast, isNamePart, isWord]
      front := by decide +kernel
      unassigned := by decide +kernel
      accepted := by decide +kernel
      direct := by simp [hparameters]
      attributes := by decide +kernel
      enclosed := by decide +kernel
      qualifiers := by decide +kernel
      blanks := fun e he => by
        cases he
        exact ⟨List.all_eq_true.1 rfl, List.all_eq_true.1 rfl⟩ }

/-- Functions behind two labels. -/
def figureBody : List Char :=
  [' '] ++ (Access.everyone.keyword.toList ++ ([] ++ ':' :: ([' '] ++ (figureArea.chars ++ ';' ::
    ([' '] ++ (figureEquality.chars ++ ';' :: (['\n'] ++ (Access.derived.keyword.toList ++
      ([' '] ++ ':' :: ([' '] ++ (figureDestructor.chars ++ ';' :: [' '])))))))))))

theorem members_figureBody :
    Members "Figure" figureBody [figureArea, figureEquality, figureDestructor] := by
  have hblank : ∀ c ∈ [' '], isBlank c := List.all_eq_true.1 rfl
  have hdestructor : Members "Figure" _ [figureDestructor] :=
    .declaration [' '] figureDestructor [' '] [] hblank readable_figureDestructor
      (by decide +kernel) (by decide +kernel) (.done _ hblank)
  have hlabel : Members "Figure" _ [figureDestructor] :=
    .label ['\n'] .derived [' '] _ _ (List.all_eq_true.1 rfl) hblank (by decide +kernel) hdestructor
  have hequality : Members "Figure" _ [figureEquality, figureDestructor] :=
    .declaration [' '] figureEquality _ _ hblank readable_figureEquality (by decide +kernel)
      (by decide +kernel) hlabel
  exact .label [' '] .everyone [] _ _ hblank (List.all_eq_true.1 rfl) (by decide +kernel)
    (.declaration [' '] figureArea _ _ hblank readable_figureArea (by decide +kernel)
      (by decide +kernel) hequality)

def figureText : String :=
  "class Figure \x7b public: virtual double area() const = 0; " ++
    "virtual bool operator==(const Figure& o) const = 0;\n" ++
    "protected : virtual ~Figure() = default; \x7d;"

theorem extract_isAbstract_iff_figure :
    definitions "Figure" (sanitize figureText.toList) =
        [.classBody "" ⟨false, "Figure", .empty⟩ figureBody] ∧
      Members "Figure" figureBody [figureArea, figureEquality, figureDestructor] ∧
      ∃ e, (extract {} ⟨⟨"a.h"⟩, .header⟩ figureText).lookup? "Figure" = some e ∧
        e.2.isAbstract = true := by
  have hdefinitions : definitions "Figure" (sanitize figureText.toList) =
      [.classBody "" ⟨false, "Figure", .empty⟩ figureBody] := by
    decide +kernel
  have hstrip : stripBodies figureBody = figureBody := stripBodies_eq_self (by decide +kernel)
  have hmembers : ∀ i ∈ definitions "Figure" (sanitize figureText.toList),
      i.Declares [figureArea, figureEquality, figureDestructor] := by
    rw [hdefinitions, List.forall_mem_singleton, Item.Declares, hstrip]
    exact members_figureBody
  obtain ⟨e, he, habstract⟩ := extract_isAbstract_iff {} ⟨⟨"a.h"⟩, .header⟩ figureText
    (by rw [hdefinitions]; exact List.cons_ne_nil _ _) hmembers
  refine ⟨hdefinitions, members_figureBody, e, he, habstract.2 ?_⟩
  exact ⟨_, hdefinitions ▸ List.mem_cons_self, figureArea, List.mem_cons_self, by decide +kernel⟩

/-- A class whose only function is a pure comparison. -/
def equalityBody : List Char :=
  [' '] ++ (Access.everyone.keyword.toList ++ ([] ++ ':' :: ([' '] ++
    (figureEquality.chars ++ ';' :: [' ']))))

/-- An operator that is marked as pure leaves its class concrete. -/
theorem extract_overlooks_pure_operator :
    Members "Figure" equalityBody [figureEquality] ∧ figureEquality.isPure ∧
      stripBodies equalityBody = equalityBody ∧
      ((extract {} ⟨⟨"/p/a.h"⟩, .header⟩ (String.ofList
        ("class Figure \x7b".toList ++ equalityBody ++ "\x7d;".toList))).lookup? "Figure").map
          (·.2.isAbstract) = some false := by
  have hblank : ∀ c ∈ [' '], isBlank c := List.all_eq_true.1 rfl
  refine ⟨.label [' '] .everyone [] _ _ hblank (List.all_eq_true.1 rfl) (by decide +kernel) ?_,
    by decide +kernel, stripBodies_eq_self (by decide +kernel), by decide +kernel⟩
  exact .declaration [' '] figureEquality _ _ hblank readable_figureEquality (by decide +kernel)
    (by decide +kernel) (.done _ hblank)

end Figures

end Definitions

end TestSynth.Header
