import Mathlib
import TestSynth.Proofs.Declaration.Parsing
import TestSynth.Proofs.Text.Squeezing
/-!
How one declaration is cut into parts: what stands before its parameter list, the list with its
arguments, and what follows.
-/
namespace TestSynth.Declaration

open Text

section Assignments

/-- What is known of the open brackets before a character, and whether it may belong to a
comparison. -/
def assignNext (s : Nat × Bool) (c : Char) : Nat × Bool :=
  (if c == '(' || c == '[' || c == '{' || c == '<' then s.1 + 1
    else if c == ')' || c == ']' || c == '}' || c == '>' then s.1 - 1 else s.1,
    c == '=' || c == '!' || c == '<' || c == '>')

def assignStops (s : Nat × Bool) (c : Char) (look : Option Char) : Bool :=
  c == '=' && s.1 == 0 && !(s.2 || look == some '=')

theorem cutAtAssign_eq_cutBy (depth : Nat) (previous : Option Char) (cs : List Char) :
    cutAtAssign depth previous cs = cutBy assignStops assignNext (depth, previous == some '=' ||
      previous == some '!' || previous == some '<' || previous == some '>') cs := by
  induction cs generalizing depth previous with
  | nil => rfl
  | cons c cs ih =>
    rw [cutAtAssign, cutBy]
    simp only [ih]
    rfl

theorem assigns_between_blanks : CutBetweenBlanks assignStops assignNext where
  solid s c look hc := by simp [assignStops, ne_of_holds (d := '=') hc (by decide)]
  look s c d hd := by
    simp [assignStops, beq_eq_false_iff_ne.2 (ne_of_holds (d := '=') hd (by decide))]
  alike s c hc := by
    have hne : ∀ {d}, isBlank d = false → c ≠ d := fun hd => ne_of_holds hc hd
    simp [assignNext, hne (d := '(') (by decide), hne (d := '[') (by decide),
      hne (d := '{') (by decide), hne (d := ')') (by decide), hne (d := ']') (by decide),
      hne (d := '}') (by decide), hne (d := '<') (by decide), hne (d := '>') (by decide),
      hne (d := '=') (by decide), hne (d := '!') (by decide)]
  idle s := by simp [assignNext]

/-- The text before an assignment, up to which the text is read the same whatever is assigned. -/
def Assignable (cs : List Char) : Prop := cutAtAssign 0 none (cs ++ ['=']) = some (cs, [])

instance (cs : List Char) : Decidable (Assignable cs) :=
  inferInstanceAs (Decidable (_ = _))

variable {cs value : List Char}

/-- The assignment is found behind the same text in the entry of a list. -/
theorem Assignable.cutAtAssign_normalizeSpaces (h : Assignable cs)
    (hvalue : value.head? ≠ some '=') :
    cutAtAssign 0 none (normalizeSpaces (cs ++ '=' :: value)) =
      some (trimStart (squeeze cs), trimEnd (squeeze value)) := by
  have hstart : cutAtAssign 0 none (trimStart (squeeze (cs ++ ['=']))) =
      some (trimStart (squeeze cs), []) := by
    rw [Assignable, cutAtAssign_eq_cutBy] at h
    rw [cutAtAssign_eq_cutBy, assigns_between_blanks.cutBy_trimStart rfl,
      cutBy_squeeze assigns_between_blanks, h]
    rfl
  have hlook : ∀ s c, assignStops s c (trimEnd (squeeze value)).head? = assignStops s c none := by
    intro s c
    have hhead : (trimEnd (squeeze value)).head? ≠ some '=' := by
      intro heq
      obtain ⟨rest, hrest⟩ := List.head?_eq_some_iff.1 heq
      obtain ⟨tail, htail⟩ := prefix_dropEndWhile isBlank (squeeze value)
      rw [← trimEnd, hrest] at htail
      have hvalue' : squeeze value = ['='] ++ (rest ++ tail) := htail.symm
      obtain ⟨rest, rfl, -⟩ := squeeze_eq_append (by simp [isBlank]) hvalue'
      exact hvalue rfl
    simp [assignStops, beq_eq_false_iff_ne.2 hhead]
  have hcut := cutBy_append (by rwa [cutAtAssign_eq_cutBy] at hstart) hlook
  have hsolid : isBlank '=' = false := by decide
  rw [squeeze_append cs [] hsolid, trimStart_append_cons hsolid] at hcut
  rw [normalizeSpaces_eq, squeeze_append cs value hsolid, trim_append_cons hsolid,
    cutAtAssign_eq_cutBy]
  simpa using hcut

/-- A parameter is declared by what stands before its default argument. -/
theorem Assignable.entry_eq (h : Assignable cs) {value' : List Char}
    (hvalue : value.head? ≠ some '=') (hvalue' : value'.head? ≠ some '=') :
    parseEntry? (normalizeSpaces (cs ++ '=' :: value)) =
      parseEntry? (normalizeSpaces (cs ++ '=' :: value')) := by
  simp only [ parseEntry?, h.cutAtAssign_normalizeSpaces hvalue,
    h.cutAtAssign_normalizeSpaces hvalue']

end Assignments

section Lists
variable {a b cs rest : List Char} {n : Nesting} {previous : Option Char} {depth k : Nat}
  {opening closing : Char}

/-- A text that a comma behind it is the first to cut. -/
def Sealed (cs : List Char) : Prop := splitTopLevel ',' (cs ++ [',']) = [cs, []]

instance (cs : List Char) : Decidable (Sealed cs) := inferInstanceAs (Decidable (_ = _))

/-- A text that a bracket behind it is the first to close. -/
def Enclosed (opening closing : Char) (cs : List Char) : Prop :=
  splitGroup opening closing 0 (cs ++ [closing]) = some (cs, [])

instance (opening closing : Char) (cs : List Char) : Decidable (Enclosed opening closing cs) :=
  inferInstanceAs (Decidable (_ = _))

theorem consFirst_eq_cons_iff {c : Char} {p : List Char} {ps qs : List (List Char)} (h : qs ≠ []) :
    consFirst c qs = (c :: p) :: ps ↔ qs = p :: ps := by
  obtain ⟨q, qs, rfl⟩ := List.exists_cons_of_ne_nil h
  simp [consFirst]

/-- What follows a sealed text is read outside all groups. -/
theorem splitTopLevelFrom_sealed
    (h : splitTopLevelFrom (· == ',') n previous (cs ++ [',']) = [cs, []]) (rest : List Char) :
    splitTopLevelFrom (· == ',') n previous (cs ++ rest) =
      cs.foldr consFirst (splitTopLevelFrom (· == ',') {} (cs.getLast?.or previous) rest) := by
  induction cs generalizing n previous with
  | nil =>
    have hclosed : n = {} := by
      rw [List.nil_append, splitTopLevelFrom, bracket?_comma] at h
      simp only [beq_self_eq_true, Bool.true_and] at h
      split at h
      · next hclosed => 
        cases n
        simp_all [Nesting.isClosed]
      · cases h
    subst hclosed
    rfl
  | cons c cs ih =>
    rw [List.cons_append, splitTopLevelFrom] at h
    rw [List.cons_append, splitTopLevelFrom, List.foldr_cons, getLast?_cons_or]
    split at h
    · rw [consFirst_eq_cons_iff (splitTopLevelFrom_ne_nil _ _ _ _)] at h
      exact congrArg (consFirst c) (ih h)
    · split at h
      · cases h
      · next hsep =>
        rw [consFirst_eq_cons_iff (splitTopLevelFrom_ne_nil _ _ _ _)] at h
        rw [if_neg hsep, ih h]

theorem Sealed.append (ha : Sealed a)
    (hb : splitTopLevelFrom (· == ',') {} a.getLast? (b ++ [',']) = [b, []]) : Sealed (a ++ b) := by
  rw [Sealed, splitTopLevel, List.append_assoc, splitTopLevelFrom_sealed ha, Option.or_none, hb,
    foldr_consFirst_cons]

theorem splitTopLevelFrom_blanks (hb : ∀ c ∈ b, isBlank c) (n : Nesting)
    (previous : Option Char) (cs : List Char) :
    splitTopLevelFrom (· == ',') n previous (b ++ ',' :: cs) =
      b.foldr consFirst (splitTopLevelFrom (· == ',') n none (',' :: cs)) := by
  induction b generalizing previous with
  | nil => rfl
  | cons c b ih =>
    rw [List.forall_mem_cons] at hb
    rw [List.cons_append, splitTopLevelFrom_blank hb.1, ih hb.2, List.foldr_cons]

theorem Sealed.append_blanks (ha : Sealed a) (hb : ∀ c ∈ b, isBlank c) : Sealed (a ++ b) := by
  refine ha.append ?_
  rw [splitTopLevelFrom_blanks hb]
  exact foldr_consFirst

/-- A character that is no bracket, no comma and no part of an arrow. -/
theorem Sealed.append_cons (ha : Sealed a) (hb : Sealed b) {c : Char} (hc : isPlain c) :
    Sealed (a ++ c :: b) := by
  have hcomma := ne_of_holds (d := ',') hc (by decide)
  have harrow := ne_of_holds (d := '-') hc (by decide)
  have hrest : splitTopLevelFrom (· == ',') {} (some c) (b ++ [',']) = [b, []] := by
    rw [splitTopLevelFrom_previous (by simpa using harrow)]
    exact hb
  refine ha.append ?_
  rw [List.cons_append, splitTopLevelFrom, bracket?_of_isPlain hc, if_neg (by simp [hcomma]), hrest,
    consFirst]

/-- Sealed texts with commas between them are the pieces of the whole. -/
theorem splitTopLevel_joinWith_sealed {ts : List (List Char)} (hne : ts ≠ [])
    (h : ∀ t ∈ ts, Sealed t) : splitTopLevel ',' (joinWith [','] ts) = ts := by
  have hcomma : ∀ {previous} cs, splitTopLevelFrom (· == ',') {} previous (',' :: cs) =
      [] :: splitTopLevel ',' cs := fun {previous} cs => by
    rw [splitTopLevelFrom, bracket?_comma, if_pos (by decide), splitTopLevelFrom_previous (by decide),
      splitTopLevel]
  induction ts with
  | nil => exact absurd rfl hne
  | cons t ts ih =>
    rw [List.forall_mem_cons] at h
    cases ts with
    | nil =>
      have hend := splitTopLevelFrom_sealed h.1 []
      rw [List.append_nil, splitTopLevelFrom, foldr_consFirst] at hend
      exact hend
    | cons u ts =>
      have hrest := ih (List.cons_ne_nil _ _) h.2
      rw [joinWith, List.append_assoc, List.singleton_append, splitTopLevel,
        splitTopLevelFrom_sealed h.1, hcomma, hrest, foldr_consFirst]
      exact List.cons_ne_nil _ _

/-- A reader of groups passes over an enclosed text. -/
theorem splitGroup_enclosed (hne : opening ≠ closing)
    (h : splitGroup opening closing k (cs ++ [closing]) = some (cs, [])) (rest : List Char) :
    splitGroup opening closing (depth + k) (cs ++ rest) =
      (splitGroup opening closing depth rest).map fun cut => (cs ++ cut.1, cut.2) := by
  have hcons : ∀ {d c} {ds : List Char},
      (splitGroup opening closing d (ds ++ [closing])).map (consInside c) = some (c :: ds, []) →
        splitGroup opening closing d (ds ++ [closing]) = some (ds, []) := fun {d c ds} heq => by
    obtain ⟨⟨i, a⟩, hcut, hpair⟩ := Option.map_eq_some_iff.1 heq
    rw [hcut]
    simpa [consInside] using hpair
  have hmap : ∀ {c : Char} {ds : List Char} {o : Option (List Char × List Char)},
      (o.map fun cut => (ds ++ cut.1, cut.2)).map (consInside c) =
        o.map fun cut => (c :: ds ++ cut.1, cut.2) := fun {c ds o} => by
    rw [Option.map_map]
    rfl
  induction cs generalizing k with
  | nil =>
    cases k with
    | zero => simp
    | succ k => simp [splitGroup, hne.symm] at h
  | cons c cs ih =>
    rw [List.cons_append] at h ⊢
    rcases eq_or_ne c opening with rfl | hopen
    · rw [splitGroup_cons_open] at h ⊢
      rw [Nat.add_assoc, ih (hcons h), hmap]
    · rcases eq_or_ne c closing with rfl | hclose
      · cases k with
        | zero => simp [splitGroup, hopen] at h
        | succ k =>
          rw [← Nat.add_assoc, splitGroup_cons_close hne,
            ih (hcons (splitGroup_cons_close hne ▸ h)), hmap]
      · rw [splitGroup_cons_other hopen hclose] at h ⊢
        rw [ih (hcons h), hmap]

theorem Enclosed.append_cons (hne : opening ≠ closing) (ha : Enclosed opening closing a)
    (hb : Enclosed opening closing b) {c : Char} (hopen : c ≠ opening) (hclose : c ≠ closing) :
    Enclosed opening closing (a ++ c :: b) := by
  rw [Enclosed, List.append_assoc, List.cons_append, ← Nat.zero_add 0, splitGroup_enclosed hne ha,
    splitGroup, if_neg (by simpa using hopen), if_neg (by simpa using hclose), hb]
  rfl

theorem Enclosed.append_blanks (hopen : isBlank opening = false) (hclose : isBlank closing = false)
    (hne : opening ≠ closing) (ha : Enclosed opening closing a) (hb : ∀ c ∈ b, isBlank c) :
    Enclosed opening closing (a ++ b) := by
  have hblanks : splitGroup opening closing 0 (b ++ closing :: []) = some (b, []) :=
    splitGroup_close
      (fun c hc => ⟨ne_of_holds (hb c hc) hopen, ne_of_holds (hb c hc) hclose⟩) hne
  rw [Enclosed, List.append_assoc, ← Nat.zero_add 0, splitGroup_enclosed hne ha, hblanks]
  rfl

end Lists

section Entries
variable {a b cs : List Char}

/-- Blanks at the end belong to the last piece. -/
theorem splitTopLevelFrom_append_blanks (hb : ∀ c ∈ b, isBlank c) (n : Nesting)
    (previous : Option Char) (cs : List Char) :
    ∃ q qs tail ps, splitTopLevelFrom (· == ',') n previous cs = q :: qs ∧
      splitTopLevelFrom (· == ',') n previous (cs ++ b) = (q ++ tail) :: ps ∧
      (∀ c ∈ tail, isBlank c) ∧ ps.map words = qs.map words := by
  induction cs generalizing n previous with
  | nil =>
    have hblanks : ∀ previous, splitTopLevelFrom (· == ',') n previous b = [b] := by
      induction b with
      | nil => exact fun _ => rfl
      | cons c b ih =>
        rw [List.forall_mem_cons] at hb
        intro previous
        rw [splitTopLevelFrom_blank hb.1, ih hb.2, consFirst]
    exact ⟨[], [], b, [], rfl, hblanks previous, hb, rfl⟩
  | cons c cs ih =>
    have hfirst : ∀ m, ∃ q qs tail ps,
        consFirst c (splitTopLevelFrom (· == ',') m (some c) cs) = q :: qs ∧
        consFirst c (splitTopLevelFrom (· == ',') m (some c) (cs ++ b)) = (q ++ tail) :: ps ∧
        (∀ c ∈ tail, isBlank c) ∧ ps.map words = qs.map words := fun m => by
      obtain ⟨q, qs, tail, ps, hq, hp, htail, hwords⟩ := ih m (some c)
      exact ⟨c :: q, qs, tail, ps, by rw [hq, consFirst], by rw [hp, consFirst]; rfl, htail, hwords⟩
    rw [List.cons_append, splitTopLevelFrom, splitTopLevelFrom]
    split
    · next m _ => exact hfirst m
    · split
      · obtain ⟨q, qs, tail, ps, hq, hp, htail, hwords⟩ := ih n (some c)
        refine ⟨[], q :: qs, [], (q ++ tail) :: ps, by rw [hq], by rw [hp]; rfl, by simp, ?_⟩
        rw [List.map_cons, List.map_cons, words_append_blanks htail, hwords]
      · exact hfirst n

/-- The words of the pieces of a list, whatever blanks stand around it. -/
theorem map_words_splitTopLevel_trim (cs : List Char) :
    (splitTopLevel ',' (trim cs)).map words = (splitTopLevel ',' cs).map words := by
  have hstart : ∀ cs, (splitTopLevel ',' (trimStart cs)).map words =
      (splitTopLevel ',' cs).map words := fun cs => by
    induction cs with
    | nil => rfl
    | cons c cs ih =>
      rw [trimStart, List.dropWhile_cons]
      split
      · next hc =>
        obtain ⟨q, qs, hq, -⟩ := splitTopLevelFrom_head {} none cs
        rw [← trimStart, ih, splitTopLevel, splitTopLevel, splitTopLevelFrom_blank hc, hq,
          consFirst, List.map_cons, List.map_cons, words_cons hc]
      · rfl
  have hend : ∀ cs, (splitTopLevel ',' (trimEnd cs)).map words =
      (splitTopLevel ',' cs).map words := fun cs => by
    obtain ⟨tail, hsplit, htail, -⟩ := dropEndWhile_split isBlank cs
    obtain ⟨q, qs, end', ps, hq, hp, hend, hwords⟩ :=
      splitTopLevelFrom_append_blanks htail {} none (trimEnd cs)
    rw [trimEnd, ← hsplit] at hp
    rw [splitTopLevel, splitTopLevel, hp, hq, List.map_cons, List.map_cons,
      words_append_blanks hend, hwords]
  rw [trim, hend, hstart]

/-- The entries of a list, without surplus blanks. -/
def entries (cs : List Char) : List (List Char) :=
  ((splitTopLevel ',' cs).map normalizeSpaces).filter (!·.isEmpty)

/-- No parameters, or the word for none. -/
def isVoid (cs : List Char) : Bool := (trim cs).isEmpty || trim cs == "void".toList

def isEllipsis (e : List Char) : Bool := containsText ['.', '.', '.'] e

/-- The parameters of entries, and whether one is an ellipsis. -/
def parseEntries? (es : List (List Char)) : Option (List Parameter × Bool) :=
  ((es.filter (!isEllipsis ·)).mapM parseEntry?).map (·, es.any isEllipsis)

theorem entries_trim (cs : List Char) : entries (trim cs) = entries cs := by
  have hnormal : ∀ ds, (splitTopLevel ',' ds).map normalizeSpaces =
      ((splitTopLevel ',' ds).map words).map (joinWith [' ']) := fun ds => by
    rw [List.map_map]
    rfl
  rw [entries, entries, hnormal, hnormal, map_words_splitTopLevel_trim]

theorem parseParameters?_eq (cs : List Char) : parseParameters? cs =
    if isVoid cs then some ([], false) else parseEntries? (entries cs) := by
  rw [← entries_trim]
  rfl

/-- A parameter list is read the same however its blanks are laid out. -/
theorem parseParameters?_squeeze (cs : List Char) :
    parseParameters? (squeeze cs) = parseParameters? cs := by
  have hvoid : isVoid (squeeze cs) = isVoid cs := by
    have hword : squeeze (trim cs) = "void".toList ↔ trim cs = "void".toList := by
      have hsolid : ∀ c ∈ "void".toList, isBlank c = false := by simp [isBlank]
      constructor
      · intro h
        have hend : squeeze (trim cs) = "void".toList ++ [] := by rw [h, List.append_nil]
        obtain ⟨rest, hrest, hnil⟩ := squeeze_eq_append hsolid hend
        rw [hrest, squeeze_eq_nil_iff.1 hnil, List.append_nil]
      · intro h
        rw [h, squeeze_eq_self hsolid]
    rw [Bool.eq_iff_iff]
    simp only [isVoid, trim_squeeze, Bool.or_eq_true, List.isEmpty_iff, squeeze_eq_nil_iff,
      beq_iff_eq, hword]
  have hnormal : ∀ ds, normalizeSpaces (squeeze ds) = normalizeSpaces ds := fun ds => by
    rw [normalizeSpaces, normalizeSpaces, words_squeeze]
  have hentries : entries (squeeze cs) = entries cs := by
    simp only [entries, splitTopLevel, splitTopLevelFrom_squeeze, List.map_map, Function.comp_def,
      hnormal]
  rw [parseParameters?_eq, parseParameters?_eq, hvoid, hentries]

/-- Entries that are read alike. -/
structure Alike (e f : List Char) : Prop where
  empty : e.isEmpty = f.isEmpty
  ellipsis : isEllipsis e = isEllipsis f
  parameter : parseEntry? e = parseEntry? f

theorem parseEntries?_congr {es fs : List (List Char)} (h : List.Forall₂ Alike es fs) :
    parseEntries? (es.filter (!·.isEmpty)) = parseEntries? (fs.filter (!·.isEmpty)) := by
  have hboth : ((es.filter (!·.isEmpty)).filter (!isEllipsis ·)).mapM parseEntry? =
        ((fs.filter (!·.isEmpty)).filter (!isEllipsis ·)).mapM parseEntry? ∧
      (es.filter (!·.isEmpty)).any isEllipsis = (fs.filter (!·.isEmpty)).any isEllipsis := by
    induction h with
    | nil => exact ⟨rfl, rfl⟩
    | @cons e f es fs h _ ih =>
      obtain ⟨hparameters, hany⟩ := ih
      rw [List.filter_cons, List.filter_cons, h.empty]
      split
      · rw [List.filter_cons, List.filter_cons, List.any_cons, List.any_cons, h.ellipsis, hany]
        refine ⟨?_, rfl⟩
        split
        · rw [List.mapM_cons, List.mapM_cons, h.parameter, hparameters]
        · exact hparameters
      · exact ⟨hparameters, hany⟩
  rw [parseEntries?, parseEntries?, hboth.1, hboth.2]

end Entries

section Parts
variable {owner : Option String} {access : Access} {before list suffix rest cs : List Char}

/-- No attribute starts in the text. -/
def Unattributed (cs : List Char) : Prop := ¬ ['[', '['] <:+: cs

instance (cs : List Char) : Decidable (Unattributed cs) := inferInstanceAs (Decidable (¬ _))

theorem Unattributed.append_cons {a b : List Char} {c : Char} (ha : Unattributed a) (hc : c ≠ '[')
    (hb : Unattributed b) : Unattributed (a ++ c :: b) := by
  rw [Unattributed, infix_append_cons (by simpa using hc) (by simp), not_or]
  exact ⟨ha, hb⟩

theorem Unattributed.stripAttributes_eq (h : Unattributed cs) : stripAttributes cs = cs := by
  have hcut : cutAt ['[', '['] cs = none := by
    rw [Unattributed, ← containsText_iff, containsText] at h
    simpa using h
  rw [stripAttributes]
  cases cs.length with
  | zero => rfl
  | succ n => rw [stripAttributes.go, hcut]

theorem Unattributed.normalizeSpaces (h : Unattributed cs) : Unattributed (normalizeSpaces cs) := by
  have hsolid : ∀ c ∈ ['[', '['], isBlank c = false := by simp [isBlank]
  rwa [Unattributed, normalizeSpaces_eq, infix_trim hsolid (by simp),
    infix_squeeze hsolid (by simp)]

/-- The text as it is classified: without the marks of a label or a list in front. -/
def core (cs : List Char) : List Char :=
  trimStart ((trimStart (squeeze cs)).dropWhile fun c => c == ',' || c == ':')

theorem core_append_cons {c : Char} (hblank : isBlank c = false) (hcomma : c ≠ ',')
    (hcolon : c ≠ ':') (a b : List Char) : core (a ++ c :: b) = core a ++ c :: squeeze b := by
  have hdrop : ∀ a b : List Char, (a ++ c :: b).dropWhile (fun c => c == ',' || c == ':') =
      a.dropWhile (fun c => c == ',' || c == ':') ++ c :: b := fun a b => by
    induction a with
    | nil => simp [hcomma, hcolon]
    | cons d a ih =>
      rw [List.cons_append, List.dropWhile_cons, List.dropWhile_cons]
      split
      · exact ih
      · rfl
  rw [core, core, squeeze_append a b hblank, trimStart_append_cons hblank, hdrop,
    trimStart_append_cons hblank]

theorem parse_blanks_append (owner : Option String) (access : Access) (cs : List Char)
    {lead : List Char} (h : ∀ c ∈ lead, isBlank c) :
    parse owner access (lead ++ cs) = parse owner access cs := by
  rw [parse, normalizeSpaces, words_blanks_append h]
  rfl

/-- What one declaration is, by its text without the blanks at its ends. -/
theorem parse_eq (h : Unattributed cs) : parse owner access cs =
    if (trimEnd (core cs)).isEmpty ||
      skippedWords.contains (String.ofList ((trimEnd (core cs)).takeWhile isWord)) then .skip
    else match cutAtParen 0 none (trimEnd (core cs)) with
      | none => parseVariable (trimEnd (core cs))
      | some (before, rest) =>
        if (tokens before).contains "operator".toList then .skip
        else if (cutAtAssign 0 none before).isSome then parseVariable (trimEnd (core cs))
        else match splitGroup '(' ')' 0 rest with
          | none => .skip
          | some (parameters, after) => parseFunction owner access before parameters after := by
  have hmark : ∀ tail : List Char, (∀ c ∈ tail, isBlank c) →
      tail.dropWhile (fun c => c == ',' || c == ':') = tail := fun tail htail => by
    cases tail with
    | nil => rfl
    | cons c tail =>
      have hc := htail c List.mem_cons_self
      rw [List.dropWhile_cons_of_neg]
      simp [ne_of_holds (d := ',') hc (by decide), ne_of_holds (d := ':') hc (by decide)]
  have htext : trim ((trim (stripAttributes (normalizeSpaces cs))).dropWhile
      fun c => c == ',' || c == ':') = trimEnd (core cs) := by
    obtain ⟨tail, hsplit, htail, -⟩ := dropEndWhile_split isBlank (trimStart (squeeze cs))
    rw [← trimEnd, ← trim] at hsplit
    rw [h.normalizeSpaces.stripAttributes_eq, normalizeSpaces_eq, trim_trim, core, ← trim]
    conv_rhs => rw [hsplit, List.dropWhile_append, hmark tail htail]
    split
    · next hnil =>
      rw [List.isEmpty_iff] at hnil
      rw [hnil, trim_eq_nil htail]
      rfl
    · rw [trim_append_blanks htail]
  rw [parse]
  exact htext ▸ rfl

theorem cutAtParen_core (cs : List Char) : cutAtParen 0 none (core cs) =
    (cutAtParen 0 none cs).map fun cut => (core cut.1, squeeze cut.2) := by
  have hmark : ∀ c look, (c == ',' || c == ':') = true →
      parenStops (0, false) c look = false ∧ parenNext (0, false) c = (0, false) := by
    intro c look hc
    rw [Bool.or_eq_true, beq_iff_eq, beq_iff_eq] at hc
    rcases hc with rfl | rfl <;> exact ⟨rfl, rfl⟩
  have hnone : ((none : Option Char) == some '-') = false := rfl
  rw [cutAtParen_eq_cutBy, cutAtParen_eq_cutBy, hnone, core,
    parens_between_blanks.cutBy_trimStart rfl, cutBy_dropWhile hmark,
    parens_between_blanks.cutBy_trimStart rfl, cutBy_squeeze parens_between_blanks]
  simp only [Option.map_map]
  rfl

/-- A text whose first parenthesis outside angle brackets would be one right behind it. -/
def Fronting (cs : List Char) : Prop := cutAtParen 0 none (cs ++ ['(']) = some (cs, [])

instance (cs : List Char) : Decidable (Fronting cs) := inferInstanceAs (Decidable (_ = _))

theorem Fronting.cutAtParen_core (h : Fronting before) (rest : List Char) :
    cutAtParen 0 none (core before ++ '(' :: rest) = some (core before, rest) := by
  have hcore : cutAtParen 0 none (core before ++ ['(']) = some (core before, []) := by
    have hcut := Declaration.cutAtParen_core (before ++ ['('])
    rwa [h, core_append_cons (by decide) (by decide) (by decide)] at hcut
  rw [cutAtParen_eq_cutBy] at hcore ⊢
  have hlook : ∀ s c, parenStops s c rest.head? = parenStops s c none := fun _ _ => rfl
  have hcut := cutBy_append hcore hlook
  rwa [List.append_assoc] at hcut

/-- What is not looked at any further. -/
def isSkipped (before : List Char) : Bool :=
  skippedWords.contains (String.ofList ((core before).takeWhile isWord)) ||
    (tokens (core before)).contains "operator".toList

/-- A declaration with a parameter list is read by what stands before the list, in it and behind. -/
theorem parse_paren (hfront : Fronting before)
    (hattributes : Unattributed (before ++ '(' :: rest)) :
    parse owner access (before ++ '(' :: rest) =
      if isSkipped before then .skip
      else if (cutAtAssign 0 none (core before)).isSome then
        parseVariable (core before ++ '(' :: trimEnd (squeeze rest))
      else match splitGroup '(' ')' 0 (trimEnd (squeeze rest)) with
        | none => .skip
        | some (parameters, after) =>
          parseFunction owner access (core before) parameters after := by
  have hcore : trimEnd (core (before ++ '(' :: rest)) =
      core before ++ '(' :: trimEnd (squeeze rest) := by
    rw [core_append_cons (by decide) (by decide) (by decide), trimEnd_append_cons (by decide)]
  have hword : (core before ++ '(' :: trimEnd (squeeze rest)).takeWhile isWord =
      (core before).takeWhile isWord := takeWhile_append_of_head (by simp [isWord])
  have hempty : (core before ++ '(' :: trimEnd (squeeze rest)).isEmpty = false := by simp
  rw [parse_eq hattributes, hcore, hword, hempty, Bool.false_or, hfront.cutAtParen_core]
  simp only [isSkipped, Bool.or_eq_true]
  by_cases hskip : skippedWords.contains (String.ofList ((core before).takeWhile isWord)) = true
  · rw [if_pos hskip, if_pos (.inl hskip)]
  · by_cases hoperator : (tokens (core before)).contains "operator".toList = true
    · rw [if_neg hskip, if_pos hoperator, if_pos (.inr hoperator)]
    · rw [if_neg hskip, if_neg hoperator, if_neg (not_or.2 ⟨hskip, hoperator⟩)]

theorem enclosed_squeeze {opening closing : Char} (hopen : isBlank opening = false)
    (hclose : isBlank closing = false) (hne : opening ≠ closing) (h : Enclosed opening closing cs) :
    Enclosed opening closing (squeeze cs) := by
  have hcut := splitGroup_squeeze hopen hclose hne 0 (cs ++ [closing])
  rwa [h, squeeze_append cs [] hclose] at hcut

/-- The list in parentheses and what follows it. -/
theorem Enclosed.splitGroup_eq (h : Enclosed '(' ')' list) (suffix : List Char) :
    splitGroup '(' ')' 0 (trimEnd (squeeze (list ++ ')' :: suffix))) =
      some (squeeze list, trimEnd (squeeze suffix)) := by
  have hlist : Enclosed '(' ')' (squeeze list) :=
    enclosed_squeeze (by decide) (by decide) (by decide) h
  rw [squeeze_append list suffix (by decide), trimEnd_append_cons (by decide), ← Nat.zero_add 0,
    splitGroup_enclosed (by decide) hlist]
  simp [splitGroup]

theorem mem_of_mem_core {c : Char} (hc : isBlank c = false) (h : c ∈ core cs) : c ∈ cs := by
  rw [← mem_squeeze hc]
  exact (List.dropWhile_suffix _).subset
    ((List.dropWhile_suffix _).subset ((List.dropWhile_suffix _).subset h))

/-- The last character that matters in a text is the last one of the text. -/
theorem getLast?_core {q : Char → Bool} (hq : ∀ c, isBlank c → q c = false) {cs : List Char}
    (h : ∀ c ∈ cs.getLast?, q c = false) : ∀ c ∈ (core cs).getLast?, q c = false := by
  intro c hc
  have hsuffix : core cs <:+ squeeze cs :=
    (List.dropWhile_suffix _).trans ((List.dropWhile_suffix _).trans (List.dropWhile_suffix _))
  have hlast : (squeeze cs).getLast? = some c := by
    obtain ⟨lead, hlead⟩ := hsuffix
    rw [← hlead, List.getLast?_append, Option.mem_def.1 hc]
    rfl
  rw [getLast?_squeeze, Option.map_eq_some_iff] at hlast
  obtain ⟨d, hd, rfl⟩ := hlast
  split
  · exact hq ' ' isBlank_space
  · exact h d hd

theorem cutAtAssign_core (h : '=' ∉ cs) : cutAtAssign 0 none (core cs) = none :=
  cutAtAssign_eq_none fun hmem => h (mem_of_mem_core (by decide) hmem)

/-- A declaration whose list is closed is a function, if it is looked at any further. -/
theorem parse_closed (hfront : Fronting before) (hassign : isSkipped before = false → '=' ∉ before)
    (hlist : Enclosed '(' ')' list)
    (hattributes : Unattributed (before ++ '(' :: (list ++ ')' :: suffix))) :
    parse owner access (before ++ '(' :: (list ++ ')' :: suffix)) =
      if isSkipped before then .skip
      else parseFunction owner access (core before) (squeeze list) (trimEnd (squeeze suffix)) := by
  rw [parse_paren hfront hattributes, hlist.splitGroup_eq]
  cases hskip : isSkipped before with
  | true => rfl
  | false =>
    rw [cutAtAssign_core (hassign hskip)]
    rfl

theorem parseFunction_congr {list' : List Char}
    (hstart : (trimStart list).head? = (trimStart list').head?)
    (hlist : parseParameters? list = parseParameters? list') :
    parseFunction owner access before list suffix =
      parseFunction owner access before list' suffix := by
  simp only [parseFunction, hstart, hlist]

end Parts

end TestSynth.Declaration
