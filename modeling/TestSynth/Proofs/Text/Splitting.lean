import Mathlib
import TestSynth.Proofs.Text.Bytes
import TestSynth.Proofs.Text.Nesting
/-!
Cuts at separators outside all groups lose nothing and leave pieces that are not cut again, however
the brackets of a text stand. Where every bracket is closed in its turn, the cuts are the separators
that no group spans.
-/
namespace TestSynth.Text

variable {sep c : Char} {p : Char → Bool} {n m : Nesting} {previous : Option Char}
  {a b cs before after piece : List Char} {pieces rest : List (List Char)}

section Pieces

/-- One step of the cutting: either a piece ends here, at a separator outside all groups, or the
character goes to the first piece of what follows. -/
theorem splitTopLevelFrom_cons (p : Char → Bool) (n : Nesting) (previous : Option Char) (c : Char)
    (cs : List Char) :
    (n.bracket? previous c = none ∧ p c ∧ n.isClosed ∧
      splitTopLevelFrom p n previous (c :: cs) = [] :: splitTopLevelFrom p n (some c) cs) ∨
    ((n.bracket? previous c = none → p c → n.isClosed = false) ∧
      splitTopLevelFrom p n previous (c :: cs) =
        consFirst c (splitTopLevelFrom p ((n.bracket? previous c).getD n) (some c) cs)) := by
  rw [splitTopLevelFrom]
  cases hbracket : n.bracket? previous c with
  | some n' => simp
  | none =>
    by_cases hcut : (p c && n.isClosed) = true
    · rw [Bool.and_eq_true] at hcut
      simp [hcut]
    · right
      simp only [hcut, Bool.false_eq_true, if_false, Option.getD_none, and_true, true_implies]
      intro hp
      simpa [hp] using hcut

theorem joinWith_consFirst (h : pieces ≠ []) :
    joinWith [sep] (consFirst c pieces) = c :: joinWith [sep] pieces := by
  obtain ⟨first, rest, rfl⟩ := List.exists_cons_of_ne_nil h
  exact joinWith_cons_cons

theorem joinWith_cons (h : pieces ≠ []) :
    joinWith [sep] (piece :: pieces) = piece ++ sep :: joinWith [sep] pieces := by
  obtain ⟨first, rest, rfl⟩ := List.exists_cons_of_ne_nil h
  simp [joinWith]

/-- The pieces, joined again, are the text. -/
theorem joinWith_splitTopLevelFrom (hp : ∀ c, p c → c = sep) (n : Nesting)
    (previous : Option Char) (cs : List Char) :
    joinWith [sep] (splitTopLevelFrom p n previous cs) = cs := by
  induction cs generalizing n previous with
  | nil => rfl
  | cons c cs ih =>
    rcases splitTopLevelFrom_cons p n previous c cs with ⟨-, hsep, -, hcut⟩ | ⟨-, hcut⟩
    · rw [hcut, joinWith_cons (splitTopLevelFrom_ne_nil _ _ _ _), ih, hp c hsep, List.nil_append]
    · rw [hcut, joinWith_consFirst (splitTopLevelFrom_ne_nil _ _ _ _), ih]

/-- Outside all groups the character before the text does not matter: a closing angle bracket
closes nothing there, be it of an arrow or not. -/
theorem splitTopLevelFrom_closed (hclosed : n.isClosed) (cs : List Char) :
    splitTopLevelFrom p n previous cs = splitTopLevelFrom p {} none cs := by
  obtain ⟨depth, angles⟩ := n
  obtain ⟨rfl, rfl⟩ : depth = 0 ∧ angles = 0 := by simpa [Nesting.isClosed] using hclosed
  cases cs with
  | nil => rfl
  | cons c cs =>
    have hbracket : Nesting.bracket? {} previous c = Nesting.bracket? {} none c := by
      by_cases hdash : previous = some '-'
      · simp [Nesting.bracket?, hdash]
      · simp [Nesting.bracket?, hdash]
    rw [splitTopLevelFrom, splitTopLevelFrom, hbracket]

/-- The first piece is not cut again behind the same brackets, and the others are not cut again at
all. -/
theorem splitTopLevelFrom_pieces (p : Char → Bool) (n : Nesting) (previous : Option Char)
    (cs : List Char) :
    ∃ first rest, splitTopLevelFrom p n previous cs = first :: rest ∧
      splitTopLevelFrom p n previous first = [first] ∧
      ∀ piece ∈ rest, splitTopLevelFrom p {} none piece = [piece] := by
  induction cs generalizing n previous with
  | nil => exact ⟨[], [], rfl, rfl, by simp⟩
  | cons c cs ih =>
    rcases splitTopLevelFrom_cons p n previous c cs with ⟨-, -, hclosed, hcut⟩ | ⟨hstays, hcut⟩
    · obtain ⟨first, rest, hsplit, hfirst, hrest⟩ := ih n (some c)
      rw [splitTopLevelFrom_closed hclosed] at hfirst
      refine ⟨[], first :: rest, by rw [hcut, hsplit], rfl, ?_⟩
      exact List.forall_mem_cons.2 ⟨hfirst, hrest⟩
    · obtain ⟨first, rest, hsplit, hfirst, hrest⟩ := ih ((n.bracket? previous c).getD n) (some c)
      refine ⟨c :: first, rest, by rw [hcut, hsplit, consFirst], ?_, hrest⟩
      rcases splitTopLevelFrom_cons p n previous c first with ⟨hbracket, hsep, hclosed, -⟩ | ⟨-, h⟩
      · rw [hstays hbracket hsep] at hclosed
        cases hclosed
      · rw [h, hfirst, consFirst]

theorem splitTopLevelFrom_of_mem (h : piece ∈ splitTopLevelFrom p {} none cs) :
    splitTopLevelFrom p {} none piece = [piece] := by
  obtain ⟨first, rest, hsplit, hfirst, hrest⟩ := splitTopLevelFrom_pieces p {} none cs
  rw [hsplit, List.mem_cons] at h
  rcases h with rfl | h
  · exact hfirst
  · exact hrest piece h

end Pieces

section Boundaries

/-- The groups that are open behind a text. -/
def Nesting.behind : Nesting → Option Char → List Char → Nesting
  | n, _, [] => n
  | n, previous, c :: cs => ((n.bracket? previous c).getD n).behind (some c) cs

theorem Nesting.behind_append (n : Nesting) (previous : Option Char) (a b : List Char) :
    n.behind previous (a ++ b) = (n.behind previous a).behind (a.getLast?.or previous) b := by
  induction a generalizing n previous with
  | nil => rfl
  | cons c a ih => rw [List.cons_append, behind, behind, ih, getLast?_cons_or]

/-- The pieces before and behind one of the separators between them. -/
def PartedAt (sep : Char) (pieces : List (List Char)) (before after : List Char) : Prop :=
  ∃ front back, pieces = front ++ back ∧ front ≠ [] ∧ back ≠ [] ∧
    joinWith [sep] front = before ∧ joinWith [sep] back = after

theorem partedAt_nil_cons (h : rest ≠ []) :
    PartedAt sep ([] :: rest) before after ↔
      before = [] ∧ joinWith [sep] rest = after ∨
        ∃ tail, before = sep :: tail ∧ PartedAt sep rest tail after := by
  constructor
  · rintro ⟨front, back, hpieces, hfront, hback, rfl, rfl⟩
    obtain ⟨first, front, rfl⟩ := List.exists_cons_of_ne_nil hfront
    obtain ⟨rfl, rfl⟩ := List.cons.inj hpieces
    cases front with
    | nil => exact .inl ⟨rfl, rfl⟩
    | cons second front =>
      right
      refine ⟨joinWith [sep] (second :: front), joinWith_cons (by simp), ?_⟩
      exact ⟨second :: front, back, rfl, by simp, hback, rfl, rfl⟩
  · rintro (⟨rfl, rfl⟩ | ⟨tail, rfl, front, back, rfl, hfront, hback, rfl, rfl⟩)
    · exact ⟨[[]], rest, rfl, by simp, h, rfl, rfl⟩
    · exact ⟨[] :: front, back, rfl, by simp, hback, joinWith_cons hfront, rfl⟩

theorem partedAt_consFirst (h : rest ≠ []) :
    PartedAt sep (consFirst c rest) before after ↔
      ∃ tail, before = c :: tail ∧ PartedAt sep rest tail after := by
  obtain ⟨piece, rest, rfl⟩ := List.exists_cons_of_ne_nil h
  constructor
  · rintro ⟨front, back, hpieces, hfront, hback, rfl, rfl⟩
    obtain ⟨first, front, rfl⟩ := List.exists_cons_of_ne_nil hfront
    obtain ⟨rfl, rfl⟩ := List.cons.inj hpieces
    refine ⟨joinWith [sep] (piece :: front), joinWith_cons_cons, ?_⟩
    exact ⟨piece :: front, back, rfl, by simp, hback, rfl, rfl⟩
  · rintro ⟨tail, rfl, front, back, hpieces, hfront, hback, rfl, rfl⟩
    obtain ⟨first, front, rfl⟩ := List.exists_cons_of_ne_nil hfront
    obtain ⟨rfl, rfl⟩ := List.cons.inj hpieces
    exact ⟨(c :: piece) :: front, back, rfl, by simp, hback, joinWith_cons_cons, rfl⟩

/-- In any text, the cuts are the separators behind which as many brackets are closed as opened. -/
theorem partedAt_splitTopLevelFrom (hp : ∀ c, p c ↔ c = sep) (hsep : sep ∉ brackets) :
    PartedAt sep (splitTopLevelFrom p n previous cs) before after ↔
      cs = before ++ sep :: after ∧ (n.behind previous before).isClosed := by
  induction cs generalizing n previous before with
  | nil =>
    constructor
    · rintro ⟨front, back, hpieces, hfront, hback, -, -⟩
      have hlength := congrArg List.length hpieces
      have hpos := List.length_pos_iff.2 hfront
      have hpos' := List.length_pos_iff.2 hback
      simp only [splitTopLevelFrom, List.length_singleton, List.length_append] at hlength
      omega
    · simp
  | cons c cs ih =>
    rcases splitTopLevelFrom_cons p n previous c cs with
      ⟨hbracket, hc, hclosed, hcut⟩ | ⟨hstays, hcut⟩
    · obtain rfl := (hp c).1 hc
      rw [hcut, partedAt_nil_cons (splitTopLevelFrom_ne_nil _ _ _ _),
        joinWith_splitTopLevelFrom fun c => (hp c).1]
      cases before with
      | nil => simp [Nesting.behind, hclosed]
      | cons d tail =>
        constructor
        · rintro (⟨hnil, -⟩ | ⟨tail', htail, hparted⟩)
          · cases hnil
          · cases htail
            obtain ⟨rfl, htail⟩ := ih.1 hparted
            exact ⟨rfl, by rwa [Nesting.behind, hbracket]⟩
        · rintro ⟨htext, htail⟩
          obtain ⟨rfl, rfl⟩ := List.cons.inj htext
          rw [Nesting.behind, hbracket] at htail
          exact .inr ⟨tail, rfl, ih.2 ⟨rfl, htail⟩⟩
    · rw [hcut, partedAt_consFirst (splitTopLevelFrom_ne_nil _ _ _ _)]
      cases before with
      | nil =>
        have hopen : c = sep → n.isClosed = false := by
          rintro rfl
          exact hstays (bracket?_eq_none hsep) ((hp c).2 rfl)
        simp only [List.nil_append, List.cons.injEq, Nesting.behind]
        constructor
        · rintro ⟨tail, hnil, -⟩
          cases hnil
        · rintro ⟨⟨hc, -⟩, hclosed⟩
          rw [hopen hc] at hclosed
          cases hclosed
      | cons d tail =>
        constructor
        · rintro ⟨tail', htail, hparted⟩
          cases htail
          obtain ⟨rfl, hclosed⟩ := ih.1 hparted
          exact ⟨rfl, hclosed⟩
        · rintro ⟨htext, hclosed⟩
          obtain ⟨rfl, rfl⟩ := List.cons.inj htext
          exact ⟨tail, rfl, ih.2 ⟨rfl, hclosed⟩⟩

end Boundaries

section Nested

/-- Groups beside and inside each other: every bracket is closed in its turn by one of its kind. The
angle bracket of an arrow is none. -/
inductive WellNested : List Char → Prop
  | nil : WellNested []
  | char {d : Char} {ds : List Char} : d ∉ brackets → WellNested ds → WellNested (d :: ds)
  | arrow {ds : List Char} : WellNested ds → WellNested ('-' :: '>' :: ds)
  | group {g : Char × Char} {inside ds : List Char} : g ∈ groups →
    (g.2 = '>' → inside.getLast? ≠ some '-') → WellNested inside → WellNested ds →
    WellNested (g.1 :: (inside ++ g.2 :: ds))

/-- A group that opens in the text before a character is closed in the text after it. -/
def Spans (before : List Char) (c : Char) (after : List Char) : Prop :=
  ∃ g ∈ groups, ∃ front a b back, before = front ++ g.1 :: a ∧ after = b ++ g.2 :: back ∧
    WellNested (a ++ c :: b) ∧ (g.2 = '>' → (a ++ c :: b).getLast? ≠ some '-')

theorem Spans.append_left (h : Spans before c after) (a : List Char) :
    Spans (a ++ before) c after := by
  obtain ⟨g, hg, front, inside, b, back, rfl, hafter, hinside, hlast⟩ := h
  exact ⟨g, hg, a ++ front, inside, b, back, by simp, hafter, hinside, hlast⟩

/-- At least as many groups are open. -/
structure Nesting.Within (n m : Nesting) : Prop where
  depth : n.depth ≤ m.depth
  angles : n.angles ≤ m.angles

theorem Nesting.Within.refl (n : Nesting) : n.Within n := ⟨le_rfl, le_rfl⟩

theorem Nesting.Within.trans {k : Nesting} (h : n.Within m) (h' : m.Within k) : n.Within k :=
  ⟨h.depth.trans h'.depth, h.angles.trans h'.angles⟩

/-- The nesting inside a group. -/
def Nesting.enter (n : Nesting) (g : Char × Char) : Nesting :=
  if g.1 = '<' then { n with angles := n.angles + 1 } else { n with depth := n.depth + 1 }

theorem bracket?_open {g : Char × Char} (hg : g ∈ groups) :
    n.bracket? previous g.1 = some (n.enter g) := by
  simp only [groups, List.mem_cons, List.not_mem_nil, or_false] at hg
  rcases hg with rfl | rfl | rfl | rfl <;> simp [Nesting.bracket?, Nesting.enter]

theorem bracket?_close {g : Char × Char} (hg : g ∈ groups)
    (hlast : g.2 = '>' → previous ≠ some '-') : (n.enter g).bracket? previous g.2 = some n := by
  simp only [groups, List.mem_cons, List.not_mem_nil, or_false] at hg
  rcases hg with rfl | rfl | rfl | rfl
  · simp [Nesting.bracket?, Nesting.enter]
  · simp [Nesting.bracket?, Nesting.enter]
  · simp [Nesting.bracket?, Nesting.enter]
  · simp [Nesting.bracket?, Nesting.enter, hlast rfl]

theorem within_enter (n : Nesting) (g : Char × Char) : n.Within (n.enter g) := by
  rw [Nesting.enter]
  split
  · exact ⟨le_rfl, Nat.le_succ _⟩
  · exact ⟨by simp, le_rfl⟩

theorem Nesting.Within.not_isClosed {g : Char × Char} (hn : Nesting.Within {} n)
    (h : (n.enter g).Within m) : m.isClosed = false := by
  obtain ⟨hdepth, hangles⟩ := h
  have hn₁ := hn.depth
  rw [Nesting.enter] at hdepth hangles
  rw [Nesting.isClosed, Bool.and_eq_false_iff, beq_eq_false_iff_ne, beq_eq_false_iff_ne]
  split at hdepth
  · right
    simp only [*, if_true] at hangles
    omega
  · left
    dsimp only at hdepth hn₁
    omega

theorem behind_group {g : Char × Char} (hg : g ∈ groups) (a : List Char) :
    n.behind previous (g.1 :: a) = (n.enter g).behind (some g.1) a := by
  rw [Nesting.behind, bracket?_open hg, Option.getD_some]

theorem behind_char (hc : c ∉ brackets) :
    n.behind previous (c :: cs) = n.behind (some c) cs := by
  rw [Nesting.behind, bracket?_eq_none hc, Option.getD_none]

theorem behind_arrow : n.behind previous ('-' :: '>' :: cs) = n.behind (some '>') cs := by
  have harrow : n.bracket? (some '-') '>' = some n := by simp [Nesting.bracket?]
  rw [behind_char (by decide), Nesting.behind, harrow, Option.getD_some]

theorem mem_brackets : ∀ g ∈ groups, g.1 ∈ brackets ∧ g.2 ∈ brackets := by
  decide

theorem opening_ne_dash {g : Char × Char} (hg : g ∈ groups) : g.1 ≠ '-' := by
  simp only [groups, List.mem_cons, List.not_mem_nil, or_false] at hg
  rcases hg with rfl | rfl | rfl | rfl <;> decide

/-- Behind a group as much is open as before it. -/
theorem behind_pair {g : Char × Char} {inside : List Char} (hg : g ∈ groups)
    (hlast : g.2 = '>' → inside.getLast? ≠ some '-')
    (hinside : ∀ (n : Nesting) (previous : Option Char), n.behind previous inside = n)
    (rest : List Char) :
    n.behind previous (g.1 :: (inside ++ g.2 :: rest)) = n.behind (some g.2) rest := by
  have hprevious : g.2 = '>' → inside.getLast?.or (some g.1) ≠ some '-' := by
    intro hclose
    cases hend : inside.getLast? with
    | none => simpa using opening_ne_dash hg
    | some d => simpa [hend] using hlast hclose
  rw [behind_group hg, Nesting.behind_append, hinside, Nesting.behind,
    bracket?_close hg hprevious, Option.getD_some]

/-- A text whose groups are nested leaves open what was open. -/
theorem WellNested.behind_eq (h : WellNested cs) (n : Nesting) (previous : Option Char) :
    n.behind previous cs = n := by
  induction h generalizing n previous with
  | nil => rfl
  | char hc _ ih => rw [behind_char hc, ih]
  | arrow _ ih => rw [behind_arrow, ih]
  | group hg hlast _ _ ihinside ih => rw [behind_pair hg hlast ihinside, ih]

/-- No front of such a text closes what was open before it. -/
theorem WellNested.within (h : WellNested cs) (hfront : a <+: cs) (n : Nesting)
    (previous : Option Char) : n.Within (n.behind previous a) := by
  induction h generalizing a n previous with
  | nil =>
    rw [List.prefix_nil.1 hfront]
    exact .refl n
  | @char d ds hd _ ih =>
    rcases List.prefix_cons_iff.1 hfront with rfl | ⟨a, rfl, hrest⟩
    · exact .refl n
    · rw [behind_char hd]
      exact ih hrest n _
  | @arrow ds _ ih =>
    rcases List.prefix_cons_iff.1 hfront with rfl | ⟨a, rfl, hrest⟩
    · exact .refl n
    · rcases List.prefix_cons_iff.1 hrest with rfl | ⟨a, rfl, hrest'⟩
      · rw [behind_char (by decide)]
        exact .refl n
      · rw [behind_arrow]
        exact ih hrest' n _
  | @group g inside ds hg hlast hinside _ ihinside ih =>
    rcases List.prefix_cons_iff.1 hfront with rfl | ⟨a, rfl, rest, hrest⟩
    · exact .refl n
    · rcases List.append_eq_append_iff.1 hrest with ⟨b, rfl, -⟩ | ⟨b, rfl, hb⟩
      · rw [behind_group hg]
        exact (within_enter n g).trans (ihinside (List.prefix_append a b) _ _)
      · rcases List.cons_eq_append_iff.1 hb with ⟨rfl, -⟩ | ⟨tail, rfl, rfl⟩
        · rw [List.append_nil, behind_group hg]
          exact (within_enter n g).trans (ihinside List.prefix_rfl _ _)
        · rw [behind_pair hg hlast hinside.behind_eq]
          exact ih (List.prefix_append tail rest) n _

/-- Where a group spans a character, it is open in front of it. -/
theorem Spans.not_isClosed (h : Spans before c after)
    (hnested : WellNested (before ++ c :: after)) :
    (Nesting.behind {} previous before).isClosed = false := by
  obtain ⟨g, hg, front, a, b, back, rfl, rfl, hinside, -⟩ := h
  rw [List.append_assoc] at hnested
  have hfront := hnested.within (List.prefix_append front _) {} previous
  have hopen := hinside.within (List.prefix_append a _)
    ((Nesting.behind {} previous front).enter g) (some g.1)
  rw [Nesting.behind_append, behind_group hg]
  exact hfront.not_isClosed hopen

/-- In front of any other character all groups are closed. -/
theorem WellNested.spans_or_behind_eq (h : WellNested cs) (hcs : cs = before ++ c :: after)
    (hc : c ∉ brackets) : Spans before c after ∨
      ∀ (n : Nesting) (previous : Option Char), n.behind previous before = n := by
  induction h generalizing before with
  | nil => simp at hcs
  | @char d ds hd _ ih =>
    rcases List.cons_eq_append_iff.1 hcs with ⟨rfl, -⟩ | ⟨tail, rfl, htail⟩
    · exact .inr fun n previous => rfl
    · rcases ih htail with hspans | hclosed
      · exact .inl (hspans.append_left [d])
      · right
        intro n previous
        rw [behind_char hd, hclosed]
  | @arrow ds _ ih =>
    rcases List.cons_eq_append_iff.1 hcs with ⟨rfl, -⟩ | ⟨tail, rfl, htail⟩
    · exact .inr fun n previous => rfl
    · rcases List.cons_eq_append_iff.1 htail with ⟨rfl, hhead⟩ | ⟨tail, rfl, hrest⟩
      · obtain ⟨rfl, -⟩ := List.cons.inj hhead
        exact absurd (by decide) hc
      · rcases ih hrest with hspans | hclosed
        · exact .inl (hspans.append_left ['-', '>'])
        · right
          intro n previous
          rw [behind_arrow, hclosed]
  | @group g inside ds hg hlast hinside _ ihinside ih =>
    have hbracket : g.1 ∈ brackets ∧ g.2 ∈ brackets := mem_brackets g hg
    rcases List.cons_eq_append_iff.1 hcs with ⟨rfl, hhead⟩ | ⟨tail, rfl, htail⟩
    · obtain ⟨rfl, -⟩ := List.cons.inj hhead
      exact absurd hbracket.1 hc
    · rcases List.append_eq_append_iff.1 htail with ⟨b, rfl, hb⟩ | ⟨b, rfl, hb⟩
      · -- The character stands behind the inside of the group.
        rcases List.cons_eq_append_iff.1 hb with ⟨rfl, hhead⟩ | ⟨tail, rfl, hrest⟩
        · obtain ⟨rfl, -⟩ := List.cons.inj hhead
          exact absurd hbracket.2 hc
        · rcases ih hrest with hspans | hclosed
          · left
            have happend := hspans.append_left (g.1 :: (inside ++ [g.2]))
            simpa using happend
          · right
            intro n previous
            rw [behind_pair hg hlast hinside.behind_eq, hclosed]
      · rcases List.cons_eq_append_iff.1 hb with ⟨rfl, hhead⟩ | ⟨tail', rfl, rfl⟩
        · obtain ⟨rfl, -⟩ := List.cons.inj hhead
          exact absurd hbracket.2 hc
        · exact .inl ⟨g, hg, [], tail, tail', ds, rfl, rfl, hinside, hlast⟩

/-- In a text whose groups are nested, a character that is no bracket stands outside all groups
exactly where all that was opened is closed. -/
theorem WellNested.isClosed_iff (h : WellNested (before ++ c :: after)) (hc : c ∉ brackets) :
    (Nesting.behind {} previous before).isClosed ↔ ¬ Spans before c after := by
  constructor
  · intro hclosed hspans
    rw [hspans.not_isClosed h] at hclosed
    cases hclosed
  · intro hspans
    rw [(h.spans_or_behind_eq rfl hc).resolve_left hspans]
    rfl

end Nested

/-- Splitting at an ASCII separator that is no bracket breaks off in no text. The pieces, joined
again, are the text, and none of them is split again. In a text whose groups are nested it is split
at the separators that no group spans, and nowhere else. -/
theorem splitTopLevelBytes?_boundaries {sep : UInt8} (hascii : sep < 0x80)
    (hsep : Char.ofNat sep.toNat ∉ brackets) (cs : List Char) :
    ∃ pieces, splitTopLevelBytes? sep cs = some pieces ∧
      joinWith [Char.ofNat sep.toNat] pieces = cs ∧
      (∀ piece ∈ pieces, splitTopLevelBytes? sep piece = some [piece]) ∧
      (WellNested cs → ∀ before after, PartedAt (Char.ofNat sep.toNat) pieces before after ↔
        cs = before ++ Char.ofNat sep.toNat :: after ∧
          ¬ Spans before (Char.ofNat sep.toNat) after) := by
  have hp : ∀ c, ((String.utf8EncodeChar c).head? == some sep) = true ↔
      c = Char.ofNat sep.toNat := by
    intro c
    rw [beq_iff_eq, head?_utf8EncodeChar hascii]
  have hwhole : ∀ cs, splitTopLevelBytes? sep cs = some
      (splitTopLevelFrom (fun c => (String.utf8EncodeChar c).head? == some sep) {} none cs) := by
    intro cs
    rw [splitTopLevelBytes?]
    simp [hascii]
  refine ⟨_, hwhole cs, joinWith_splitTopLevelFrom (fun c => (hp c).1) {} none cs, ?_, ?_⟩
  · intro piece hpiece
    rw [hwhole, splitTopLevelFrom_of_mem hpiece]
  · intro hnested before after
    rw [partedAt_splitTopLevelFrom hp hsep]
    constructor
    · rintro ⟨rfl, hclosed⟩
      exact ⟨rfl, (hnested.isClosed_iff hsep).1 hclosed⟩
    · rintro ⟨rfl, hspans⟩
      exact ⟨rfl, (hnested.isClosed_iff hsep).2 hspans⟩

theorem splitTopLevelBytes?_boundaries_template :
    (0x2c : UInt8) < 0x80 ∧ ',' ∉ brackets ∧
    ∃ pieces, splitTopLevelBytes? 0x2c "f<a,b>,g->h".toList = some pieces ∧
      joinWith [','] pieces = "f<a,b>,g->h".toList ∧
      (∀ piece ∈ pieces, splitTopLevelBytes? 0x2c piece = some [piece]) ∧
      PartedAt ',' pieces "f<a,b>".toList "g->h".toList ∧
      ¬ PartedAt ',' pieces "f<a".toList "b>,g->h".toList := by
  have hsep : ',' ∉ brackets := by decide
  have hinside : WellNested "a,b".toList :=
    .char (by decide) (.char (by decide) (.char (by decide) .nil))
  have hnested : WellNested "f<a,b>,g->h".toList := by
    refine .char (by decide) (.group (g := ('<', '>')) (by decide) (by decide) hinside ?_)
    exact .char (by decide) (.char (by decide) (.arrow (.char (by decide) .nil)))
  obtain ⟨pieces, hsplit, hjoin, hpieces, hparted⟩ :=
    @splitTopLevelBytes?_boundaries 0x2c (by decide) hsep "f<a,b>,g->h".toList
  refine ⟨by decide, hsep, pieces, hsplit, hjoin, hpieces, ?_, ?_⟩
  · have hclosed : (Nesting.behind {} none "f<a,b>".toList).isClosed := by decide
    exact (hparted hnested _ _).2 ⟨rfl, (hnested.isClosed_iff hsep).1 hclosed⟩
  · intro h
    have hspans : Spans "f<a".toList ',' "b>,g->h".toList :=
      ⟨('<', '>'), by decide, ['f'], ['a'], ['b'], ",g->h".toList, rfl, rfl, hinside, by decide⟩
    exact ((hparted hnested _ _).1 h).2 hspans

end TestSynth.Text
