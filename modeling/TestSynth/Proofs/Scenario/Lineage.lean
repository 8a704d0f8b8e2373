import TestSynth.Proofs.Scenario.FirstTests
/-!
Tests of lines. A line goes by the name of its first test; a replacement has that name and the
attempt it replaces as its own. A line has at most two replacements.
-/
namespace TestSynth

/-- The name that the line of a test goes by. -/
def TestArtifact.origin (a : TestArtifact) : String := (a.recipe.map (·.originId)).getD a.id

/-- The name of the test of a generation in a line. -/
def lineName (origin : String) (generation : Nat) : String :=
  if generation = 0 then origin else origin ++ "_g" ++ toString generation

/-- Marks of first tests, up to those of a round. -/
def Mark.UpTo (iteration : Nat) : Mark → Prop
  | .kind _ => True
  | .round i => i ≤ iteration
  | .repair _ => False

/-- A name of a line that is there in a round. -/
def BornBy (iteration : Nat) (origin : String) : Prop :=
  PlainName origin ∧ ∃ m : Mark, m.UpTo iteration ∧ MarkedFor origin m

/-- A test of a line that is there in a round: the first of the line, the second, which has the
least flavour of arguments, or one that is minimal. -/
structure TestArtifact.InLine (iteration : Nat) (a : TestArtifact) : Prop where
  named : a.id = lineName a.origin a.generation
  born : BornBy iteration a.origin
  stepped : 0 < a.generation → ∀ r ∈ a.recipe,
    r.minimal = true ∨ (a.generation = 1 ∧ r.flavour = .edgeCase)

section Names
variable {origin o₁ o₂ : String} {iteration m n : Nat}

theorem BornBy.mono (h : BornBy m origin) (hmn : m ≤ n) : BornBy n origin := by
  obtain ⟨hplain, mark, hmark, hfor⟩ := h
  refine ⟨hplain, mark, ?_, hfor⟩
  cases mark with
  | kind => exact hmark
  | round i => exact Nat.le_trans hmark hmn
  | repair => exact hmark

theorem lineName_succ (origin : String) (n : Nat) : lineName origin (n + 1) =
    origin ++ "_" ++ String.ofList (Mark.repair (n + 1)).text := by
  refine String.toList_inj.1 ?_
  simp [lineName, String.toList_append, Mark.text]

theorem BornBy.ne_lineName (h : BornBy iteration o₁) (o₂ : String) (n : Nat) :
    o₁ ≠ lineName o₂ (n + 1) := by
  rintro rfl
  obtain ⟨_, mark, hmark, hfor⟩ := h
  have hrepair : MarkedFor (lineName o₂ (n + 1)) (.repair (n + 1)) := by
    rw [lineName_succ]
    exact (EndsInMark.append _ _).markedFor
  rw [hfor.unique hrepair] at hmark
  exact hmark

/-- The name of a test tells its line and its generation. -/
theorem lineName_inj (h₁ : BornBy iteration o₁) (h₂ : BornBy iteration o₂) :
    lineName o₁ m = lineName o₂ n ↔ o₁ = o₂ ∧ m = n := by
  refine ⟨fun h => ?_, fun ⟨ho, hn⟩ => by rw [ho, hn]⟩
  cases m with
  | zero =>
    cases n with
    | zero => exact ⟨h, rfl⟩
    | succ n => exact absurd h (h₁.ne_lineName o₂ n)
  | succ m =>
    cases n with
    | zero => exact absurd h.symm (h₂.ne_lineName o₁ m)
    | succ n =>
      rw [lineName_succ, lineName_succ] at h
      have hlist := congrArg String.toList h
      rw [toList_append_text, toList_append_text] at hlist
      have hbefore := congrArg Artifact.beforeLast hlist
      have hlast := congrArg Artifact.lastPart hlist
      have hu := fun n => (Mark.repair n).underscore_not_mem_text
      rw [Artifact.beforeLast_append _ (hu _), Artifact.beforeLast_append _ (hu _)] at hbefore
      rw [Artifact.lastPart_append _ (hu _), Artifact.lastPart_append _ (hu _)] at hlast
      cases Mark.text_injective hlast
      exact ⟨String.toList_inj.1 hbefore, rfl⟩

theorem PlainName.lineName (h : PlainName origin) (n : Nat) :
    PlainName (lineName origin n) := by
  cases n with
  | zero => exact h
  | succ n =>
    rw [lineName_succ]
    exact (h.append .underscore).append (.mark (.repair (n + 1)))

end Names

namespace TestArtifact

variable {a b : TestArtifact} {iteration n : Nat} {m : Mark}

theorem InLine.mono (h : a.InLine iteration) (hn : iteration ≤ n) : a.InLine n :=
  ⟨h.named, h.born.mono hn, h.stepped⟩

theorem InLine.plain (h : a.InLine iteration) : PlainName a.id := by
  rw [h.named]
  exact h.born.1.lineName _

theorem First.origin_eq (h : a.First) : a.origin = a.id := by
  rw [TestArtifact.origin, h.origin, Option.getD_some]

theorem FirstFor.inLine (h : a.FirstFor m) (hm : m.UpTo iteration) : a.InLine iteration where
  named := by rw [h.generation, h.origin_eq]; rfl
  born := by
    rw [h.origin_eq]
    exact ⟨h.plain, m, hm, h.marked⟩
  stepped hpos := absurd h.generation (Nat.ne_of_gt hpos)

end TestArtifact

namespace Generator

variable {g : Generator} {a b : TestArtifact} {diagnostics : String} {attempt iteration : Nat}

/-- What is asked for to replace a test, on a rung of the ladder. -/
def renewal (a : TestArtifact) (r : Recipe) (diagnostics : String) (attempt : Nat)
    (rung : ScenarioKind × Flavour × Bool) : Request :=
  { target := r.target
    kind := rung.1
    flavour := rung.2.1
    minimal := rung.2.2
    id := r.originId ++ "_g" ++ toString attempt
    originId := some r.originId
    generation := attempt
    parentId := some a.id
    iteration := a.iteration
    notes := ("regenerated (attempt " ++ toString attempt ++ ")") ::
      ((diagnosticSummary? diagnostics).map ("previous error: " ++ ·)).toList }

/-- The test is rendered, in place of another, for the declaration that is asked for. -/
inductive Remakes (g : Generator) (a : TestArtifact) (q : Request) (b : TestArtifact) : Prop
  | member (index : Nat) (c : ClassModel) (htarget : q.target = .member index)
      (hclass : g.classNamed? a.className = some c)
      (hrender : g.renderMember? c index none q = some b)
  | function (index : Nat) (htarget : q.target = .freeFunction index)
      (hrender : g.renderFunction? index q = some b)

/-- A test is replaced when it is not hopeless, there is a rung, and a test can be rendered on it. -/
theorem regenerate?_eq_some_iff : g.regenerate? a diagnostics attempt = some b ↔
    isUnrecoverable diagnostics = false ∧ ∃ r rung, a.recipe = some r ∧
      g.nextRung? a r = some rung ∧ g.Remakes a (renewal a r diagnostics attempt rung) b := by
  constructor
  · intro h
    obtain ⟨r, hr, h⟩ := Option.bind_eq_some_iff.1 h
    dsimp only at h
    split at h
    · cases h
    · next hmendable =>
      obtain ⟨rung, hrung, h⟩ := Option.bind_eq_some_iff.1 h
      refine ⟨Bool.eq_false_iff.2 hmendable, r, rung, hr, hrung, ?_⟩
      split at h
      · next index htarget =>
        obtain ⟨c, hclass, h⟩ := Option.bind_eq_some_iff.1 h
        exact .member index c htarget hclass h
      · next index htarget => exact .function index htarget h
  · rintro ⟨hmendable, r, rung, hr, hrung, h⟩
    unfold regenerate?
    rw [hr, Option.bind_eq_bind, Option.bind_some, if_neg (Bool.eq_false_iff.1 hmendable), hrung]
    obtain ⟨target, flavour, minimal, origin⟩ := r
    cases h with
    | member index c htarget hclass hrender =>
      cases htarget
      rw [hclass]
      exact hrender
    | function index htarget hrender =>
      cases htarget
      exact hrender

theorem Remakes.eq_finish {q : Request} (h : g.Remakes a q b) : ∃ d, b = g.finish d q := by
  cases h with
  | member index c htarget hclass hrender =>
    obtain ⟨d, -, rfl, -⟩ := renderMember?_eq_some hrender
    exact ⟨d, rfl⟩
  | function index htarget hrender =>
    obtain ⟨d, -, rfl, -⟩ := renderFunction?_eq_some hrender
    exact ⟨d, rfl⟩

/-- The next rung of a test is the minimal one, or has the least arguments, which the test has
not. -/
theorem nextRung?_eq_some {r : Recipe} {rung : ScenarioKind × Flavour × Bool}
    (h : g.nextRung? a r = some rung) : r.minimal = false ∧
      (rung.2.2 = true ∨ r.flavour ≠ .edgeCase ∧ rung.2.1 = .edgeCase) := by
  unfold nextRung? at h
  split at h
  · cases h
  · next hminimal =>
    refine ⟨by simpa using hminimal, ?_⟩
    split at h
    · next hflavour =>
      cases h
      simp only [Bool.and_eq_true, bne_iff_ne] at hflavour
      exact .inr ⟨hflavour.1, rfl⟩
    · split at h <;> cases h <;> exact .inl rfl

/-- What a replacement has from the test it replaces. -/
theorem regenerate?_eq_some (h : g.regenerate? a diagnostics attempt = some b) :
    ∃ r s, a.recipe = some r ∧ b.recipe = some s ∧ s.originId = r.originId ∧
      r.minimal = false ∧ (s.minimal = true ∨ r.flavour ≠ .edgeCase ∧ s.flavour = .edgeCase) ∧
      b.generation = attempt ∧ b.id = r.originId ++ "_g" ++ toString attempt := by
  obtain ⟨-, r, rung, hr, hrung, hb⟩ := regenerate?_eq_some_iff.1 h
  obtain ⟨hminimal, hstep⟩ := nextRung?_eq_some hrung
  obtain ⟨d, rfl⟩ := hb.eq_finish
  exact ⟨r, _, hr, rfl, rfl, hminimal, hstep, rfl, rfl⟩

theorem origin_regenerate? (h : g.regenerate? a diagnostics attempt = some b) :
    b.origin = a.origin := by
  obtain ⟨r, s, hr, hs, ho, _⟩ := regenerate?_eq_some h
  simp [TestArtifact.origin, hr, hs, ho]

/-- A test that is replaced is the first of its line or the second. -/
theorem generation_le_one (ha : a.InLine iteration)
    (h : g.regenerate? a diagnostics attempt = some b) : a.generation ≤ 1 := by
  obtain ⟨r, _, hr, _, _, hmin, _⟩ := regenerate?_eq_some h
  rcases Nat.eq_zero_or_pos a.generation with hzero | hpos
  · omega
  · rcases ha.stepped hpos r hr with hm | ⟨hone, _⟩
    · simp [hmin] at hm
    · omega

/-- A replacement is the test of the next generation in the same line, when the attempt is the one
after the generation of the test that it replaces, or the first. -/
theorem inLine_regenerate? (ha : a.InLine iteration)
    (hattempt : attempt = 1 ∨ a.generation + 1 = attempt)
    (h : g.regenerate? a diagnostics attempt = some b) :
    b.InLine iteration ∧ b.generation = attempt ∧ b.origin = a.origin := by
  have horigin := origin_regenerate? h
  obtain ⟨r, s, hr, hs, ho, hmin, hstep, hg, hid⟩ := regenerate?_eq_some h
  refine ⟨⟨?_, horigin ▸ ha.born, ?_⟩, hg, horigin⟩
  · have hne : attempt ≠ 0 := by omega
    have hline : a.origin = r.originId := by simp [TestArtifact.origin, hr]
    rw [horigin, hline, hid, hg, lineName, if_neg hne]
  · intro _ s' hs'
    cases hs.symm.trans hs'
    rcases hstep with hm | ⟨hf, he⟩
    · exact .inl hm
    · -- Only the first test of a line has the rung of the least arguments before it.
      have hzero : a.generation = 0 := by
        refine Nat.eq_zero_of_not_pos fun hpos => ?_
        rcases ha.stepped hpos r hr with hm | ⟨_, he'⟩
        · simp [hmin] at hm
        · exact hf he'
      exact .inr ⟨by omega, he⟩

/-- A replacement has the name of the test that it replaces exactly when that test has the attempt
for its generation already. -/
theorem id_regenerate?_eq_iff (ha : a.InLine iteration)
    (hattempt : attempt = 1 ∨ a.generation + 1 = attempt)
    (h : g.regenerate? a diagnostics attempt = some b) :
    b.id = a.id ↔ attempt = 1 ∧ a.generation = 1 := by
  obtain ⟨hb, hg, ho⟩ := inLine_regenerate? ha hattempt h
  rw [hb.named, ha.named, lineName_inj hb.born ha.born, hg]
  constructor
  · rintro ⟨_, heq⟩
    omega
  · rintro ⟨h₁, h₂⟩
    exact ⟨ho, by omega⟩

end Generator

end TestSynth
