import Mathlib
import TestSynth.Number.Binary64
/-!
Rounding to 53 bits keeps the order of quotients, leaves numbers of 53 bits as they are, and adds
at most one part in 2^53. Operations on numbers that are not negative are told in units.
-/
namespace TestSynth.Number.Binary64

section Quotient
variable {num num' den den' k : Nat}

theorem divideToEven_mono_left (h : num ≤ num') : divideToEven num den ≤ divideToEven num' den := by
  have hq : num / den ≤ num' / den := Nat.div_le_div_right h
  unfold divideToEven
  dsimp only
  rcases hq.lt_or_eq with hlt | heq
  · split_ifs <;> omega
  · -- Of equal quotients the remainders are in the order of the numbers.
    have hr : num % den ≤ num' % den := by
      rw [Nat.mod_def, Nat.mod_def, ← heq]
      omega
    rw [heq]
    split_ifs <;> omega

theorem divideToEven_mul_right (num den : Nat) (hk : 0 < k) :
    divideToEven (num * k) (den * k) = divideToEven num den := by
  have hlt : ∀ a b, a * k < b * k ↔ a < b := fun a b => Nat.mul_lt_mul_right hk
  unfold divideToEven
  simp only [Nat.mul_div_mul_right _ _ hk, Nat.mul_mod_mul_right, ← mul_assoc, hlt]

theorem divideToEven_mono (hd : 0 < den) (hd' : 0 < den') (h : num * den' ≤ num' * den) :
    divideToEven num den ≤ divideToEven num' den' := by
  rw [← divideToEven_mul_right num den hd', ← divideToEven_mul_right num' den' hd,
    mul_comm den' den]
  exact divideToEven_mono_left h

theorem divideToEven_mul_self (hd : 0 < den) : divideToEven (k * den) den = k := by
  simp [divideToEven, Nat.mul_div_cancel _ hd, hd]

/-- A quotient goes up by at most a half. -/
theorem two_mul_divideToEven_le (num den : Nat) :
    2 * (divideToEven num den * den) ≤ 2 * num + den := by
  have hnum := Nat.div_add_mod num den
  rw [mul_comm] at hnum
  unfold divideToEven
  dsimp only
  split_ifs with hlow hhigh
  · omega
  · rw [Nat.add_mul]
    omega
  · rcases Nat.mod_two_eq_zero_or_one (num / den) with h | h <;> rw [h, Nat.add_mul] <;> omega

end Quotient

section Scale

/-- The exponent of a rounded number that is at least `whole` units and less than one more. -/
def scale (whole : Nat) : Nat := if whole < 1 <<< 53 then 0 else whole.log2 - 52

variable {whole whole' : Nat}

theorem lt_scale (whole : Nat) : whole < 2 ^ (53 + scale whole) := by
  unfold scale
  rw [Nat.one_shiftLeft]
  split_ifs with h
  · exact h
  · have hne : whole ≠ 0 := by
      rintro rfl
      simp at h
    have hlog : 53 ≤ whole.log2 := (Nat.le_log2 hne).2 (not_lt.1 h)
    rw [show 53 + (whole.log2 - 52) = whole.log2 + 1 by omega]
    exact Nat.lt_log2_self

theorem scale_le (h : scale whole ≠ 0) : 2 ^ (52 + scale whole) ≤ whole := by
  unfold scale at h ⊢
  rw [Nat.one_shiftLeft] at h ⊢
  split_ifs at h ⊢ with hlt
  · exact absurd rfl h
  · have hne : whole ≠ 0 := by
      rintro rfl
      simp at hlt
    rw [show 52 + (whole.log2 - 52) = whole.log2 by omega]
    exact Nat.log2_self_le hne

theorem scale_le_of_lt {e : Nat} (h : whole < 2 ^ (53 + e)) : scale whole ≤ e := by
  by_contra hlt
  have hle : 2 ^ (52 + scale whole) ≤ whole := scale_le (by omega)
  have hpow : 2 ^ (53 + e) ≤ 2 ^ (52 + scale whole) := Nat.pow_le_pow_right (by decide) (by omega)
  exact absurd (h.trans_le (hpow.trans hle)) (lt_irrefl _)

theorem scale_mono (h : whole ≤ whole') : scale whole ≤ scale whole' :=
  scale_le_of_lt (h.trans_lt (lt_scale whole'))

end Scale

section Rounded
variable {num num' den den' : Nat}

/-- The units that `num / den` units are rounded to. -/
def rounded (num den : Nat) : Nat :=
  divideToEven num (den <<< scale (num / den)) <<< scale (num / den)

theorem shiftLeft_pos (hd : 0 < den) (e : Nat) : 0 < den <<< e := by
  rw [Nat.shiftLeft_eq]
  positivity

theorem significand_le (hd : 0 < den) :
    divideToEven num (den <<< scale (num / den)) ≤ 2 ^ 53 := by
  have hpos := shiftLeft_pos hd (scale (num / den))
  have hlt : num < 2 ^ (53 + scale (num / den)) * den := (Nat.div_lt_iff_lt_mul hd).1 (lt_scale _)
  have hle : num ≤ 2 ^ 53 * den <<< scale (num / den) := by
    rw [Nat.shiftLeft_eq]
    calc num ≤ 2 ^ (53 + scale (num / den)) * den := hlt.le
      _ = 2 ^ 53 * (den * 2 ^ scale (num / den)) := by ring
  exact (divideToEven_mono_left hle).trans_eq (divideToEven_mul_self hpos)

theorem le_significand (hd : 0 < den) (h : scale (num / den) ≠ 0) :
    2 ^ 52 ≤ divideToEven num (den <<< scale (num / den)) := by
  have hpos := shiftLeft_pos hd (scale (num / den))
  have hle : 2 ^ 52 * den <<< scale (num / den) ≤ num := by
    rw [Nat.shiftLeft_eq]
    calc 2 ^ 52 * (den * 2 ^ scale (num / den)) = 2 ^ (52 + scale (num / den)) * den := by ring
      _ ≤ num := (Nat.le_div_iff_mul_le hd).1 (scale_le h)
  exact (divideToEven_mul_self hpos).symm.trans_le (divideToEven_mono_left hle)

/-- Rounding keeps the order of quotients. -/
theorem rounded_mono (hd : 0 < den) (hd' : 0 < den') (h : num * den' ≤ num' * den) :
    rounded num den ≤ rounded num' den' := by
  have hwhole : num / den ≤ num' / den' := by
    rw [Nat.le_div_iff_mul_le hd']
    refine Nat.le_of_mul_le_mul_right ?_ hd
    calc num / den * den' * den = num / den * den * den' := by ring
      _ ≤ num * den' := Nat.mul_le_mul_right _ (Nat.div_mul_le_self _ _)
      _ ≤ num' * den := h
  unfold rounded
  rcases (scale_mono hwhole).lt_or_eq with hlt | heq
  · -- Every number of the lower scale is below every number of the higher one.
    simp only [Nat.shiftLeft_eq (divideToEven _ _)]
    calc _ ≤ 2 ^ 53 * 2 ^ scale (num / den) := Nat.mul_le_mul_right _ (significand_le hd)
      _ = 2 ^ 52 * 2 ^ (scale (num / den) + 1) := by ring
      _ ≤ 2 ^ 52 * 2 ^ scale (num' / den') :=
        Nat.mul_le_mul_left _ (Nat.pow_le_pow_right (by decide) hlt)
      _ ≤ _ := Nat.mul_le_mul_right _ (le_significand hd' (by omega))
  · rw [heq]
    simp only [Nat.shiftLeft_eq]
    refine Nat.mul_le_mul_right _ (divideToEven_mono (by positivity) (by positivity) ?_)
    calc num * (den' * 2 ^ scale (num' / den')) = num * den' * 2 ^ scale (num' / den') := by ring
      _ ≤ num' * den * 2 ^ scale (num' / den') := Nat.mul_le_mul_right _ h
      _ = num' * (den * 2 ^ scale (num' / den')) := by ring

/-- A number of 53 bits stays as it is. -/
theorem rounded_self {m : Nat} (hm : m < 2 ^ 53) (e : Nat) (hd : 0 < den) :
    rounded (m <<< e * den) den = m <<< e := by
  have hscale : scale (m <<< e) ≤ e := by
    refine scale_le_of_lt ?_
    rw [Nat.shiftLeft_eq, pow_add]
    exact Nat.mul_lt_mul_of_pos_right hm (by positivity)
  have hpos := shiftLeft_pos hd (scale (m <<< e))
  unfold rounded
  rw [Nat.mul_div_cancel _ hd]
  generalize scale (m <<< e) = k at *
  obtain ⟨i, rfl⟩ := Nat.exists_eq_add_of_le hscale
  have hsplit : m <<< (k + i) * den = m <<< i * den <<< k := by
    simp only [Nat.shiftLeft_eq, pow_add]
    ring
  rw [hsplit, divideToEven_mul_self hpos, ← Nat.shiftLeft_add, Nat.add_comm i]

theorem rounded_le {m e : Nat} (hm : m < 2 ^ 53) (hd : 0 < den) (h : num ≤ m <<< e * den) :
    rounded num den ≤ m <<< e := by
  have hle : rounded num den ≤ rounded (m <<< e * den) den :=
    rounded_mono hd hd (Nat.mul_le_mul_right _ h)
  rwa [rounded_self hm e hd] at hle

theorem le_rounded {m e : Nat} (hm : m < 2 ^ 53) (hd : 0 < den) (h : m <<< e * den ≤ num) :
    m <<< e ≤ rounded num den := by
  have hle : rounded (m <<< e * den) den ≤ rounded num den :=
    rounded_mono hd hd (Nat.mul_le_mul_right _ h)
  rwa [rounded_self hm e hd] at hle

/-- A number of 53 bits or more goes up by at most one part in 2^53. -/
theorem rounded_mul_le (hd : 0 < den) (h : 2 ^ 52 ≤ num / den) :
    rounded num den * den * 2 ^ 53 ≤ num * (2 ^ 53 + 1) := by
  have hscale : 2 ^ (52 + scale (num / den)) ≤ num / den := by
    by_cases hzero : scale (num / den) = 0
    · rwa [hzero]
    · exact scale_le hzero
  have hstep : den <<< scale (num / den) * 2 ^ 52 ≤ num := by
    rw [Nat.shiftLeft_eq]
    calc den * 2 ^ scale (num / den) * 2 ^ 52 = 2 ^ (52 + scale (num / den)) * den := by ring
      _ ≤ num := (Nat.le_div_iff_mul_le hd).1 hscale
  have hhalf := two_mul_divideToEven_le num (den <<< scale (num / den))
  have hunits : rounded num den * den =
      divideToEven num (den <<< scale (num / den)) * den <<< scale (num / den) := by
    unfold rounded
    rw [Nat.shiftLeft_eq, Nat.shiftLeft_eq den]
    ring
  rw [hunits]
  linarith

end Rounded

section Units
variable {b b' : Binary64} {n n' num den : Nat}

/-- A number of `n` units. -/
def Is (b : Binary64) (n : Nat) : Prop := ∃ m e, b = .finite false m e ∧ m <<< e = n

theorem Is.le_iff (h : b.Is n) (h' : b'.Is n') : b.le b' ↔ n ≤ n' := by
  obtain ⟨m, e, rfl, rfl⟩ := h
  obtain ⟨m', e', rfl, rfl⟩ := h'
  simp only [le, compare?, signedUnits, Bool.false_eq_true, if_false, Bool.or_eq_true,
    beq_iff_eq, Option.some.injEq, compare_lt_iff_lt, compare_eq_iff_eq, ← le_iff_lt_or_eq,
    Int.ofNat_eq_natCast, Int.ofNat_le]

/-- Far below the largest number. -/
def bound : Nat := 2 ^ (53 + 2044)

/-- A quotient that is not too large is rounded. -/
theorem ofUnits_is (h : num / den < bound) : (ofUnits false num den).Is (rounded num den) := by
  have hscale : scale (num / den) ≤ 2044 := scale_le_of_lt h
  have hofUnits : ofUnits false num den =
      let significand := divideToEven num (den <<< scale (num / den))
      let parts := if significand = 1 <<< 53 then (1 <<< 52, scale (num / den) + 1)
        else (significand, scale (num / den))
      if 2045 < parts.2 then .infinite false else .finite false parts.1 parts.2 := rfl
  rw [hofUnits]
  dsimp only
  split_ifs with hcarry hover hover
  · omega
  · refine ⟨_, _, rfl, ?_⟩
    rw [rounded, hcarry, Nat.add_comm, Nat.shiftLeft_add, ← Nat.shiftLeft_add 1]
  · omega
  · exact ⟨_, _, rfl, rfl⟩

theorem Is.mul (h : b.Is n) (h' : b'.Is n') (hn : n * n' / unitsPerOne < bound) :
    (b.mul b').Is (rounded (n * n') unitsPerOne) := by
  obtain ⟨m, e, rfl, rfl⟩ := h
  obtain ⟨m', e', rfl, rfl⟩ := h'
  exact ofUnits_is hn

theorem Is.div (h : b.Is n) (h' : b'.Is n') (hpos : 0 < n')
    (hn : n * unitsPerOne / n' < bound) :
    (b.div b').Is (rounded (n * unitsPerOne) n') := by
  obtain ⟨m, e, rfl, rfl⟩ := h
  obtain ⟨m', e', rfl, rfl⟩ := h'
  have hm : m' ≠ 0 := by
    rintro rfl
    simp at hpos
  rw [div, if_neg hm]
  exact ofUnits_is hn

end Units

end TestSynth.Number.Binary64
