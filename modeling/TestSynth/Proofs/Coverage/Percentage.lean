import Mathlib
import TestSynth.Coverage.Snapshot
import TestSynth.Proofs.Number.Rounding
/-!
The percentage of a part of a whole. Both roundings of it together can pass 100 by one place, and
only where the whole is so large that a hundred times it has more than 53 bits.
-/
namespace TestSynth.Coverage

open Number Binary64

/-- The number next to 100. -/
def aboveHundred : Binary64 := .finite false (100 * 2 ^ 46 + 1) 1028

/-- Between 0 and 100 as far as rounding allows. -/
structure IsPercentage (p : Binary64) (whole : UInt64) : Prop where
  nonneg : Binary64.zero.le p
  le_above : p.le aboveHundred
  le_hundred : 100 * whole.toNat < 2 ^ 53 → p.le (.ofNat 100)

section
variable {part whole n : Nat}

theorem unitsPerOne_pos : 0 < unitsPerOne := shiftLeft_pos one_pos _

theorem mul_unitsPerOne (n : Nat) : n * unitsPerOne = n <<< 1074 := by
  have hshift : ∀ k, n * 1 <<< k = n <<< k := fun k => by rw [Nat.one_shiftLeft, Nat.shiftLeft_eq]
  exact hshift 1074

/-- What `n` is rounded to, in units. -/
def wholeUnits (n : Nat) : Nat := rounded (n * unitsPerOne) 1

theorem wholeUnits_mono (h : part ≤ whole) : wholeUnits part ≤ wholeUnits whole :=
  rounded_mono one_pos one_pos (Nat.mul_le_mul_right _ (Nat.mul_le_mul_right _ h))

theorem wholeUnits_le (h : n < 2 ^ 64) : wholeUnits n ≤ 1 <<< 1138 := by
  refine rounded_le (by decide) one_pos ?_
  calc n * unitsPerOne ≤ 2 ^ 64 * unitsPerOne := Nat.mul_le_mul_right _ h.le
    _ = 1 <<< 1138 * 1 := by decide +kernel

theorem unitsPerOne_le_wholeUnits (h : 0 < n) : unitsPerOne ≤ wholeUnits n :=
  le_rounded (by decide) one_pos
    ((Nat.mul_one _).trans_le (Nat.le_mul_of_pos_left unitsPerOne h))

theorem wholeUnits_of_lt (h : n < 2 ^ 53) : wholeUnits n = n * unitsPerOne := by
  have hself := rounded_self h 1074 one_pos
  rwa [mul_one, ← mul_unitsPerOne] at hself

theorem ofNat_is (h : n < 2 ^ 64) : (Binary64.ofNat n).Is (wholeUnits n) := by
  refine ofUnits_is ?_
  rw [Nat.div_one]
  calc n * unitsPerOne ≤ 2 ^ 64 * unitsPerOne := Nat.mul_le_mul_right _ h.le
    _ < bound := by decide +kernel

/-- A hundred times a rounded part. -/
def hundredfold (part : Nat) : Nat := rounded (wholeUnits 100 * wholeUnits part) unitsPerOne

/-- The units of a percentage. -/
def percentUnits (part whole : Nat) : Nat :=
  rounded (hundredfold part * unitsPerOne) (wholeUnits whole)

theorem wholeUnits_hundred : wholeUnits 100 = 100 * unitsPerOne := wholeUnits_of_lt (by decide)

theorem product_div (part : Nat) :
    wholeUnits 100 * wholeUnits part / unitsPerOne = 100 * wholeUnits part := by
  rw [wholeUnits_hundred, mul_right_comm, Nat.mul_div_cancel _ unitsPerOne_pos]

theorem hundredfold_le (h : part < 2 ^ 64) : hundredfold part ≤ 1 <<< 1145 := by
  refine rounded_le (by decide) unitsPerOne_pos ?_
  calc wholeUnits 100 * wholeUnits part ≤ 100 * unitsPerOne * 1 <<< 1138 := by
        rw [wholeUnits_hundred]
        exact Nat.mul_le_mul_left _ (wholeUnits_le h)
    _ ≤ 1 <<< 1145 * unitsPerOne := by decide +kernel

/-- Of numbers of 53 bits the hundredfold is exact. -/
theorem hundredfold_of_lt (h : 100 * part < 2 ^ 53) :
    hundredfold part = 100 * part * unitsPerOne := by
  have hself := rounded_self h 1074 unitsPerOne_pos
  rw [← mul_unitsPerOne] at hself
  have hproduct : 100 * unitsPerOne * (part * unitsPerOne) =
      100 * part * unitsPerOne * unitsPerOne := by ring
  rw [hundredfold, wholeUnits_hundred, wholeUnits_of_lt (by omega), hproduct, hself]

/-- Rounding adds at most one part in 2^53 to a hundredfold. -/
theorem hundredfold_mul_le (hpos : 0 < part) :
    hundredfold part * 2 ^ 53 ≤ 100 * wholeUnits part * (2 ^ 53 + 1) := by
  have hone := unitsPerOne_le_wholeUnits hpos
  have hlarge : 2 ^ 52 ≤ wholeUnits 100 * wholeUnits part / unitsPerOne := by
    rw [product_div]
    calc 2 ^ 52 ≤ 100 * unitsPerOne := by decide +kernel
      _ ≤ 100 * wholeUnits part := Nat.mul_le_mul_left _ hone
  refine Nat.le_of_mul_le_mul_right ?_ unitsPerOne_pos
  calc hundredfold part * 2 ^ 53 * unitsPerOne = hundredfold part * unitsPerOne * 2 ^ 53 := by ring
    _ ≤ wholeUnits 100 * wholeUnits part * (2 ^ 53 + 1) := rounded_mul_le unitsPerOne_pos hlarge
    _ = 100 * wholeUnits part * (2 ^ 53 + 1) * unitsPerOne := by rw [wholeUnits_hundred]; ring

theorem hundredfold_zero : hundredfold 0 = 0 := hundredfold_of_lt (by decide)

/-- A percentage is at most the number next to 100. -/
theorem percentUnits_le (h : part ≤ whole) (hpos : 0 < whole) :
    percentUnits part whole ≤ (100 * 2 ^ 46 + 1) <<< 1028 := by
  have hden := unitsPerOne_pos.trans_le (unitsPerOne_le_wholeUnits hpos)
  refine rounded_le (by decide) hden ?_
  rcases Nat.eq_zero_or_pos part with rfl | hpart
  · simp [hundredfold_zero]
  · have habove : (100 * 2 ^ 46 + 1) <<< 1028 * 2 ^ 46 = (100 * 2 ^ 46 + 1) * unitsPerOne := by
      decide +kernel
    have hbound := hundredfold_mul_le hpart
    have hmono := wholeUnits_mono h
    have hstep : hundredfold part * 2 ^ 46 ≤ (100 * 2 ^ 46 + 1) * wholeUnits whole := by linarith
    refine Nat.le_of_mul_le_mul_right ?_ (show 0 < 2 ^ 46 by decide)
    calc
      hundredfold part * unitsPerOne * 2 ^ 46 = hundredfold part * 2 ^ 46 * unitsPerOne := by ring
      _ ≤ (100 * 2 ^ 46 + 1) * wholeUnits whole * unitsPerOne := Nat.mul_le_mul_right _ hstep
      _ = (100 * 2 ^ 46 + 1) * unitsPerOne * wholeUnits whole := by ring
      _ = (100 * 2 ^ 46 + 1) <<< 1028 * 2 ^ 46 * wholeUnits whole := by rw [habove]
      _ = (100 * 2 ^ 46 + 1) <<< 1028 * wholeUnits whole * 2 ^ 46 := by ring

/-- Of a whole that is not too large, a percentage is at most 100. -/
theorem percentUnits_le_hundred (h : part ≤ whole) (hpos : 0 < whole)
    (hlt : 100 * whole < 2 ^ 53) : percentUnits part whole ≤ wholeUnits 100 := by
  have hden := unitsPerOne_pos.trans_le (unitsPerOne_le_wholeUnits hpos)
  rw [wholeUnits_hundred, mul_unitsPerOne]
  refine rounded_le (by decide) hden ?_
  rw [← mul_unitsPerOne, hundredfold_of_lt (by omega), wholeUnits_of_lt (by omega)]
  calc 100 * part * unitsPerOne * unitsPerOne ≤ 100 * whole * unitsPerOne * unitsPerOne := by gcongr
    _ = 100 * unitsPerOne * (whole * unitsPerOne) := by ring

end

section
variable {part whole : UInt64}

theorem percentage_is (part : UInt64) (h : whole ≠ 0) :
    (percentage part whole).Is (percentUnits part.toNat whole.toNat) := by
  have hpos : 0 < whole.toNat := Nat.pos_of_ne_zero fun hz => h (UInt64.toNat_inj.1 hz)
  have hone := unitsPerOne_le_wholeUnits hpos
  have hproduct : wholeUnits 100 * wholeUnits part.toNat / unitsPerOne < bound := by
    rw [product_div]
    calc 100 * wholeUnits part.toNat ≤ 100 * 1 <<< 1138 :=
          Nat.mul_le_mul_left _ (wholeUnits_le part.toNat_lt)
      _ < bound := by decide +kernel
  have hquotient : hundredfold part.toNat * unitsPerOne / wholeUnits whole.toNat < bound := by
    calc hundredfold part.toNat * unitsPerOne / wholeUnits whole.toNat
        ≤ hundredfold part.toNat * wholeUnits whole.toNat / wholeUnits whole.toNat :=
          Nat.div_le_div_right (Nat.mul_le_mul_left _ hone)
      _ = hundredfold part.toNat := Nat.mul_div_cancel _ (unitsPerOne_pos.trans_le hone)
      _ ≤ 1 <<< 1145 := hundredfold_le part.toNat_lt
      _ < bound := by decide +kernel
  rw [percentage, if_neg h]
  exact ((ofNat_is (by decide)).mul (ofNat_is part.toNat_lt) hproduct).div
    (ofNat_is whole.toNat_lt) (unitsPerOne_pos.trans_le hone) hquotient

theorem zero_is : Binary64.zero.Is 0 := ⟨0, 0, rfl, rfl⟩

/-- A part that is at most its whole has a percentage. -/
theorem isPercentage_percentage (h : part ≤ whole) :
    IsPercentage (percentage part whole) whole := by
  by_cases hz : whole = 0
  · rw [percentage, if_pos hz]
    exact ⟨by decide +kernel, by decide +kernel, fun _ => by decide +kernel⟩
  · have hpos : 0 < whole.toNat := Nat.pos_of_ne_zero fun h => hz (UInt64.toNat_inj.1 h)
    have his := percentage_is part hz
    refine ⟨(zero_is.le_iff his).2 (Nat.zero_le _),
      (his.le_iff ⟨_, _, rfl, rfl⟩).2 (percentUnits_le h hpos), fun hlt => ?_⟩
    exact (his.le_iff (ofNat_is (by decide))).2 (percentUnits_le_hundred h hpos hlt)

end

end TestSynth.Coverage
