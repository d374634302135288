import GuestBridge.Proofs.Number.Rounding
import Mathlib.Data.Nat.Cast.Field

/-!
# Whole numbers

The exact value of a floating-point number, and which numbers are whole: their integer part is
their value.
-/

namespace GuestBridge.Binary64

variable {x : Binary64}

/-- The exact value of a finite number. -/
def value? (x : Binary64) : Option ℚ :=
  if x.isFinite then
    some ((if x.negative then -1 else 1) * (x.significand * 2 ^ x.exponent))
  else none

/-- The value of a whole number is its integer part. -/
theorem value?_of_isIntegral (h : x.isIntegral) : x.value? = some (x.truncate : ℚ) := by
  obtain ⟨hfinite, hmod⟩ : x.isFinite ∧
      (scaled x.significand x.exponent).1 % (scaled x.significand x.exponent).2 = 0 := by
    simpa [isIntegral] using h
  have hden := scaled_snd_pos x.significand x.exponent
  have hquotient : ((((scaled x.significand x.exponent).1 /
      (scaled x.significand x.exponent).2 : Nat)) : ℚ) = x.significand * 2 ^ x.exponent := by
    rw [Nat.cast_div (Nat.dvd_of_mod_eq_zero hmod) (by exact_mod_cast hden.ne'), scaled_div]
  rw [value?, if_pos hfinite, ← hquotient, truncate]
  cases x.negative with
  | false =>
    rw [if_neg Bool.false_ne_true, one_mul]
    rfl
  | true =>
    rw [if_pos rfl, neg_one_mul]
    exact congrArg some (Int.cast_neg _).symm

/-- A number whose value is an integer is whole. -/
theorem isIntegral_of_value? {n : Int} (h : x.value? = some (n : ℚ)) : x.isIntegral := by
  have hden : (0 : ℚ) < (scaled x.significand x.exponent).2 := by
    exact_mod_cast scaled_snd_pos x.significand x.exponent
  unfold value? at h
  split at h
  · next hfinite =>
    have habs : x.significand * (2 : ℚ) ^ x.exponent = (n.natAbs : ℚ) := by
      have hpos : (0 : ℚ) ≤ x.significand * 2 ^ x.exponent := by positivity
      have hvalue := congrArg abs (Option.some.inj h)
      rw [abs_mul, abs_of_nonneg hpos] at hvalue
      rw [Nat.cast_natAbs, Int.cast_abs, ← hvalue]
      split <;> simp
    rw [← scaled_div, div_eq_iff hden.ne'] at habs
    have hmul : (scaled x.significand x.exponent).1 =
        n.natAbs * (scaled x.significand x.exponent).2 := by exact_mod_cast habs
    simp [isIntegral, hfinite, hmul]
  · cases h

/-- A number whose value is an integer has it as its integer part. -/
theorem truncate_of_value? {n : Int} (h : x.value? = some (n : ℚ)) : x.truncate = n := by
  have hvalue := value?_of_isIntegral (isIntegral_of_value? h)
  rw [h] at hvalue
  exact_mod_cast (Option.some.inj hvalue).symm

end GuestBridge.Binary64
