import GuestBridge.Number.Binary64

/-!
# The fields of a number

The bits of a number are its sign, its exponent and its fraction; a finite number is its sign
and its magnitude, and an infinity has only a sign.
-/

namespace GuestBridge.Binary64

variable {x : Binary64}

/-- The significand has at most 53 bits. -/
theorem significand_lt (x : Binary64) : x.significand < 0x20000000000000 := by
  have hfraction : x.fractionField < 0x10000000000000 := Nat.mod_lt _ (by decide)
  unfold significand
  split <;> omega

/-- The least exponent. -/
theorem neg_1074_le_exponent (x : Binary64) : -1074 ≤ x.exponent := by
  unfold exponent
  split <;> omega

/-- Above the least exponent, the significand has all its bits. -/
theorem two_pow_le_significand (h : -1074 < x.exponent) : 0x10000000000000 ≤ x.significand := by
  unfold exponent at h
  unfold significand
  split <;> simp_all

/-- The bits of a number are its fields. -/
private theorem bits_eq (x : Binary64) :
    x.exponentField * 0x10000000000000 + x.fractionField +
      (if x.negative then 0x8000000000000000 else 0) = x.bits.toNat := by
  have hlt := x.bits.toNat_lt
  simp only [negative, exponentField, fractionField, decide_eq_true_eq]
  generalize x.bits.toNat = n at hlt ⊢
  split <;> omega

/-- A finite number is its sign and its magnitude. -/
theorem ofMagnitude_eq (h : x.isFinite) :
    ofMagnitude x.negative ((x.exponent + 1074).toNat * 0x10000000000000 + x.significand) = x ∧
      (x.exponent + 1074).toNat * 0x10000000000000 + x.significand < 2047 * 0x10000000000000 := by
  have hfinite : x.exponentField ≠ 2047 := by simpa [isFinite] using h
  have hfield : x.exponentField < 0x800 := Nat.mod_lt _ (by decide)
  have hfraction : x.fractionField < 0x10000000000000 := Nat.mod_lt _ (by decide)
  have hmagnitude : (x.exponent + 1074).toNat * 0x10000000000000 + x.significand =
      x.exponentField * 0x10000000000000 + x.fractionField := by
    unfold exponent significand
    split <;> omega
  rw [hmagnitude]
  refine ⟨?_, by omega⟩
  rw [ofMagnitude, bits_eq, UInt64.ofNat_toNat]

/-- An infinity is the one with its sign. -/
theorem eq_infinity (h : x.isInfinite) : x = infinity x.negative := by
  obtain ⟨hexponent, hfraction⟩ : x.exponentField = 2047 ∧ x.fractionField = 0 := by
    simpa [isInfinite] using h
  have hbits := bits_eq x
  rw [hexponent, hfraction] at hbits
  cases x with
  | mk bits => rw [infinity, ofMagnitude, ← Nat.add_zero (2047 * _), hbits, UInt64.ofNat_toNat]

end GuestBridge.Binary64
