import GuestBridge.Number.Shortest
import GuestBridge.Proofs.Number.Fields
import Mathlib.Algebra.Order.Field.Power
import Mathlib.Data.Rat.Cast.Order
import Mathlib.Tactic.FieldSimp
import Mathlib.Tactic.Linarith
import Mathlib.Tactic.Positivity
import Mathlib.Tactic.Ring

/-!
# Rounding to the nearest number

A quotient is rounded to the number whose interval holds it. The interval of a number reaches
halfway to its two neighbours; its ends belong to it if the significand is even.
-/

namespace GuestBridge.Binary64

variable {x : Binary64}

/-! ### Scaling -/

/-- A scaled natural is a quotient. -/
theorem scaled_div (n : Nat) (e : Int) :
    ((scaled n e).1 : ℚ) / (scaled n e).2 = n * (2 : ℚ) ^ e := by
  rcases Int.le_total 0 e with he | he
  · obtain ⟨k, rfl⟩ := Int.eq_ofNat_of_zero_le he
    simp [scaled]
  · obtain ⟨k, hk⟩ := Int.exists_eq_neg_ofNat he
    subst hk
    simp [scaled, div_eq_mul_inv]

/-- The denominator of a scaled natural. -/
theorem scaled_snd_pos (n : Nat) (e : Int) : 0 < (scaled n e).2 :=
  Nat.pow_pos (by decide)

/-- A natural in terms of its logarithm. -/
private theorem log2_bounds {n : Nat} (h : 0 < n) :
    (2 : ℚ) ^ (Nat.log2 n : Int) ≤ n ∧ (n : ℚ) < 2 ^ ((Nat.log2 n : Int) + 1) := by
  constructor
  · exact_mod_cast Nat.log2_self_le (Nat.ne_of_gt h)
  · exact_mod_cast Nat.lt_log2_self (n := n)

/-- The exponent of a quotient of naturals. -/
theorem floorLog2_spec {num den : Nat} (hnum : 0 < num) (hden : 0 < den) :
    (2 : ℚ) ^ floorLog2 num den ≤ num / den ∧
      (num : ℚ) / den < 2 ^ (floorLog2 num den + 1) := by
  have hpos : (0 : ℚ) < den := by exact_mod_cast hden
  obtain ⟨hlow, hhigh⟩ := log2_bounds hnum
  obtain ⟨hlow', hhigh'⟩ := log2_bounds hden
  rw [le_div_iff₀ hpos, div_lt_iff₀ hpos]
  have htest : (den * (scaled num (-((Nat.log2 num : Int) - Nat.log2 den))).2 ≤
      (scaled num (-((Nat.log2 num : Int) - Nat.log2 den))).1) ↔
        (2 : ℚ) ^ ((Nat.log2 num : Int) - Nat.log2 den) * den ≤ num := by
    generalize (Nat.log2 num : Int) - Nat.log2 den = k
    have hscaled := scaled_div num (-k)
    have hsnd : (0 : ℚ) < (scaled num (-k)).2 := by exact_mod_cast scaled_snd_pos num (-k)
    rw [← Nat.cast_le (α := ℚ), Nat.cast_mul, ← le_div_iff₀ hsnd, hscaled, zpow_neg,
      ← div_eq_mul_inv, le_div_iff₀ (by positivity), mul_comm]
  unfold floorLog2
  simp only
  split
  · next hle =>
    refine ⟨htest.1 hle, ?_⟩
    calc (num : ℚ) < 2 ^ ((Nat.log2 num : Int) + 1) := hhigh
      _ = 2 ^ ((Nat.log2 num : Int) - Nat.log2 den + 1) * 2 ^ (Nat.log2 den : Int) := by
        rw [← zpow_add₀ (by norm_num)]
        congr 1
        omega
      _ ≤ 2 ^ ((Nat.log2 num : Int) - Nat.log2 den + 1) * den := by gcongr
  · next hlt =>
    have hless : (num : ℚ) < 2 ^ ((Nat.log2 num : Int) - Nat.log2 den) * den :=
      not_le.1 fun h ↦ hlt (htest.2 h)
    refine ⟨?_, by rwa [sub_add_cancel]⟩
    calc (2 : ℚ) ^ ((Nat.log2 num : Int) - Nat.log2 den - 1) * den
        ≤ 2 ^ ((Nat.log2 num : Int) - Nat.log2 den - 1) * 2 ^ ((Nat.log2 den : Int) + 1) := by
          gcongr
      _ = 2 ^ (Nat.log2 num : Int) := by
        rw [← zpow_add₀ (by norm_num)]
        congr 1
        omega
      _ ≤ num := hlow

/-- A quotient has one exponent. -/
theorem floorLog2_eq {num den : Nat} {k : Int} (hnum : 0 < num) (hden : 0 < den)
    (hlow : (2 : ℚ) ^ k ≤ num / den) (hhigh : (num : ℚ) / den < 2 ^ (k + 1)) :
    floorLog2 num den = k := by
  obtain ⟨hlow', hhigh'⟩ := floorLog2_spec hnum hden
  have hup := (zpow_lt_zpow_iff_right₀ (by norm_num : (1 : ℚ) < 2)).1 (hlow.trans_lt hhigh')
  have hdown := (zpow_lt_zpow_iff_right₀ (by norm_num : (1 : ℚ) < 2)).1 (hlow'.trans_lt hhigh)
  omega

/-! ### The nearest natural -/

/-- A quotient is rounded to a natural that is nearer than any other. In a tie, it must be
even. -/
theorem roundQuotient_eq {num den s : Nat} (hden : 0 < den)
    (hlow : 2 * (den * s) ≤ 2 * num + den) (hhigh : 2 * num ≤ 2 * (den * s) + den)
    (hodd : s % 2 = 1 → 2 * (den * s) ≠ 2 * num + den ∧ 2 * num ≠ 2 * (den * s) + den) :
    roundQuotient num den = s := by
  have hdivision := Nat.div_add_mod num den
  have hmod := Nat.mod_lt num hden
  have hge : num / den ≤ s := by
    by_contra h
    have hmul : den * (s + 1) ≤ den * (num / den) := Nat.mul_le_mul_left den (by omega)
    rw [Nat.mul_add, Nat.mul_one] at hmul
    omega
  have hle : s ≤ num / den + 1 := by
    by_contra h
    have hmul : den * (num / den + 2) ≤ den * s := Nat.mul_le_mul_left den (by omega)
    rw [Nat.mul_add] at hmul
    omega
  unfold roundQuotient
  obtain rfl | rfl : s = num / den ∨ s = num / den + 1 := by omega
  · simp only
    split
    · rfl
    · split
      · omega
      · split
        · rfl
        · have htie := hodd (by omega)
          omega
  · rw [Nat.mul_add, Nat.mul_one] at hlow hhigh hodd
    simp only
    split
    · omega
    · split
      · rfl
      · split
        · have htie := hodd (by omega)
          omega
        · rfl

/-- A rational lies nearer to a natural than to any other; in a tie, the natural is even. -/
private def RoundsTo (t : ℚ) (s : Nat) : Prop :=
  (s : ℚ) - 1 / 2 ≤ t ∧ t ≤ s + 1 / 2 ∧ (s % 2 = 1 → (s : ℚ) - 1 / 2 < t ∧ t < s + 1 / 2)

/-- A quotient is rounded to the natural that it lies nearest to. -/
private theorem roundQuotient_of_roundsTo {num den s : Nat} (hden : 0 < den)
    (h : RoundsTo ((num : ℚ) / den) s) : roundQuotient num den = s := by
  have hpos : (0 : ℚ) < den := by exact_mod_cast hden
  obtain ⟨hlow, hhigh, hodd⟩ := h
  rw [le_div_iff₀ hpos] at hlow
  rw [div_le_iff₀ hpos] at hhigh
  rw [lt_div_iff₀ hpos, div_lt_iff₀ hpos] at hodd
  apply roundQuotient_eq hden
  · have hcast : (2 * (den * s) : ℚ) ≤ 2 * num + den := by linarith
    exact_mod_cast hcast
  · have hcast : (2 * num : ℚ) ≤ 2 * (den * s) + den := by linarith
    exact_mod_cast hcast
  · intro hone
    obtain ⟨hless, hmore⟩ := hodd hone
    constructor
    · intro heq
      have hcast : (2 * (den * s) : ℚ) = 2 * num + den := by exact_mod_cast heq
      linarith
    · intro heq
      have hcast : (2 * num : ℚ) = 2 * (den * s) + den := by exact_mod_cast heq
      linarith

/-- A quotient is rounded in the unit of its exponent. -/
private theorem ofRatio_of_roundsTo {negative : Bool} {num den s : Nat} {u : Int} {t : ℚ}
    (hnum : 0 < num) (hden : 0 < den) (hunit : max (floorLog2 num den - 52) (-1074) = u)
    (ht : (num : ℚ) / den = t * 2 ^ u) (hs : RoundsTo t s) :
    ofRatio negative num den = ofMagnitude negative
      (min ((u + 1074).toNat * 0x10000000000000 + s) (2047 * 0x10000000000000)) := by
  have hscaled := scaled_div num (-u)
  have hsnd := scaled_snd_pos num (-u)
  have hquotient : ((scaled num (-u)).1 : ℚ) / (den * (scaled num (-u)).2 : Nat) = t := by
    rw [Nat.cast_mul, mul_comm, ← div_div, hscaled, mul_div_right_comm, ht, mul_assoc,
      ← zpow_add₀ (by norm_num)]
    simp
  have hround : roundQuotient (scaled num (-u)).1 (den * (scaled num (-u)).2) = s :=
    roundQuotient_of_roundsTo (Nat.mul_pos hden hsnd) (by rwa [hquotient])
  rw [ofRatio, if_neg (Nat.ne_of_gt hnum)]
  simp only [hunit, hround]

/-! ### Intervals -/

/-- A rational lies in the interval of a positive finite number. -/
def Near (x : Binary64) (q : ℚ) : Prop :=
  (x.interval.1 : ℚ) * 2 ^ x.interval.2.2.2 ≤ q ∧ q ≤ x.interval.2.2.1 * 2 ^ x.interval.2.2.2 ∧
    (x.significand % 2 = 1 → (x.interval.1 : ℚ) * 2 ^ x.interval.2.2.2 < q ∧
      q < x.interval.2.2.1 * 2 ^ x.interval.2.2.2)

/-- A number next to a power of two has a nearer neighbour below. -/
private theorem interval_low (hexponent : -1074 < x.exponent) (h : x.significand = 2 ^ 52) :
    x.interval.1 = 4 * x.significand - 1 := by
  have hboth : x.fractionField = 0 ∧ 1 < x.exponentField := by
    have hfraction : x.fractionField < 0x10000000000000 := Nat.mod_lt _ (by decide)
    unfold significand at h
    unfold exponent at hexponent
    split at h <;> split at hexponent <;> omega
  simp [interval, hboth]

/-- The lower neighbour of a number is at most as far as the upper one. -/
private theorem le_interval_low (x : Binary64) :
    4 * x.significand - 2 ≤ x.interval.1 := by
  simp only [interval]
  split <;> omega

/-- What lies in the interval of a number, in terms of its exponent. -/
private theorem near_iff {t : ℚ} : x.Near (t * 2 ^ x.exponent) ↔
    (x.interval.1 : ℚ) ≤ 4 * t ∧ 4 * t ≤ 4 * x.significand + 2 ∧
      (x.significand % 2 = 1 → (x.interval.1 : ℚ) < 4 * t ∧ 4 * t < 4 * x.significand + 2) := by
  have hpos : (0 : ℚ) < 2 ^ (x.exponent - 2) := by positivity
  have hquarter : t * 2 ^ x.exponent = (4 * t) * 2 ^ (x.exponent - 2) := by
    rw [zpow_sub₀ (by norm_num)]
    ring
  have hhigh : (x.interval.2.2.1 : ℚ) = 4 * x.significand + 2 := by simp [interval]
  unfold Near
  rw [hquarter, show x.interval.2.2.2 = x.exponent - 2 from rfl, hhigh,
    mul_le_mul_iff_left₀ hpos, mul_le_mul_iff_left₀ hpos, mul_lt_mul_iff_left₀ hpos,
    mul_lt_mul_iff_left₀ hpos]

/-- What lies in the interval of a number is rounded to its significand. -/
private theorem Near.roundsTo {t : ℚ} (h : x.Near (t * 2 ^ x.exponent)) :
    RoundsTo t x.significand := by
  have hlow : (4 * x.significand - 2 : ℚ) ≤ x.interval.1 := by
    have hle := le_interval_low x
    have hsub : (4 * x.significand : ℚ) ≤ (x.interval.1 + 2 : Nat) := by
      exact_mod_cast (by omega : 4 * x.significand ≤ x.interval.1 + 2)
    push_cast at hsub
    linarith
  obtain ⟨hge, hle, hodd⟩ := near_iff.1 h
  refine ⟨by linarith, by linarith, fun hone ↦ ?_⟩
  obtain ⟨hless, hmore⟩ := hodd hone
  exact ⟨by linarith, by linarith⟩

/-- What lies in the interval of a power of two but below it is rounded to the power of two
in the unit of the smaller numbers. -/
private theorem Near.roundsTo_below {t : ℚ} (h : x.Near (t * 2 ^ x.exponent))
    (hexponent : -1074 < x.exponent) (ht : t < 2 ^ 52) :
    x.significand = 2 ^ 52 ∧ 2 ^ 51 ≤ t ∧ RoundsTo (2 * t) (2 ^ 53) := by
  obtain ⟨hlow, hhigh, -⟩ := h.roundsTo
  have hge : (2 ^ 52 : ℚ) ≤ x.significand := by
    norm_num
    exact_mod_cast two_pow_le_significand hexponent
  have hpower : x.significand = 2 ^ 52 := by
    have hlt : (x.significand : ℚ) < (2 ^ 52 + 1 : Nat) := by
      push_cast
      linarith
    have hlt' : x.significand < 2 ^ 52 + 1 := by exact_mod_cast hlt
    have hge' := two_pow_le_significand hexponent
    omega
  have hle := (near_iff.1 h).1
  rw [interval_low hexponent hpower, hpower] at hle
  norm_num at hle ht
  -- A tie goes up to the power of two, because it is even in the smaller unit as well.
  refine ⟨hpower, by norm_num; linarith, ?_, ?_, fun hone ↦ absurd hone (by decide)⟩
  · norm_num
    linarith
  · norm_num
    linarith

/-- What lies in the interval of a number is less than the next power of two. -/
private theorem RoundsTo.lt {t : ℚ} (h : RoundsTo t x.significand) : t < 2 ^ 53 := by
  have hlt : (x.significand + 1 : ℚ) ≤ (2 ^ 53 : Nat) := by
    norm_num
    exact_mod_cast significand_lt x
  have hle := h.2.1
  push_cast at hlt
  linarith

/-- The unit of what lies in the interval of a number, unless it is below a power of two. -/
private theorem unit_eq {num den : Nat} {t : ℚ} (hnum : 0 < num) (hden : 0 < den)
    (ht : (num : ℚ) / den = t * 2 ^ x.exponent) (hlt : t < 2 ^ 53)
    (hge : -1074 < x.exponent → 2 ^ 52 ≤ t) :
    max (floorLog2 num den - 52) (-1074) = x.exponent := by
  have hleast := neg_1074_le_exponent x
  have hpos : (0 : ℚ) < 2 ^ x.exponent := by positivity
  obtain ⟨hlow, hhigh⟩ := floorLog2_spec hnum hden
  have hbelow : floorLog2 num den < x.exponent + 53 := by
    rw [← zpow_lt_zpow_iff_right₀ (by norm_num : (1 : ℚ) < 2), zpow_add₀ (by norm_num)]
    calc (2 : ℚ) ^ floorLog2 num den ≤ t * 2 ^ x.exponent := ht ▸ hlow
      _ < 2 ^ 53 * 2 ^ x.exponent := by gcongr
      _ = 2 ^ x.exponent * 2 ^ (53 : Int) := by rw [mul_comm]; norm_cast
  by_cases hexponent : -1074 < x.exponent
  · have habove : x.exponent + 52 < floorLog2 num den + 1 := by
      rw [← zpow_lt_zpow_iff_right₀ (by norm_num : (1 : ℚ) < 2), zpow_add₀ (by norm_num)]
      calc (2 : ℚ) ^ x.exponent * 2 ^ (52 : Int) = 2 ^ 52 * 2 ^ x.exponent := by
            rw [mul_comm]; norm_cast
        _ ≤ t * 2 ^ x.exponent := by
          have hge' := hge hexponent
          gcongr
        _ < 2 ^ (floorLog2 num den + 1) := ht ▸ hhigh
    omega
  · omega

/-- What lies in the interval of a positive finite number is rounded to this number. -/
theorem ofRatio_eq {num den : Nat} (hx : x.isFinite) (hm : 0 < x.significand) (hden : 0 < den)
    (h : x.Near (num / den)) : ofRatio x.negative num den = x := by
  obtain ⟨hmagnitude, hfinite⟩ := ofMagnitude_eq hx
  have hleast := neg_1074_le_exponent x
  have htwo : (0 : ℚ) < 2 ^ x.exponent := by positivity
  obtain ⟨t, ht⟩ : ∃ t : ℚ, (num : ℚ) / den = t * 2 ^ x.exponent :=
    ⟨num / den / 2 ^ x.exponent, by field_simp⟩
  rw [ht] at h
  have hround := h.roundsTo
  have htpos : 0 < t := by
    have hone : (1 : ℚ) ≤ x.significand := by exact_mod_cast hm
    linarith [hround.1]
  have hnum : 0 < num := by
    rcases Nat.eq_zero_or_pos num with rfl | hpos
    · have hzero : t * 2 ^ x.exponent = 0 := by simpa using ht.symm
      have hprod := mul_pos htpos htwo
      linarith
    · exact hpos
  by_cases hbelow : -1074 < x.exponent ∧ t < 2 ^ 52
  -- Below a power of two the unit is half as large, and the significand twice as great.
  · obtain ⟨hpower, hge, hround'⟩ := h.roundsTo_below hbelow.1 hbelow.2
    have hhalf : (num : ℚ) / den = 2 * t * 2 ^ (x.exponent - 1) := by
      rw [ht, zpow_sub_one₀ (by norm_num)]
      ring
    have hunit : max (floorLog2 num den - 52) (-1074) = x.exponent - 1 := by
      have hlog : floorLog2 num den = x.exponent + 51 := by
        apply floorLog2_eq hnum hden
        · rw [ht, zpow_add₀ (by norm_num), mul_comm]
          gcongr
          exact_mod_cast hge
        · rw [ht, add_assoc, zpow_add₀ (by norm_num), mul_comm]
          gcongr
          exact_mod_cast hbelow.2
      omega
    rw [ofRatio_of_roundsTo hnum hden hunit hhalf hround']
    have hsame : (x.exponent - 1 + 1074).toNat * 0x10000000000000 + 2 ^ 53 =
        (x.exponent + 1074).toNat * 0x10000000000000 + x.significand := by omega
    rw [hsame, Nat.min_eq_left (Nat.le_of_lt hfinite), hmagnitude]
  · have hunit := unit_eq hnum hden ht hround.lt fun hexponent ↦
      not_lt.1 fun hlt ↦ hbelow ⟨hexponent, hlt⟩
    rw [ofRatio_of_roundsTo hnum hden hunit ht hround, Nat.min_eq_left (Nat.le_of_lt hfinite),
      hmagnitude]

end GuestBridge.Binary64
