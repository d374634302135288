import GuestBridge.Proofs.Number.Rounding

/-!
# The shortest decimal lies in the interval

Of a positive finite number, `Binary64.shortest` finds a decimal in the interval within the
grids that it looks at: on the finest of them, the step is at most a quarter of the unit of
the number.
-/

namespace GuestBridge

/-- The rational that a decimal stands for. -/
def Decimal.value (d : Decimal) : ℚ :=
  d.digits * 10 ^ d.exponent

namespace Binary64

variable {x : Binary64} {tie : Tie}

/-- A power of ten as a quotient. -/
theorem ten_pow_div (k : Int) :
    ((Nat.pow 10 k.toNat : Nat) : ℚ) / (Nat.pow 10 (-k).toNat : Nat) = 10 ^ k := by
  rcases Int.le_total 0 k with hk | hk
  · obtain ⟨n, rfl⟩ := Int.eq_ofNat_of_zero_le hk
    simp
  · obtain ⟨n, rfl⟩ := Int.exists_eq_neg_ofNat hk
    simp

/-- A power of two as a quotient. -/
private theorem scaled_one_div (e : Int) : ((scaled 1 e).1 : ℚ) / (scaled 1 e).2 = 2 ^ e := by
  simpa using scaled_div 1 e

/-- What a number in the interval is multiplied with before it is compared with a grid. -/
private def up (x : Binary64) (k : Int) : Nat :=
  (scaled 1 x.interval.2.2.2).1 * Nat.pow 10 (-k).toNat

/-- What a point of a grid is multiplied with before it is compared with the interval. -/
private def down (x : Binary64) (k : Int) : Nat :=
  (scaled 1 x.interval.2.2.2).2 * Nat.pow 10 k.toNat

/-- The step of a grid in units of the interval is the quotient of the two factors. -/
private theorem down_div_up (x : Binary64) (k : Int) :
    0 < x.up k ∧ 0 < x.down k ∧ (x.down k : ℚ) / x.up k = 10 ^ k / 2 ^ (x.exponent - 2) := by
  have hten := fun n ↦ Nat.pow_pos (n := n) (by decide : 0 < 10)
  have hup : 0 < (scaled 1 x.interval.2.2.2).1 := by simp [scaled]
  refine ⟨Nat.mul_pos hup (hten _), Nat.mul_pos (scaled_snd_pos _ _) (hten _), ?_⟩
  rw [← ten_pow_div k, show x.exponent - 2 = x.interval.2.2.2 from rfl, ← scaled_one_div]
  have hden := scaled_snd_pos 1 x.interval.2.2.2
  have hlow := hten (-k).toNat
  unfold up down
  push_cast
  field_simp

/-- The test that a point of a grid passes if it reads back. -/
private def inside (x : Binary64) (k : Int) (c : Nat) : Bool :=
  if x.significand % 2 = 0 then
    x.interval.1 * x.up k ≤ c * x.down k && c * x.down k ≤ x.interval.2.2.1 * x.up k
  else x.interval.1 * x.up k < c * x.down k && c * x.down k < x.interval.2.2.1 * x.up k

/-- The point of a grid below a number. -/
private def below (x : Binary64) (k : Int) : Nat :=
  x.interval.2.1 * x.up k / x.down k

/-- The candidate is one of the two points around the number, if one passes the test. -/
private theorem candidate_eq (tie : Tie) (x : Binary64) (k : Int) :
    ∃ upper : Bool, x.candidate tie k =
      if x.inside k (x.below k) && x.inside k (x.below k + 1) then
        some (if upper then x.below k + 1 else x.below k)
      else if x.inside k (x.below k) then some (x.below k)
      else if x.inside k (x.below k + 1) then some (x.below k + 1)
      else none :=
  ⟨_, rfl⟩

/-- A candidate passes the test. -/
private theorem inside_of_candidate {k : Int} {c : Nat} (h : x.candidate tie k = some c) :
    x.inside k c := by
  obtain ⟨upper, hcandidate⟩ := candidate_eq tie x k
  rw [hcandidate] at h
  cases hfirst : x.inside k (x.below k) <;> cases hsecond : x.inside k (x.below k + 1) <;>
    cases upper <;> simp_all

/-- A point of a grid passes the test only if its decimal lies in the interval. -/
private theorem near_of_inside {k : Int} {c : Nat} (h : x.inside k c) :
    x.Near (c * 10 ^ k) := by
  obtain ⟨hup, hdown, hquotient⟩ := x.down_div_up k
  have hup' : (0 : ℚ) < x.up k := by exact_mod_cast hup
  have htwo : (0 : ℚ) < 2 ^ (x.exponent - 2) := by positivity
  have hpoint : (c : ℚ) * 10 ^ k = c * x.down k / x.up k * 2 ^ (x.exponent - 2) := by
    rw [mul_div_assoc, hquotient]
    field_simp
  unfold Near
  rw [hpoint, show x.interval.2.2.2 = x.exponent - 2 from rfl, mul_le_mul_iff_left₀ htwo,
    mul_le_mul_iff_left₀ htwo, mul_lt_mul_iff_left₀ htwo, mul_lt_mul_iff_left₀ htwo,
    le_div_iff₀ hup', div_le_iff₀ hup', lt_div_iff₀ hup', div_lt_iff₀ hup']
  unfold inside at h
  split at h
  · next heven =>
    simp only [Bool.and_eq_true, decide_eq_true_eq] at h
    exact ⟨by exact_mod_cast h.1, by exact_mod_cast h.2, fun hodd ↦ by omega⟩
  · next hodd =>
    simp only [Bool.and_eq_true, decide_eq_true_eq] at h
    exact ⟨by exact_mod_cast h.1.le, by exact_mod_cast h.2.le,
      fun _ ↦ ⟨by exact_mod_cast h.1, by exact_mod_cast h.2⟩⟩

/-- A positive number lies inside of its interval. -/
private theorem interval_lt (hm : 0 < x.significand) :
    x.interval.1 < x.interval.2.1 ∧ x.interval.2.1 < x.interval.2.2.1 := by
  simp only [interval]
  split <;> omega

/-- There is a candidate on a grid whose step is at most a quarter of the unit. -/
private theorem candidate_isSome {k : Int} (hm : 0 < x.significand)
    (h : (10 : ℚ) ^ k ≤ 2 ^ (x.exponent - 2)) :
    (x.candidate tie k).isSome := by
  obtain ⟨hup, hdown, hquotient⟩ := x.down_div_up k
  have hle : x.down k ≤ x.up k := by
    have hup' : (0 : ℚ) < x.up k := by exact_mod_cast hup
    have hone : (x.down k : ℚ) / x.up k ≤ 1 := by
      rw [hquotient]
      exact div_le_one_of_le₀ h (by positivity)
    rw [div_le_one hup'] at hone
    exact_mod_cast hone
  have hfloor := Nat.div_add_mod (x.interval.2.1 * x.up k) (x.down k)
  have hmod := Nat.mod_lt (x.interval.2.1 * x.up k) hdown
  obtain ⟨hlt, hlt'⟩ := interval_lt hm
  have hlow : x.interval.1 * x.up k + x.up k ≤ x.interval.2.1 * x.up k := by
    rw [← Nat.succ_mul]
    exact Nat.mul_le_mul_right _ hlt
  have hhigh : x.interval.2.1 * x.up k < x.interval.2.2.1 * x.up k :=
    Nat.mul_lt_mul_of_pos_right hlt' hup
  have hinside : x.inside k (x.below k) := by
    unfold inside below
    rw [Nat.mul_comm (x.interval.2.1 * x.up k / x.down k)]
    split <;> simp only [Bool.and_eq_true, decide_eq_true_eq] <;> omega
  obtain ⟨upper, hcandidate⟩ := candidate_eq tie x k
  rw [hcandidate, hinside]
  split <;> simp

/-- The candidate that is taken lies in the interval, if there is one on the grids. -/
private theorem coarsest_spec {fuel i : Nat} {k : Int} (hi : i < fuel)
    (h : (x.candidate tie (k - i)).isSome) : x.Near (x.coarsest tie fuel k).value := by
  induction fuel generalizing i k with
  | zero => omega
  | succ fuel ih =>
    unfold coarsest
    cases hc : x.candidate tie k with
    | some c => exact near_of_inside (inside_of_candidate hc)
    | none =>
      cases i with
      | zero => simp [hc] at h
      | succ i =>
        refine ih (i := i) (by omega) ?_
        rwa [show k - 1 - (i : Int) = k - (i + 1 : Nat) by omega]

/-- The power of ten of the finest grid, in terms of the logarithm of a number. -/
private def finest (magnitude : Int) : Int :=
  magnitude * 30103 / 100000 - 21

/-- A power of ten is at most a power of two if this is so for some power of both. -/
private theorem ten_zpow_le {k e : Int} {n : Nat} (hn : n ≠ 0)
    (h : ((10 : ℚ) ^ n) ^ k ≤ 2 ^ (n * e)) : (10 : ℚ) ^ k ≤ 2 ^ e := by
  rw [← pow_le_pow_iff_left₀ (by positivity) (by positivity) hn]
  calc ((10 : ℚ) ^ k) ^ n = ((10 : ℚ) ^ n) ^ k := by
        rw [← zpow_natCast, ← zpow_natCast, ← zpow_mul, ← zpow_mul, Int.mul_comm]
    _ ≤ 2 ^ (n * e) := h
    _ = ((2 : ℚ) ^ e) ^ n := by rw [← zpow_natCast, ← zpow_mul, Int.mul_comm]

/-- The finest grid is fine enough for all numbers of a magnitude that occurs. -/
private theorem ten_pow_finest_le {magnitude : Int} (hlow : -1074 ≤ magnitude)
    (hhigh : magnitude ≤ 1024) : (10 : ℚ) ^ finest magnitude ≤ 2 ^ (magnitude - 54) := by
  have hfinest : finest magnitude = magnitude * 30103 / 100000 - 21 := rfl
  rcases Int.le_total 0 (finest magnitude) with hk | hk
  · -- For large numbers ten is taken for a third of a power of two.
    apply ten_zpow_le (n := 3) (by decide)
    calc ((10 : ℚ) ^ 3) ^ finest magnitude ≤ (2 ^ 10) ^ finest magnitude :=
          zpow_le_zpow_left₀ hk (by norm_num) (by norm_num)
      _ = 2 ^ (10 * finest magnitude) := by rw [← zpow_natCast, ← zpow_mul]; rfl
      _ ≤ 2 ^ (3 * (magnitude - 54)) := zpow_le_zpow_right₀ (by norm_num) (by omega)
  · -- For small ones its tenth power is more than another one.
    apply ten_zpow_le (n := 10) (by decide)
    obtain ⟨n, hn⟩ := Int.exists_eq_neg_ofNat hk
    calc ((10 : ℚ) ^ 10) ^ finest magnitude = (((10 : ℚ) ^ 10) ^ n)⁻¹ := by
          rw [hn, zpow_neg, zpow_natCast]
      _ ≤ (((2 : ℚ) ^ 33) ^ n)⁻¹ :=
          inv_anti₀ (by positivity) (pow_le_pow_left₀ (by norm_num) (by norm_num) n)
      _ = 2 ^ (33 * finest magnitude) := by
          rw [hn, zpow_mul, zpow_neg, zpow_natCast]; rfl
      _ ≤ 2 ^ (10 * (magnitude - 54)) := zpow_le_zpow_right₀ (by norm_num) (by omega)

/-- The shortest decimal of a positive finite number lies in its interval. -/
theorem near_shortest (tie : Tie) (hm : 0 < x.significand) :
    x.Near (x.shortest tie).value := by
  have hbits : Nat.log2 x.significand ≤ 52 := by
    have hlt : Nat.log2 x.significand < 53 :=
      (Nat.log2_lt (Nat.ne_of_gt hm)).2 (significand_lt x)
    omega
  have hleast := neg_1074_le_exponent x
  have hgreatest : x.exponent ≤ 972 := by
    have hfield : x.exponentField < 0x800 := Nat.mod_lt _ (by decide)
    unfold exponent
    split <;> omega
  have hfine : (10 : ℚ) ^ finest (Nat.log2 x.significand + x.exponent) ≤
      2 ^ (x.exponent - 2) :=
    (ten_pow_finest_le (by omega) (by omega)).trans
      (zpow_le_zpow_right₀ (by norm_num) (by omega))
  rw [shortest, if_neg (Nat.ne_of_gt hm)]
  -- The last of the 24 grids is the finest one.
  apply coarsest_spec (i := 23) (by decide)
  apply candidate_isSome hm
  rwa [show ((Nat.log2 x.significand : Int) + x.exponent) * 30103 / 100000 + 2 - (23 : Nat) =
    finest (Nat.log2 x.significand + x.exponent) by unfold finest; omega]

end Binary64

end GuestBridge
