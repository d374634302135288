import GuestBridge.Text.Blank
import GuestBridge.Text.Identifier

/-!
# Decimal digits

What the digits of a number are, and what they count for when they are read back.
-/

namespace GuestBridge.Text

/-- What holds for a character holds for the first one of a text that starts with it. -/
theorem forall_head?_cons {p : Char → Prop} {c : Char} (h : p c) (cs : List Char) :
    ∀ d ∈ (c :: cs).head?, p d := by
  intro d hd
  obtain rfl : c = d := by simpa using hd
  exact h

/-- A text is separated from what is behind it where a property ends. -/
theorem span_append {p : Char → Bool} {front rest : List Char} (hfront : ∀ c ∈ front, p c)
    (hrest : ∀ c ∈ rest.head?, p c = false) :
    (front ++ rest).takeWhile p = front ∧ (front ++ rest).dropWhile p = rest := by
  rw [List.takeWhile_append_of_pos hfront, List.dropWhile_append_of_pos hfront]
  cases rest with
  | nil => simp
  | cons c rest => simp [hrest c rfl]

/-- The two notions of a decimal digit agree. -/
theorem isAsciiDigit_eq (c : Char) : isAsciiDigit c = c.isDigit := by
  simp [isAsciiDigit, Char.isDigit, Char.le_def]

/-- The digits of a number are decimal digits. -/
theorem isAsciiDigit_of_mem_toDigits {n : Nat} {c : Char} (h : c ∈ Nat.toDigits 10 n) :
    isAsciiDigit c := by
  rw [isAsciiDigit_eq]
  exact Nat.isDigit_of_mem_toDigits (by decide) (by decide) h

/-- A decimal digit is not blank. -/
theorem isBlank_of_isAsciiDigit {c : Char} (h : isAsciiDigit c) : isBlank c = false := by
  simp only [isAsciiDigit, Bool.and_eq_true, decide_eq_true_eq, Char.le_def,
    UInt32.le_iff_toNat_le] at h
  have hlow : ('0' : Char).val.toNat = 48 := rfl
  have hhigh : ('9' : Char).val.toNat = 57 := rfl
  simp only [isBlank, Char.toNat, Bool.or_eq_false_iff, Bool.and_eq_false_iff,
    decide_eq_false_iff_not]
  omega

/-- A text has no digit in front. -/
def NoDigit (cs : List Char) : Prop :=
  ∀ c ∈ cs.head?, isAsciiDigit c = false

/-- The first of some digits or of what comes behind them. -/
theorem head?_digits_append {n : Nat} (rest : List Char) :
    (Nat.toDigits 10 n ++ rest).head? = (Nat.toDigits 10 n).head? := by
  cases h : Nat.toDigits 10 n with
  | nil => exact absurd h Nat.toDigits_ne_nil
  | cons c cs => rfl

/-- There is a first digit. -/
theorem exists_head?_toDigits (n : Nat) :
    ∃ c, (Nat.toDigits 10 n).head? = some c ∧ isAsciiDigit c := by
  cases h : Nat.toDigits 10 n with
  | nil => exact absurd h Nat.toDigits_ne_nil
  | cons c cs => exact ⟨c, rfl, isAsciiDigit_of_mem_toDigits (n := n) (by simp [h])⟩

/-- The digits of a positive number do not start with a zero. -/
theorem head?_toDigits_ne_zero {n : Nat} (h : 0 < n) :
    (Nat.toDigits 10 n).head? ≠ some '0' := by
  induction n using Nat.strongRecOn with
  | ind n ih =>
    rw [Nat.toDigits_eq_if (by decide)]
    split
    · next hlt =>
      intro hzero
      have hval := Nat.toNat_digitChar_of_lt_ten hlt
      have hchar : n.digitChar = '0' := by simpa using hzero
      rw [hchar] at hval
      have : ('0' : Char).toNat = 48 := rfl
      omega
    · next hge =>
      have hdiv : 0 < n / 10 := Nat.div_pos (by omega) (by decide)
      rw [head?_digits_append]
      exact ih (n / 10) (Nat.div_lt_self h (by decide)) hdiv

/-- Digits count for at least what was read before them. -/
theorem le_ofDigitChars (cs : List Char) (n : Nat) : n ≤ Nat.ofDigitChars 10 cs n := by
  induction cs generalizing n with
  | nil => simp
  | cons c cs ih =>
    rw [Nat.ofDigitChars_cons]
    exact Nat.le_trans (by omega) (ih _)

/-- The text of an integer. -/
theorem toList_toString_int (n : Int) : (toString n).toList =
    if n < 0 then '-' :: Nat.toDigits 10 n.natAbs else Nat.toDigits 10 n.natAbs := by
  rw [Int.toString_eq_repr, Int.repr_eq_if]
  by_cases h : n < 0
  · have hnat : (-n).toNat = n.natAbs := by omega
    rw [if_neg (by omega), if_pos h, hnat]
    simp
  · have hnat : n.toNat = n.natAbs := by omega
    rw [if_pos (by omega), if_neg h, hnat]
    simp

end GuestBridge.Text
