import GuestBridge.Proofs.Number.Digits
import GuestBridge.Wire.Reply

/-!
# What reading a number leaves

A number is read up to the first character that cannot belong to it. Behind it may stand
anything that starts with another character: it is left as it is.
-/

namespace GuestBridge.Wire.JsonNumber

open GuestBridge.Text

/-- A character that cannot belong to a number. -/
def isStop (c : Char) : Bool :=
  !isAsciiDigit c && c ≠ '.' && c ≠ 'e' && c ≠ 'E' && c ≠ '+' && c ≠ '-'

/-- A text that is empty or starts with a character that cannot belong to a number. -/
def Stops (rest : List Char) : Prop :=
  ∀ c ∈ rest.head?, isStop c

variable {rest : List Char}

/-- No digit stands in front of a text that stops. -/
theorem Stops.noDigit (h : Stops rest) : NoDigit rest := by
  intro c hc
  have hstop := h c hc
  simp only [isStop, Bool.and_eq_true, Bool.not_eq_true'] at hstop
  exact hstop.1.1.1.1.1

/-- A text that stops does not start with any of the other characters of a number. -/
theorem Stops.head_ne (h : Stops rest) {c : Char} (hc : isStop c = false) (cs : List Char) :
    rest ≠ c :: cs := by
  rintro rfl
  have hstop := h c rfl
  rw [hc] at hstop
  cases hstop

/-- Skipping digits stops where a text stops. -/
theorem skipDigits_append (h : NoDigit rest) (cs : List Char) :
    skipDigits (cs ++ rest) = ((skipDigits cs).1, (skipDigits cs).2 ++ rest) := by
  induction cs with
  | nil =>
    cases rest with
    | nil => rfl
    | cons c rest => simp [skipDigits, h c rfl]
  | cons c cs ih =>
    simp only [List.cons_append, skipDigits]
    split
    · rw [ih]
    · rfl

/-- Gathering digits stops where a text stops. -/
theorem gather_append (h : NoDigit rest) (s n : Nat) (cs : List Char) :
    gather s n (cs ++ rest) =
      ((gather s n cs).1, (gather s n cs).2.1, (gather s n cs).2.2 ++ rest) := by
  induction cs generalizing s n with
  | nil =>
    cases rest with
    | nil => rfl
    | cons c rest => simp [gather, h c rfl]
  | cons c cs ih =>
    simp only [List.cons_append, gather]
    split
    · rw [ih]
    · rfl

/-- Gathering the digits of an exponent stops where a text stops. -/
theorem gatherExponent_append (h : NoDigit rest) (n : Nat) (cs : List Char) :
    gatherExponent n (cs ++ rest) =
      ((gatherExponent n cs).1, (gatherExponent n cs).2 ++ rest) := by
  induction cs generalizing n with
  | nil =>
    cases rest with
    | nil => rfl
    | cons c rest => simp [gatherExponent, h c rfl]
  | cons c cs ih =>
    simp only [List.cons_append, gatherExponent]
    split
    · split
      · rw [ih]
      · rw [skipDigits_append h]
    · rfl

/-- Whether a digit comes next does not depend on a text that stops. -/
theorem head?_any_append (h : NoDigit rest) (cs : List Char) :
    (cs ++ rest).head?.any isAsciiDigit = cs.head?.any isAsciiDigit := by
  cases cs with
  | cons c cs => rfl
  | nil =>
    cases rest with
    | nil => rfl
    | cons c rest => simpa using h c rfl

/-- What was read in front of a text, with the text behind the rest. -/
def before {α : Type} (rest : List Char) (r : Option (α × List Char)) :
    Option (α × List Char) :=
  r.map fun p ↦ (p.1, p.2 ++ rest)

/-- The sign of an exponent and what follows it. -/
private def exponentSign : List Char → Bool × List Char
  | '+' :: cs => (false, cs)
  | '-' :: cs => (true, cs)
  | cs => (false, cs)

/-- A sign of an exponent stands in front of a text that stops. -/
private theorem exponentSign_append (h : Stops rest) (cs : List Char) :
    exponentSign (cs ++ rest) = ((exponentSign cs).1, (exponentSign cs).2 ++ rest) := by
  cases cs with
  | nil =>
    rw [List.nil_append]
    unfold exponentSign
    split
    · exact absurd rfl (h.head_ne (by decide) _)
    · exact absurd rfl (h.head_ne (by decide) _)
    · rfl
  | cons c cs =>
    rw [List.cons_append]
    by_cases hplus : c = '+'
    · subst hplus
      rfl
    · by_cases hminus : c = '-'
      · subst hminus
        rfl
      · simp [exponentSign, hplus, hminus]

/-- The digits of an exponent, once its sign has been read. -/
private def exponentDigits (negative : Bool) (s : Nat) (e : Int) (down : Bool)
    (cs : List Char) : Option (Binary64 × List Char) :=
  if !cs.head?.any isAsciiDigit then none
  else
    match gatherExponent 0 cs with
    | (some k, rest) => (assemble negative s (if down then e - k else e + k)).map (·, rest)
    | (none, rest) => if s ≠ 0 && !down then none else some (Binary64.zero negative, rest)

/-- The digits of an exponent stand in front of a text that stops. -/
private theorem exponentDigits_append (h : Stops rest) (negative : Bool) (s : Nat) (e : Int)
    (down : Bool) (cs : List Char) :
    exponentDigits negative s e down (cs ++ rest) =
      before rest (exponentDigits negative s e down cs) := by
  unfold exponentDigits
  rw [head?_any_append h.noDigit, gatherExponent_append h.noDigit]
  split
  · rfl
  · rcases gatherExponent 0 cs with ⟨_ | k, left⟩
    · simp only
      split <;> rfl
    · simp only [before, Option.map_map]
      rfl

/-- An exponent is read up to where a text stops. -/
private theorem withExponent_append (h : Stops rest) (negative : Bool) (s : Nat) (e : Int)
    (cs : List Char) : withExponent negative s e (cs ++ rest) =
      before rest (withExponent negative s e cs) := by
  have hparts : ∀ cs, withExponent negative s e cs =
      exponentDigits negative s e (exponentSign cs).1 (exponentSign cs).2 := fun _ ↦ rfl
  rw [hparts, hparts, exponentSign_append h, exponentDigits_append h]

/-- What follows the last digit is read up to where a text stops. -/
private theorem finish_append (h : Stops rest) (negative : Bool) (s : Nat) (e : Int)
    (cs : List Char) : finish negative s e (cs ++ rest) =
      before rest (finish negative s e cs) := by
  have hplain : ∀ left, (assemble negative s e).map (fun x ↦ (x, left ++ rest)) =
      before rest ((assemble negative s e).map (·, left)) := by
    intro left
    simp only [before, Option.map_map]
    rfl
  cases cs with
  | nil =>
    rw [List.nil_append]
    unfold finish
    split
    · exact absurd rfl (h.head_ne (by decide) _)
    · exact absurd rfl (h.head_ne (by decide) _)
    · exact hplain []
  | cons c cs =>
    rw [List.cons_append]
    by_cases hlow : c = 'e'
    · subst hlow
      exact withExponent_append h negative s e cs
    · by_cases hhigh : c = 'E'
      · subst hhigh
        exact withExponent_append h negative s e cs
      · have hother : ∀ cs, finish negative s e (c :: cs) =
            (assemble negative s e).map (·, c :: cs) := by
          intro cs
          simp [finish, hlow, hhigh]
        rw [hother, hother]
        exact hplain (c :: cs)

/-- A fraction is read up to where a text stops. -/
private theorem withFraction_append (h : Stops rest) (negative : Bool) (s : Nat) (e : Int)
    (cs : List Char) : withFraction negative s e (cs ++ rest) =
      before rest (withFraction negative s e cs) := by
  unfold withFraction
  rw [head?_any_append h.noDigit, gather_append h.noDigit]
  split
  · rfl
  · simp only [skipDigits_append h.noDigit, finish_append h]

/-- A floating-point number as a number. -/
private def asFloat (r : Option (Binary64 × List Char)) : Option (JsonNumber × List Char) :=
  r.map fun (x, rest) ↦ (JsonNumber.float x, rest)

/-- A number without fraction and exponent. -/
private def whole (negative : Bool) (s shift : Nat) (cs : List Char) :
    Option (JsonNumber × List Char) :=
  if 0 < shift then asFloat ((assemble negative s shift).map (·, cs))
  else if !negative then some (.natural (UInt64.ofNat s), cs)
  else if s = 0 || 0x8000000000000000 < s then some (.float (Binary64.ofNat s).neg, cs)
  else some (.negative (Int64.ofInt (-s)), cs)

/-- What follows the integer part of a number. -/
private def afterInteger (negative : Bool) (s shift : Nat) (cs : List Char) :
    Option (JsonNumber × List Char) :=
  match cs with
  | '.' :: cs => asFloat (withFraction negative s shift cs)
  | 'e' :: _ => asFloat (finish negative s shift cs)
  | 'E' :: _ => asFloat (finish negative s shift cs)
  | _ => whole negative s shift cs

/-- The text behind a floating-point number. -/
private theorem asFloat_before (r : Option (Binary64 × List Char)) :
    asFloat (before rest r) = before rest (asFloat r) := by
  cases r <;> rfl

/-- The text behind a number without fraction and exponent. -/
private theorem whole_append (negative : Bool) (s shift : Nat) (cs : List Char) :
    whole negative s shift (cs ++ rest) = before rest (whole negative s shift cs) := by
  unfold whole
  split
  · cases assemble negative s shift <;> rfl
  · split
    · rfl
    · split <;> rfl

/-- A number without fraction and exponent in front of a text that stops. -/
private theorem afterInteger_of_stops (h : Stops rest) (negative : Bool) (s shift : Nat) :
    afterInteger negative s shift rest = whole negative s shift rest := by
  unfold afterInteger
  split
  · exact absurd rfl (h.head_ne (by decide) _)
  · exact absurd rfl (h.head_ne (by decide) _)
  · exact absurd rfl (h.head_ne (by decide) _)
  · rfl

/-- What follows the integer part is read up to where a text stops. -/
private theorem afterInteger_append (h : Stops rest) (negative : Bool) (s shift : Nat)
    (cs : List Char) : afterInteger negative s shift (cs ++ rest) =
      before rest (afterInteger negative s shift cs) := by
  cases cs with
  | nil =>
    rw [List.nil_append, afterInteger_of_stops h]
    exact whole_append negative s shift []
  | cons c cs =>
    have hfinish := finish_append h negative s shift
    by_cases hpoint : c = '.'
    · subst hpoint
      simp only [afterInteger, List.cons_append, withFraction_append h, asFloat_before]
    · by_cases hlow : c = 'e'
      · subst hlow
        have hcs := hfinish ('e' :: cs)
        rw [List.cons_append] at hcs
        simp only [afterInteger, List.cons_append, hcs, asFloat_before]
      · by_cases hhigh : c = 'E'
        · subst hhigh
          have hcs := hfinish ('E' :: cs)
          rw [List.cons_append] at hcs
          simp only [afterInteger, List.cons_append, hcs, asFloat_before]
        · have hother : ∀ cs, afterInteger negative s shift (c :: cs) =
              whole negative s shift (c :: cs) := by
            intro cs
            simp [afterInteger, hpoint, hlow, hhigh]
          rw [List.cons_append, hother, hother, ← List.cons_append, whole_append]

/-- An integer part and what follows it. -/
private theorem unsigned_eq (negative : Bool) (cs : List Char) : unsigned negative cs =
    if (gather 0 0 cs).2.1 = 0 || (cs.head? = some '0' &&
        1 < (gather 0 0 cs).2.1 + (skipDigits (gather 0 0 cs).2.2).1) then none
    else afterInteger negative (gather 0 0 cs).1 (skipDigits (gather 0 0 cs).2.2).1
      (skipDigits (gather 0 0 cs).2.2).2 := rfl

/-- A number without its sign is read up to where a text stops. -/
private theorem unsigned_append (h : Stops rest) (negative : Bool) (cs : List Char) :
    unsigned negative (cs ++ rest) = before rest (unsigned negative cs) := by
  rw [unsigned_eq, unsigned_eq, gather_append h.noDigit]
  simp only [skipDigits_append h.noDigit, afterInteger_append h]
  cases cs with
  | nil => simp [gather, before]
  | cons c cs =>
    rw [List.cons_append, List.head?_cons, List.head?_cons]
    split <;> rfl

/-- A number is read up to where a text stops. -/
theorem read?_append (h : Stops rest) (cs : List Char) :
    read? (cs ++ rest) = before rest (read? cs) := by
  cases cs with
  | nil =>
    rw [List.nil_append]
    unfold read?
    split
    · exact absurd rfl (h.head_ne (by decide) _)
    · exact unsigned_append h false []
  | cons c cs =>
    by_cases hminus : c = '-'
    · subst hminus
      exact unsigned_append h true cs
    · have hother : ∀ cs, read? (c :: cs) = unsigned false (c :: cs) := by
        intro cs
        simp [read?, hminus]
      rw [List.cons_append, hother, hother, ← List.cons_append, unsigned_append h]

/-! ### Integers -/

/-- The digits of a number that fits are gathered. -/
private theorem gather_digits (cs : List Char) (hcs : ∀ c ∈ cs, isAsciiDigit c) (s n : Nat)
    (hfit : Nat.ofDigitChars 10 cs s ≤ significandLimit) :
    gather s n cs = (Nat.ofDigitChars 10 cs s, n + cs.length, []) := by
  induction cs generalizing s n with
  | nil => rfl
  | cons c cs ih =>
    rw [Nat.ofDigitChars_cons, Nat.mul_comm] at hfit
    have hc : isAsciiDigit c = true := hcs c (by simp)
    have hless : s * 10 + digitValue c ≤ significandLimit :=
      Nat.le_trans (le_ofDigitChars cs _) hfit
    have hrest := ih (fun c' hc' ↦ hcs c' (List.mem_cons_of_mem c hc')) _ (n + 1) hfit
    rw [gather, hc, Bool.true_and, if_pos (decide_eq_true hless), Nat.ofDigitChars_cons,
      Nat.mul_comm 10 s]
    simp only [List.length_cons, digitValue] at hrest ⊢
    rw [Nat.add_right_comm n, Nat.add_assoc n] at hrest
    exact hrest

/-- The digits of a number that fits are read as this number. -/
private theorem unsigned_digits (h : Stops rest) (negative : Bool) {n : Nat}
    (hn : n ≤ significandLimit) : unsigned negative (Nat.toDigits 10 n ++ rest) =
      before rest (whole negative n 0 []) := by
  rw [unsigned_append h]
  have hgather : gather 0 0 (Nat.toDigits 10 n) = (n, (Nat.toDigits 10 n).length, []) := by
    rw [gather_digits _ (fun c hc ↦ isAsciiDigit_of_mem_toDigits hc) 0 0
      (by rw [Nat.ofDigitChars_ten_toDigits]; exact hn), Nat.ofDigitChars_ten_toDigits,
      Nat.zero_add]
  have hpos : (Nat.toDigits 10 n).length ≠ 0 := Nat.ne_of_gt Nat.length_toDigits_pos
  have hzero : ¬((Nat.toDigits 10 n).head? = some '0' ∧
      decide (1 < (Nat.toDigits 10 n).length) = true) := by
    rintro ⟨hhead, hlength⟩
    by_cases hn : n = 0
    · subst hn
      simp at hlength
    · exact head?_toDigits_ne_zero (Nat.pos_of_ne_zero hn) hhead
  rw [unsigned_eq, hgather]
  simp only [skipDigits, Nat.add_zero, hpos, decide_false, Bool.false_or, Bool.and_eq_true,
    decide_eq_true_eq, afterInteger]
  split
  · next hboth => exact absurd hboth hzero
  · rfl

/-- Digits are read as a number without sign. -/
private theorem read?_digits (n : Nat) (cs : List Char) :
    read? (Nat.toDigits 10 n ++ cs) = unsigned false (Nat.toDigits 10 n ++ cs) := by
  obtain ⟨c, hc, hdigit⟩ := exists_head?_toDigits n
  cases hd : Nat.toDigits 10 n with
  | nil => exact absurd hd Nat.toDigits_ne_nil
  | cons d ds =>
    have hne : d ≠ '-' := by
      rintro rfl
      obtain rfl : '-' = c := by simpa [hd] using hc
      cases hdigit
    simp [read?, hne]

/-- The text of a natural number of 64 bits is read as it. -/
theorem read?_nat (h : Stops rest) {n : Nat} (hn : n ≤ significandLimit) :
    read? (Nat.toDigits 10 n ++ rest) = some (.natural (UInt64.ofNat n), rest) := by
  rw [read?_digits, unsigned_digits h false hn]
  simp [whole, before]

/-- The text of an integer is read as a number that stands for it. -/
theorem read?_int (h : Stops rest) (n : Int64) :
    ∃ j, read? ((toString n.toInt).toList ++ rest) = some (j, rest) ∧
      decodeNumber j = .int n := by
  have hlow := n.le_toInt
  have hhigh := n.toInt_lt
  rw [toList_toString_int]
  by_cases hneg : n.toInt < 0
  · have hfit : n.toInt.natAbs ≤ significandLimit := by
      unfold significandLimit
      omega
    refine ⟨.negative (Int64.ofInt (-n.toInt.natAbs)), ?_, ?_⟩
    · rw [if_pos hneg, List.cons_append]
      show unsigned true _ = _
      rw [unsigned_digits h true hfit]
      have hwhole : n.toInt ≠ 0 ∧ n.toInt.natAbs ≤ 0x8000000000000000 := by omega
      simpa [whole, before] using hwhole
    · have hsame : -(n.toInt.natAbs : Int) = n.toInt := by omega
      rw [hsame, Int64.ofInt_toInt]
      rfl
  · have hfit : n.toInt.natAbs ≤ significandLimit := by
      unfold significandLimit
      omega
    refine ⟨.natural (UInt64.ofNat n.toInt.natAbs), ?_, ?_⟩
    · rw [if_neg hneg, read?_nat h hfit]
    · have hnat : (UInt64.ofNat n.toInt.natAbs).toNat = n.toInt.natAbs := by
        simp only [UInt64.toNat_ofNat']
        omega
      have hsame : (n.toInt.natAbs : Int) = n.toInt := by omega
      simp only [decodeNumber, hnat]
      rw [if_pos (by omega), ← Int64.ofInt_eq_ofNat, hsame, Int64.ofInt_toInt]

end GuestBridge.Wire.JsonNumber
