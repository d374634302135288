import GuestBridge.Number.Layout
import GuestBridge.Proofs.Number.Digits
import GuestBridge.Proofs.Number.Shortest

/-!
# Reading decimals back

A reader for floating-point numbers as the guest writes them in its code: digits with a point
or an exponent, rounded to the nearest number. It reads every number back from the text in
the layout of guest code.
-/

namespace GuestBridge

open Text

/-! ### The reader -/

/-- The natural number that a text of digits writes. -/
def Text.natural? (cs : List Char) : Option Nat :=
  if cs ≠ [] ∧ cs.all isAsciiDigit then some (Nat.ofDigitChars 10 cs 0) else none

namespace Decimal

/-- The exponent that ends a number, if there is one. -/
def exponent? : List Char → Option Int
  | [] => some 0
  | 'e' :: '-' :: cs => (natural? cs).map fun n : Nat ↦ -(n : Int)
  | 'e' :: cs => (natural? cs).map fun n : Nat ↦ (n : Int)
  | _ => none

/-- The decimal that a text with a point or an exponent writes. -/
def read? (cs : List Char) : Option Decimal :=
  let whole := cs.takeWhile isAsciiDigit
  if whole = [] then none
  else
    match cs.dropWhile isAsciiDigit with
    | '.' :: cs =>
      let fraction := cs.takeWhile isAsciiDigit
      (exponent? (cs.dropWhile isAsciiDigit)).map fun e ↦
        ⟨Nat.ofDigitChars 10 (whole ++ fraction) 0, e - fraction.length⟩
    | 'e' :: cs => (exponent? ('e' :: cs)).map fun e ↦ ⟨Nat.ofDigitChars 10 whole 0, e⟩
    | _ => none

end Decimal

namespace Binary64

/-- The number nearest to a decimal, with the given sign. -/
def ofDecimal (negative : Bool) (d : Decimal) : Binary64 :=
  ofRatio negative (d.digits * Nat.pow 10 d.exponent.toNat) (Nat.pow 10 (-d.exponent).toNat)

/-- The finite number nearest to a decimal, with the given sign. -/
def finite? (negative : Bool) (d : Decimal) : Option Binary64 :=
  let x := ofDecimal negative d
  if x.isInfinite then none else some x

/-- The number that a text writes, which must not be too great for a finite one. -/
def read? : List Char → Option Binary64
  | '-' :: cs => (Decimal.read? cs).bind (finite? true)
  | cs => (Decimal.read? cs).bind (finite? false)

end Binary64

/-! ### Digits -/

/-- The digits of a number are read back. -/
theorem natural?_toDigits (n : Nat) : natural? (Nat.toDigits 10 n) = some n := by
  have hdigits : (Nat.toDigits 10 n).all isAsciiDigit :=
    List.all_eq_true.2 fun _ hc ↦ isAsciiDigit_of_mem_toDigits hc
  rw [natural?, if_pos ⟨Nat.toDigits_ne_nil, hdigits⟩, Nat.ofDigitChars_ten_toDigits]

/-- A text with a point or a letter is no natural number. -/
theorem natural?_eq_none {cs : List Char} {c : Char} (hc : c ∈ cs) (h : isAsciiDigit c = false) :
    natural? cs = none := by
  have hall : ¬cs.all isAsciiDigit := fun hall ↦ by
    have hdigit := List.all_eq_true.1 hall c hc
    rw [h] at hdigit
    cases hdigit
  rw [natural?, if_neg fun hboth ↦ hall hboth.2]

/-- Leading zeros do not count. -/
private theorem ofDigitChars_zeros (n : Nat) (cs : List Char) :
    Nat.ofDigitChars 10 (List.replicate n '0' ++ cs) 0 = Nat.ofDigitChars 10 cs 0 := by
  rw [Nat.ofDigitChars_append, Nat.ofDigitChars_replicate_zero]
  simp

/-! ### Decimals -/

namespace Decimal

/-- A decimal with a point is read digit by digit. -/
private theorem read?_point {whole fraction rest : List Char} {e : Int}
    (hne : whole ≠ []) (hwhole : ∀ c ∈ whole, isAsciiDigit c)
    (hfraction : ∀ c ∈ fraction, isAsciiDigit c) (hrest : NoDigit rest)
    (he : exponent? rest = some e) :
    read? (whole ++ '.' :: (fraction ++ rest)) =
      some ⟨Nat.ofDigitChars 10 (whole ++ fraction) 0, e - fraction.length⟩ := by
  have hpoint : NoDigit ('.' :: (fraction ++ rest)) := forall_head?_cons (by decide) _
  obtain ⟨htake, hdrop⟩ := span_append hwhole hpoint
  obtain ⟨htake', hdrop'⟩ := span_append hfraction hrest
  rw [read?]
  simp only [htake, hdrop, htake', hdrop', he, if_neg hne]
  rfl

/-- An exponent does not start with a digit. -/
private theorem noDigit_exponent (cs : List Char) : NoDigit ('e' :: cs) :=
  forall_head?_cons (by decide) cs

/-- A decimal with an exponent but no point is read. -/
private theorem read?_exponent {whole rest : List Char} {e : Int}
    (hne : whole ≠ []) (hwhole : ∀ c ∈ whole, isAsciiDigit c)
    (he : exponent? ('e' :: rest) = some e) :
    read? (whole ++ 'e' :: rest) = some ⟨Nat.ofDigitChars 10 whole 0, e⟩ := by
  obtain ⟨htake, hdrop⟩ := span_append hwhole (noDigit_exponent rest)
  rw [read?]
  simp only [htake, hdrop, he, if_neg hne]
  rfl

/-- The characters of the digits are digits. -/
private theorem isAsciiDigit_of_mem_chars {d : Decimal} {c : Char} (h : c ∈ d.chars) :
    isAsciiDigit c :=
  isAsciiDigit_of_mem_toDigits h

/-- The digits are read back. -/
private theorem ofDigitChars_chars (d : Decimal) : Nat.ofDigitChars 10 d.chars 0 = d.digits :=
  Nat.ofDigitChars_ten_toDigits

/-- There is a digit. -/
private theorem chars_ne_nil (d : Decimal) : d.chars ≠ [] :=
  Nat.toDigits_ne_nil

/-- Zeros are digits. -/
private theorem isAsciiDigit_of_mem_replicate {n : Nat} {c : Char}
    (h : c ∈ List.replicate n '0') : isAsciiDigit c := by
  rw [(List.mem_replicate.1 h).2]
  decide

/-- A whole number in positional notation is read as this number. -/
private theorem read?_whole (d : Decimal) (h : 0 ≤ d.exponent) :
    ∃ d', read? (d.positional true) = some d' ∧ d'.value = d.value := by
  have hdigits : ∀ c ∈ d.chars ++ List.replicate d.exponent.toNat '0', isAsciiDigit c := by
    intro c hc
    rcases List.mem_append.1 hc with hc | hc
    · exact isAsciiDigit_of_mem_chars hc
    · exact isAsciiDigit_of_mem_replicate hc
  have htext : d.positional true =
      (d.chars ++ List.replicate d.exponent.toNat '0') ++ '.' :: (['0'] ++ []) := by
    simp [positional, h]
  have hzero : ∀ c ∈ ['0'], isAsciiDigit c := List.all_eq_true.1 (by decide)
  have hread := read?_point (by simp [chars_ne_nil]) hdigits hzero
    (show NoDigit [] by simp [NoDigit]) (show exponent? [] = some 0 from rfl)
  rw [htext]
  refine ⟨_, hread, ?_⟩
  have hexponent : (10 : ℚ) ^ d.exponent = 10 ^ d.exponent.toNat := by
    rw [← zpow_natCast, Int.toNat_of_nonneg h]
  rw [Nat.ofDigitChars_append, Nat.ofDigitChars_append, Nat.ofDigitChars_replicate_zero,
    ofDigitChars_chars]
  have hzeros : Nat.ofDigitChars 10 ['0'] (10 ^ d.exponent.toNat * d.digits) =
      10 * (10 ^ d.exponent.toNat * d.digits) := by
    simp [Nat.ofDigitChars_cons]
  have hplace : 0 - ((['0'].length : Nat) : Int) = -1 := rfl
  rw [hzeros, hplace, value, value, hexponent, zpow_neg_one]
  push_cast
  ring

/-- A decimal with places in positional notation is read as this decimal. -/
private theorem read?_places (d : Decimal) (h : d.exponent < 0) :
    ∃ d', read? (d.positional true) = some d' ∧ d'.value = d.value := by
  obtain ⟨places, hplaces⟩ : ∃ places : Nat, d.exponent = -places :=
    ⟨(-d.exponent).toNat, by omega⟩
  obtain ⟨padded, hpadded⟩ :
      ∃ padded, padded = List.replicate (places + 1 - d.chars.length) '0' ++ d.chars := ⟨_, rfl⟩
  have hlength : places + 1 ≤ padded.length := by
    rw [hpadded, List.length_append, List.length_replicate]
    omega
  have hdigits : ∀ c ∈ padded, isAsciiDigit c := by
    intro c hc
    rw [hpadded] at hc
    rcases List.mem_append.1 hc with hc | hc
    · exact isAsciiDigit_of_mem_replicate hc
    · exact isAsciiDigit_of_mem_chars hc
  have htext : d.positional true = padded.take (padded.length - places) ++
      '.' :: (padded.drop (padded.length - places) ++ []) := by
    have hneg : ¬(0 ≤ d.exponent) := by omega
    have hnat : (-d.exponent).toNat = places := by omega
    simp [positional, hneg, hnat, hpadded]
  have hne : padded.take (padded.length - places) ≠ [] := by
    rw [ne_eq, List.take_eq_nil_iff]
    rintro (hzero | rfl)
    · omega
    · simp at hlength
  have hwhole : ∀ c ∈ padded.take (padded.length - places), isAsciiDigit c :=
    fun c hc ↦ hdigits c (List.mem_of_mem_take hc)
  have hfraction : ∀ c ∈ padded.drop (padded.length - places), isAsciiDigit c :=
    fun c hc ↦ hdigits c (List.mem_of_mem_drop hc)
  have hread := read?_point hne hwhole hfraction (show NoDigit [] by simp [NoDigit])
    (show exponent? [] = some 0 from rfl)
  rw [htext]
  refine ⟨_, hread, ?_⟩
  have hcount : padded.length - (padded.length - places) = places := by omega
  rw [List.take_append_drop, List.length_drop, hcount, hpadded, ofDigitChars_zeros,
    ofDigitChars_chars]
  simp [value, hplaces]

/-- A decimal in positional notation is read as this decimal. -/
theorem read?_positional (d : Decimal) :
    ∃ d', read? (d.positional true) = some d' ∧ d'.value = d.value := by
  rcases Int.lt_or_le d.exponent 0 with h | h
  · exact read?_places d h
  · exact read?_whole d h

/-- An exponent is read. -/
private theorem exponent?_leading (e : Int) :
    exponent? ('e' :: ((if e < 0 then ['-'] else []) ++ Nat.toDigits 10 e.natAbs)) = some e := by
  split
  · next h =>
    have hnat : -(e.natAbs : Int) = e := by omega
    simp only [List.cons_append, List.nil_append, exponent?, natural?_toDigits]
    exact congrArg some hnat
  · next h =>
    obtain ⟨c, hc, hdigit⟩ := exists_head?_toDigits e.natAbs
    cases hd : Nat.toDigits 10 e.natAbs with
    | nil => exact absurd hd Nat.toDigits_ne_nil
    | cons c' cs =>
      have hminus : c' ≠ '-' := by
        rintro rfl
        obtain rfl : '-' = c := by simpa [hd] using hc
        cases hdigit
      have hread := natural?_toDigits e.natAbs
      rw [hd] at hread
      have hnat : (e.natAbs : Int) = e := by omega
      have hplain : exponent? ('e' :: c' :: cs) =
          (natural? (c' :: cs)).map fun n : Nat ↦ (n : Int) := by
        simp [exponent?, hminus]
      rw [List.nil_append, hplain, hread]
      exact congrArg some hnat

/-- A decimal with an exponent is read as this decimal. -/
theorem read?_scientific (d : Decimal) :
    ∃ d', read? (d.scientific false) = some d' ∧ d'.value = d.value := by
  have hexponent := exponent?_leading d.leading
  have hdigits : ∀ c ∈ d.chars, isAsciiDigit c := fun c hc ↦ isAsciiDigit_of_mem_chars hc
  have hvalue := ofDigitChars_chars d
  unfold scientific
  unfold leading at hexponent ⊢
  match hchars : d.chars with
  | [] => exact absurd hchars d.chars_ne_nil
  | [c] =>
    rw [hchars] at hexponent hdigits hvalue
    refine ⟨_, read?_exponent (by simp) hdigits hexponent, ?_⟩
    simp [value, hvalue]
  | c :: c' :: cs =>
    rw [hchars] at hexponent hdigits hvalue
    have hfirst : ∀ b ∈ [c], isAsciiDigit b := fun b hb ↦ hdigits b (by simp_all)
    have hothers : ∀ b ∈ c' :: cs, isAsciiDigit b :=
      fun b hb ↦ hdigits b (List.mem_cons_of_mem c hb)
    have hread := read?_point (by simp) hfirst hothers (noDigit_exponent _) hexponent
    refine ⟨_, by simpa using hread, ?_⟩
    have hplaces : d.exponent + ((cs.length : Int) + 1 + 1) - 1 - (cs.length + 1) = d.exponent := by
      omega
    rw [hvalue, hplaces]

/-- A decimal starts with a digit. -/
theorem head_of_read? {cs : List Char} {d : Decimal} (h : read? cs = some d) :
    ∃ c cs', cs = c :: cs' ∧ isAsciiDigit c := by
  cases cs with
  | nil => simp [read?] at h
  | cons c cs =>
    refine ⟨c, cs, rfl, ?_⟩
    cases hc : isAsciiDigit c with
    | true => rfl
    | false => simp [read?, hc] at h

end Decimal

/-! ### Characters of numbers -/

/-- A character that may stand in a floating-point number. -/
def Text.isNumeral (c : Char) : Bool :=
  isAsciiDigit c || c = '.' || c = 'e' || c = '-'

/-- Digits may stand in a number. -/
private theorem isNumeral_of_natural? {cs : List Char} {n : Nat} (h : natural? cs = some n) :
    ∀ c ∈ cs, isNumeral c := by
  unfold natural? at h
  split at h
  · next hboth =>
    intro c hc
    simp [isNumeral, List.all_eq_true.1 hboth.2 c hc]
  · cases h

/-- An exponent may stand in a number. -/
private theorem isNumeral_of_exponent? {cs : List Char} {e : Int}
    (h : Decimal.exponent? cs = some e) : ∀ c ∈ cs, isNumeral c := by
  unfold Decimal.exponent? at h
  split at h
  · simp
  · obtain ⟨n, hn, -⟩ := Option.map_eq_some_iff.1 h
    simpa [isNumeral] using isNumeral_of_natural? hn
  · obtain ⟨n, hn, -⟩ := Option.map_eq_some_iff.1 h
    simpa [isNumeral] using isNumeral_of_natural? hn
  · cases h

/-- What is read as a decimal has a point or an exponent, and nothing in it that may not stand
in a number. -/
private theorem isNumeral_of_read? {cs : List Char} {d : Decimal}
    (h : Decimal.read? cs = some d) :
    (∀ c ∈ cs, isNumeral c) ∧ ∃ c ∈ cs, c = '.' ∨ c = 'e' := by
  have hdigits : ∀ (cs : List Char), ∀ c ∈ cs.takeWhile isAsciiDigit, isNumeral c := by
    intro cs c hc
    simp [isNumeral, List.all_eq_true.1 List.all_takeWhile c hc]
  have hsplit : ∀ cs : List Char, (∀ c ∈ cs.dropWhile isAsciiDigit, isNumeral c) →
      ∀ c ∈ cs, isNumeral c := by
    intro cs hcs c hc
    rw [← List.takeWhile_append_dropWhile (p := isAsciiDigit) (l := cs)] at hc
    rcases List.mem_append.1 hc with hc | hc
    · exact hdigits cs c hc
    · exact hcs c hc
  have hmem : ∀ c ∈ cs.dropWhile isAsciiDigit, c ∈ cs :=
    fun c hc ↦ (List.dropWhile_sublist _).subset hc
  simp only [Decimal.read?] at h
  split at h
  · cases h
  · split at h
    · next rest hrest =>
      obtain ⟨e, he, -⟩ := Option.map_eq_some_iff.1 h
      refine ⟨hsplit cs ?_, '.', hmem _ (by simp [hrest]), .inl rfl⟩
      rw [hrest]
      have hall := hsplit rest (isNumeral_of_exponent? he)
      simpa [isNumeral] using hall
    · next rest hrest =>
      obtain ⟨e, he, -⟩ := Option.map_eq_some_iff.1 h
      refine ⟨hsplit cs ?_, 'e', hmem _ (by simp [hrest]), .inr rfl⟩
      rw [hrest]
      exact isNumeral_of_exponent? he
    · cases h

/-! ### Numbers -/

namespace Binary64

variable {x : Binary64}

/-- The quotient that is rounded for a decimal. -/
private theorem quotient_eq (d : Decimal) :
    ((d.digits * Nat.pow 10 d.exponent.toNat : Nat) : ℚ) / (Nat.pow 10 (-d.exponent).toNat : Nat) =
      d.value := by
  rw [Nat.cast_mul, mul_div_assoc, ten_pow_div, Decimal.value]

/-- A decimal that stands for zero is read as the zero with its sign. -/
private theorem ofDecimal_zero (negative : Bool) {d : Decimal} (h : d.value = 0) :
    ofDecimal negative d = zero negative := by
  have hdigits : d.digits = 0 := by
    simpa [Decimal.value, zpow_ne_zero] using h
  simp [ofDecimal, ofRatio, hdigits]

/-- A finite number without significand is the zero with its sign. -/
private theorem eq_zero (hx : x.isFinite) (hm : x.significand = 0) : zero x.negative = x := by
  have hexponent : x.exponent = -1074 := by
    by_contra hne
    have hleast := neg_1074_le_exponent x
    have hge := two_pow_le_significand (show -1074 < x.exponent by omega)
    omega
  have hsame := (ofMagnitude_eq hx).1
  rw [hexponent, hm] at hsame
  exact hsame

/-- A decimal that is worth the shortest one is rounded to the number. -/
private theorem ofDecimal_shortest {tie : Tie} {d : Decimal} (hx : x.isFinite)
    (h : d.value = (x.shortest tie).value) : ofDecimal x.negative d = x := by
  rcases Nat.eq_zero_or_pos x.significand with hm | hm
  · have hzero : d.value = 0 := by
      rw [h, shortest, if_pos hm]
      simp [Decimal.value]
    rw [ofDecimal_zero x.negative hzero, eq_zero hx hm]
  · have hden : 0 < Nat.pow 10 (-d.exponent).toNat := Nat.pow_pos (by decide)
    refine ofRatio_eq hx hm hden ?_
    rw [quotient_eq, h]
    exact near_shortest tie hm

/-- The text of a number in guest code, without its sign. -/
private def body (x : Binary64) : List Char :=
  let d := x.shortest .up
  if x.isZero || (Layout.display.low.all (· ≤ d.leading) && Layout.display.high.all (d.leading < ·))
  then d.positional true
  else d.scientific false

/-- The text of a finite number in guest code. -/
private theorem text_display (hx : x.isFinite) :
    (x.text .display).toList = (if x.negative then ['-'] else []) ++ x.body := by
  have hnan : x.isNaN = false := by simp_all [isNaN, isFinite]
  have hinf : x.isInfinite = false := by simp_all [isInfinite, isFinite]
  rw [text, hnan, hinf]
  exact String.toList_ofList

/-- The text of a number is read as a decimal that is worth the shortest one. -/
private theorem read?_body (x : Binary64) :
    ∃ d, Decimal.read? x.body = some d ∧ d.value = (x.shortest .up).value := by
  simp only [body]
  split
  · exact Decimal.read?_positional _
  · exact Decimal.read?_scientific _

/-- A finite number is read back from its text in guest code. -/
theorem read?_text (hx : x.isFinite) : read? (x.text .display).toList = some x := by
  obtain ⟨d, hread, hvalue⟩ := read?_body x
  have hround := ofDecimal_shortest hx hvalue
  have hinf : x.isInfinite = false := by simp_all [isInfinite, isFinite]
  rw [text_display hx]
  cases hsign : x.negative with
  | true =>
    rw [hsign] at hround
    simp [read?, hread, finite?, hround, hinf]
  | false =>
    rw [hsign] at hround
    obtain ⟨c, cs, hbody, hdigit⟩ := Decimal.head_of_read? hread
    have hminus : c ≠ '-' := by
      rintro rfl
      cases hdigit
    rw [hbody] at hread ⊢
    simp [read?, hminus, hread, finite?, hround, hinf]

/-- What is read as a number has a point or an exponent, and nothing in it that may not stand
in a number. -/
theorem isNumeral_of_read? {cs : List Char} (h : read? cs = some x) :
    (∀ c ∈ cs, isNumeral c) ∧ ∃ c ∈ cs, c = '.' ∨ c = 'e' := by
  unfold read? at h
  split at h
  · next cs =>
    obtain ⟨d, hd, -⟩ := Option.bind_eq_some_iff.1 h
    obtain ⟨hall, c, hc, hmark⟩ := GuestBridge.isNumeral_of_read? hd
    exact ⟨by simpa [isNumeral] using hall, c, List.mem_cons_of_mem _ hc, hmark⟩
  · obtain ⟨d, hd, -⟩ := Option.bind_eq_some_iff.1 h
    exact GuestBridge.isNumeral_of_read? hd

end Binary64

end GuestBridge
