import GuestBridge.Host.StringLiteral
import GuestBridge.Proofs.Host.Scan.Leaf

/-!
# The texts of string literals

A text that is written as a string literal is what that literal stands for. Every string literal
that scanning accepts stands for some text, and no other literal does.
-/

namespace GuestBridge.Host.StringLiteral

open GuestBridge.Text GuestBridge.Host.Scan

variable {cs rest piece : List Char} {fuel : Nat} {c : Char}

/-! ### Code points in hexadecimal -/

private theorem hexValue_digitChar {d : Nat} (h : d < 16) :
    hexValue (Nat.digitChar d) = some d := by
  have hall : ∀ d < 16, hexValue (Nat.digitChar d) = some d := by decide
  exact hall d h

/-- The digits of a number are read back as the number. -/
theorem codeEscapeDigits_toDigits {n k : Nat} (hn : n < Nat.pow 16 (k + 1)) (hk : k < 6)
    (rest : List Char) :
    ∃ count, 0 < count ∧ count ≤ k + 1 ∧
      codeEscapeDigits 0 0 (Nat.toDigits 16 n ++ rest) = codeEscapeDigits count n rest := by
  induction k generalizing n rest with
  | zero =>
    have hdigit : n < 16 := hn
    refine ⟨1, by omega, by omega, ?_⟩
    simp [Nat.toDigits_of_lt_base hdigit, codeEscapeDigits, hexValue_digitChar hdigit]
  | succ k ih =>
    rw [Nat.toDigits_eq_if (by decide)]
    split
    next hdigit =>
      refine ⟨1, by omega, by omega, ?_⟩
      simp [codeEscapeDigits, hexValue_digitChar hdigit]
    next =>
      obtain ⟨count, hpos, hcount, hread⟩ := ih (n := n / 16)
        ((Nat.div_lt_iff_lt_mul (by decide)).2 hn) (by omega)
        (Nat.digitChar (n % 16) :: rest)
      refine ⟨count + 1, by omega, by omega, ?_⟩
      rw [List.append_assoc, List.singleton_append, hread, codeEscapeDigits,
        hexValue_digitChar (Nat.mod_lt n (by decide))]
      simp only [show count ≠ 6 by omega, if_false, Nat.div_add_mod']

private theorem isScalar_toNat (c : Char) : isScalar c.toNat = true := by
  have hc := c.valid
  simp only [isScalar, Bool.or_eq_true, Bool.and_eq_true, decide_eq_true_eq]
  exact hc

/-- The code-point escape of a character is read back as its code point. -/
theorem codeEscape?_toDigits (c : Char) (rest : List Char) :
    codeEscape? ('{' :: (Nat.toDigits 16 c.toNat ++ '}' :: rest)) = some (c.toNat, rest) := by
  have hc : c.toNat < Nat.pow 16 (5 + 1) := by
    have hscalar := isScalar_toNat c
    have hpow : Nat.pow 16 (5 + 1) = 0x1000000 := rfl
    simp only [isScalar, Bool.or_eq_true, Bool.and_eq_true, decide_eq_true_eq] at hscalar
    omega
  obtain ⟨count, hpos, -, hread⟩ := codeEscapeDigits_toDigits hc (by decide) ('}' :: rest)
  rw [codeEscape?, hread, codeEscapeDigits, show hexValue '}' = none by decide]
  simp [show count ≠ 0 by omega, isScalar_toNat]

/-! ### Quoted texts -/

/-- A character without a meaning of its own stands for itself. -/
theorem plainText_plain (hquote : c ≠ '"') (hslash : c ≠ '\\')
    (hreturn : c = '\r' → cs.head? ≠ some '\n') (fuel : Nat) :
    plainText (fuel + 1) (c :: cs) = (plainText fuel cs).map (c :: ·) := by
  by_cases hc : c = '\r'
  · have hhead := hreturn hc
    cases cs <;> simp_all [plainText]
  · simp [plainText, hslash, hc]

/-- An escape of one letter. -/
theorem plainText_simple {d : Char} (h : simpleEscape c = some d) (fuel : Nat) (cs : List Char) :
    plainText (fuel + 1) ('\\' :: c :: cs) = (plainText fuel cs).map (d :: ·) := by
  have hc : c ≠ 'x' ∧ c ≠ 'u' ∧ c ≠ '\n' ∧ c ≠ '\r' := by
    refine ⟨?_, ?_, ?_, ?_⟩ <;>
    · rintro rfl
      cases h
  simp [plainText, hc, h]

/-- A written character is read back. -/
theorem plainText_quoteChar (c : Char) (fuel : Nat) (cs : List Char) :
    plainText (fuel + 1) (quoteChar c ++ cs) = (plainText fuel cs).map (c :: ·) := by
  unfold quoteChar
  split
  next hc => subst hc; exact plainText_simple rfl fuel cs
  next hquote =>
    split
    next hc => subst hc; exact plainText_simple rfl fuel cs
    next hslash =>
      split
      next hc => subst hc; exact plainText_simple rfl fuel cs
      next =>
        split
        next hc => subst hc; exact plainText_simple rfl fuel cs
        next hreturn =>
          split
          next hc => subst hc; exact plainText_simple rfl fuel cs
          next =>
            split
            next hc =>
              obtain rfl : c = Char.ofNat 0 := by rw [← hc, Char.ofNat_toNat]
              exact plainText_simple rfl fuel cs
            next =>
              split
              · exact plainText_plain hquote hslash (absurd · hreturn) fuel
              · have hread := codeEscape?_toDigits c cs
                simp only [codeEscape, List.cons_append, List.nil_append, List.append_assoc]
                rw [plainText, hread]
                simp

private theorem quoteChar_ne_nil (c : Char) : quoteChar c ≠ [] := by
  unfold quoteChar
  repeat' split
  all_goals exact List.cons_ne_nil _ _

/-- A text written between quotes is read back. -/
theorem plainText_literalBody (hfuel : (literalBody cs).length < fuel) :
    plainText fuel (literalBody cs ++ '"' :: rest) = some cs := by
  induction cs generalizing fuel with
  | nil => cases fuel <;> first | omega | rfl
  | cons c cs ih =>
    obtain ⟨fuel, rfl⟩ := Nat.exists_eq_succ_of_ne_zero (Nat.ne_of_gt (Nat.zero_lt_of_lt hfuel))
    rw [literalBody, List.length_append] at hfuel
    rw [literalBody, List.append_assoc]
    split
    next hnull =>
      obtain rfl : c = Char.ofNat 0 := by
        rw [← of_decide_eq_true (Bool.and_eq_true_iff.1 hnull).1, Char.ofNat_toNat]
      rw [if_pos hnull, List.length_cons] at hfuel
      have hrest : plainText fuel (literalBody cs ++ '"' :: rest) = some cs := ih (by omega)
      exact congrArg (Option.map (Char.ofNat 0 :: ·)) hrest
    next hplain =>
      have hlength := List.length_pos_iff.2 (quoteChar_ne_nil c)
      rw [if_neg hplain] at hfuel
      rw [plainText_quoteChar, ih (by omega), Option.map_some]

/-- A text that is written as a literal is what the literal stands for. -/
theorem value?_quoteLiteral (s : String) : value? (quoteLiteral s) = some s := by
  have hfuel : (literalBody s.toList).length < (literalBody s.toList ++ ['"']).length + 1 := by
    rw [List.length_append]
    omega
  rw [value?, quoteLiteral, String.toList_ofList, quoteLiteralChars]
  simp only [List.cons_append]
  rw [plainText_literalBody hfuel, Option.map_some, String.ofList_toList]

/-! ### Scanned literals -/

/-- A piece of a text from behind an opening quote that stands for some text. -/
def Readable (piece : List Char) : Prop :=
  ∀ fuel, piece.length < fuel → (plainText fuel piece).isSome = true

private theorem readable_quote (cs : List Char) : Readable ('"' :: cs) := by
  rintro (_ | fuel) hfuel
  · omega
  · rfl

/-- What stands for one character can be put in front. -/
theorem Readable.append {front : List Char} (hfront : front ≠ [])
    (hread : ∀ fuel, (plainText fuel piece).isSome = true →
      (plainText (fuel + 1) (front ++ piece)).isSome = true)
    (h : Readable piece) : Readable (front ++ piece) := by
  rintro (_ | fuel) hfuel
  · omega
  · have hlength := List.length_pos_iff.2 hfront
    rw [List.length_append] at hfuel
    exact hread fuel (h fuel (by omega))

/-- Line blanks in front of something else are dropped. -/
theorem dropWhile_isLineBlank {front : List Char}
    (hfront : ∀ c ∈ front, plainText.isLineBlank c = true)
    (hrest : ∃ c ∈ rest.head?, plainText.isLineBlank c = false) :
    (front ++ rest).dropWhile plainText.isLineBlank = rest := by
  obtain ⟨c, hc, hblank⟩ := hrest
  obtain ⟨rest, rfl⟩ := List.head?_eq_some_iff.1 hc
  rw [List.dropWhile_append_of_pos hfront, List.dropWhile_cons_of_neg (by simp [hblank])]

private theorem readable_simple {d : Char} (h : simpleEscape c = some d) (hpiece : Readable piece) :
    Readable ('\\' :: c :: piece) := by
  refine Readable.append (List.cons_ne_nil '\\' [c]) (fun fuel hfuel ↦ ?_) hpiece
  simpa [plainText_simple h] using hfuel

/-- An escape in front of something readable. -/
theorem readable_escapeEnd (h : escapeEnd .text cs = some rest) :
    ∃ front, cs = front ++ rest ∧
      ∀ piece, piece.head? = rest.head? → Readable piece → Readable ('\\' :: (front ++ piece)) := by
  cases escapeEnds_of_escapeEnd h with
  | byte h =>
    obtain ⟨a, b, rfl, ha, hb⟩ := byteEscapeEnd_split h
    obtain ⟨a', ha⟩ := Option.isSome_iff_exists.1 ha
    obtain ⟨b', hb⟩ := Option.isSome_iff_exists.1 hb
    refine ⟨['x', a, b], rfl, fun piece _ hpiece ↦ ?_⟩
    refine Readable.append (List.cons_ne_nil '\\' ['x', a, b]) (fun fuel hfuel ↦ ?_) hpiece
    simp [plainText, ha, hb, hfuel]
  | simple hsimple => exact ⟨[_], rfl, fun piece _ hpiece ↦ readable_simple hsimple hpiece⟩
  | code h =>
    obtain ⟨code, rfl, -, -, hread⟩ := codeEscape?_split h
    refine ⟨'u' :: code, rfl, fun piece _ hpiece ↦ ?_⟩
    refine Readable.append (List.cons_ne_nil '\\' ('u' :: code)) (fun fuel hfuel ↦ ?_) hpiece
    simp [plainText, hread, hfuel]
  | @continued c _ _ _ hc h =>
    obtain ⟨front, rfl, hfront, hrest⟩ := continuationEnd_split h
    refine ⟨c :: front, rfl, fun piece hhead hpiece ↦ ?_⟩
    refine Readable.append (List.cons_ne_nil '\\' (c :: front)) (fun fuel hfuel ↦ ?_) hpiece
    have hdrop := dropWhile_isLineBlank hfront (hhead ▸ hrest)
    rcases hc with rfl | rfl <;> simpa [plainText, hdrop] using hfuel

/-- What scanning accepts as the rest of a plain literal stands for some text. -/
theorem readable_of_cookedEnd (h : cookedEnd .text fuel cs = some rest) :
    ∃ piece, cs = piece ++ rest ∧ piece ≠ [] ∧ Readable piece := by
  induction fuel generalizing cs with
  | zero => cases h
  | succ fuel ih =>
    rcases cs with _ | ⟨c, cs⟩
    · cases h
    · unfold cookedEnd at h
      split at h
      next hc =>
        cases h
        obtain ⟨suffix, hsuffix, -⟩ := inLine_suffixEnd cs
        refine ⟨'"' :: suffix, ?_, List.cons_ne_nil _ _, readable_quote suffix⟩
        rw [List.cons_append, ← hsuffix, hc]
      next hquote =>
        split at h
        next hc =>
          split at h
          next cs =>
            obtain ⟨piece, rfl, -, hpiece⟩ := ih h
            refine ⟨'\r' :: '\n' :: piece, by rw [hc]; rfl, List.cons_ne_nil _ _, ?_⟩
            refine Readable.append (List.cons_ne_nil '\r' ['\n']) (fun fuel hfuel ↦ ?_) hpiece
            simp [plainText, hfuel]
          next => cases h
        next hreturn =>
          split at h
          next hc =>
            obtain ⟨after, hescape, hafter⟩ := Option.bind_eq_some_iff.1 h
            obtain ⟨front, rfl, hfront⟩ := readable_escapeEnd hescape
            obtain ⟨piece, rfl, hne, hpiece⟩ := ih hafter
            refine ⟨'\\' :: (front ++ piece), by simp [hc], List.cons_ne_nil _ _, ?_⟩
            refine hfront piece ?_ hpiece
            obtain ⟨d, piece, rfl⟩ := List.exists_cons_of_ne_nil hne
            rfl
          next hslash =>
            obtain ⟨-, h⟩ := Option.ite_none_right_eq_some.1 h
            obtain ⟨piece, rfl, -, hpiece⟩ := ih h
            refine ⟨c :: piece, rfl, List.cons_ne_nil _ _, ?_⟩
            refine Readable.append (List.cons_ne_nil c []) (fun fuel hfuel ↦ ?_) hpiece
            simpa [plainText_plain hquote hslash (absurd · hreturn)] using hfuel

/-- What scanning accepts as the rest of a raw literal stands for some text. -/
theorem isSome_rawText {kind : QuotedKind} {hashes : Nat}
    (h : rawClosing kind hashes cs = some rest) :
    ∃ piece, cs = piece ++ rest ∧ (rawText hashes piece).isSome = true := by
  have hquoted := rawQuotedEnd_of_rawClosing h
  clear h
  induction cs with
  | nil => cases hquoted
  | cons c cs ih =>
    unfold rawQuotedEnd at hquoted
    split at hquoted
    next hc =>
      cases hquoted
      obtain ⟨suffix, hsuffix, -⟩ := inLine_suffixEnd (cs.drop hashes)
      refine ⟨'"' :: (List.replicate hashes '#' ++ suffix), ?_, ?_⟩
      · rw [List.cons_append, List.append_assoc, ← hsuffix, ← hc.2, List.take_append_drop, hc.1]
      · simp [rawText]
    next hc =>
      obtain ⟨piece, rfl, hpiece⟩ := ih hquoted
      refine ⟨c :: piece, rfl, ?_⟩
      unfold rawText
      split
      · rfl
      · simpa using hpiece

/-- The rest of a raw literal that scanning accepts stands for some text. -/
theorem isSome_value?_raw {kind : QuotedKind} (h : rawEnd kind cs = some rest) :
    ∃ piece, cs = piece ++ rest ∧ (value? (String.ofList ('r' :: piece))).isSome = true := by
  obtain ⟨⟨hashes, body⟩, hopening, hclosing⟩ := Option.bind_eq_some_iff.1 h
  obtain ⟨opening, rfl, hread⟩ := rawOpening_split hopening
  obtain ⟨piece, rfl, hpiece⟩ := isSome_rawText hclosing
  refine ⟨opening ++ piece, by simp, ?_⟩
  simp [value?, hread, hpiece]

/-- The literals that stand for texts are told by their first characters. -/
theorem isSome_value? {t : String} (h : leaf? cs = some (.literal t, rest)) :
    (value? t).isSome = decide (cs.head? = some '"' ∨ cs.head? = some 'r') := by
  obtain ⟨hend, rfl⟩ := leaf?_literal h
  rcases cs with _ | ⟨c, cs⟩
  · cases hend
  by_cases hquote : c = '"'
  · subst hquote
    have hstring : cookedEnd .text (cs.length + 1) cs = some rest := by
      rw [literalEnd] at hend
      cases hcooked : cookedEnd .text (cs.length + 1) cs with
      | some last =>
        rw [stringEnd, hcooked] at hend
        exact hend
      | none =>
        rw [stringEnd, hcooked] at hend
        cases hend
    obtain ⟨piece, rfl, -, hpiece⟩ := readable_of_cookedEnd hstring
    rw [← List.cons_append, between_append]
    simpa [value?] using hpiece (piece.length + 1) (Nat.lt_succ_self _)
  by_cases hraw : c = 'r'
  · subst hraw
    have hstring : rawEnd .text cs = some rest := by
      rw [literalEnd] at hend
      cases hcooked : rawEnd .text cs with
      | some last =>
        rw [stringEnd, hcooked] at hend
        exact hend
      | none =>
        rw [stringEnd, hcooked] at hend
        cases hend
    obtain ⟨piece, rfl, hpiece⟩ := isSome_value?_raw hstring
    rw [← List.cons_append, between_append, hpiece]
    simp
  have hnone : value? (String.ofList (between (c :: cs) rest)) = none := by
    rw [between, value?, String.toList_ofList]
    cases (c :: cs).length - rest.length <;> simp [hquote, hraw]
  simp [hnone, hquote, hraw]

end GuestBridge.Host.StringLiteral
