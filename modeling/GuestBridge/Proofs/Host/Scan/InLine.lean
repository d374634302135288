import GuestBridge.Host.Scan
import GuestBridge.Proofs.Text.Cutting

/-!
# Scanning within a line

Words, numbers, escapes and the marks around them never reach beyond the end of their line, so
a text and what is left of it when a margin is cut are scanned alike: a helper recognises the
same piece in both, and what remains of the one is what remains of the other without the margin.
-/

namespace GuestBridge.Host.Scan

open GuestBridge.Text

variable {m cs rest : List Char} {c : Char} {kind : QuotedKind}

/-- What remains of a text behind a piece of its first line. -/
def InLine (cs rest : List Char) : Prop :=
  ∃ piece, cs = piece ++ rest ∧ '\n' ∉ piece

/-- What lies between a text and its end is the piece in front of that end. -/
theorem between_append (piece rest : List Char) : between (piece ++ rest) rest = piece := by
  simp [between]

namespace InLine

/-- Behind the empty piece all of a text remains. -/
theorem refl (cs : List Char) : InLine cs cs :=
  ⟨[], rfl, List.not_mem_nil⟩

/-- A character other than a newline in front makes the piece longer. -/
theorem cons (hc : c ≠ '\n') (h : InLine cs rest) : InLine (c :: cs) rest := by
  obtain ⟨piece, rfl, hpiece⟩ := h
  exact ⟨c :: piece, rfl, by simp [hc.symm, hpiece]⟩

/-- A piece of a line and the piece behind it are one piece of the line. -/
theorem trans {last : List Char} (h : InLine cs rest) (h' : InLine rest last) :
    InLine cs last := by
  obtain ⟨piece, rfl, hpiece⟩ := h
  obtain ⟨piece', rfl, hpiece'⟩ := h'
  exact ⟨piece ++ piece', by simp, by simp [hpiece, hpiece']⟩

/-- What remains behind a piece of a line is an end of the text. -/
theorem suffix (h : InLine cs rest) : rest <:+ cs := by
  obtain ⟨piece, rfl, -⟩ := h
  exact List.suffix_append _ _

/-- Within a line, what was read is the same in the cut text. -/
theorem between_cut (h : InLine cs rest) :
    between (cutMargin m cs) (cutMargin m rest) = between cs rest := by
  obtain ⟨piece, rfl, hpiece⟩ := h
  rw [cutMargin_append_line hpiece, between_append, between_append]

/-- Within a line, what was read is cut like a text of its own. -/
theorem between_cutMargin (h : InLine cs rest) :
    between (cutMargin m cs) (cutMargin m rest) = cutMargin m (between cs rest) := by
  rw [h.between_cut]
  obtain ⟨piece, rfl, hpiece⟩ := h
  rw [between_append, cutMargin_line hpiece]

end InLine

/-! ### Words -/

/-- Characters up to the first one of another kind. -/
theorem dropWhile_cut {p : Char → Bool} (hp : p '\n' = false) (cs : List Char) :
    (cutMargin m cs).dropWhile p = cutMargin m (cs.dropWhile p) := by
  induction cs with
  | nil => rfl
  | cons c cs ih =>
    by_cases hc : c = '\n'
    · subst hc
      obtain ⟨rest, h⟩ := exists_cutMargin_newline m cs
      simp [h, hp]
    · by_cases hpc : p c = true <;> simp [hc, hpc, ih]

private theorem inLine_dropWhile {p : Char → Bool} (hp : p '\n' = false) (cs : List Char) :
    InLine cs (cs.dropWhile p) := by
  refine ⟨cs.takeWhile p, List.takeWhile_append_dropWhile.symm, fun h ↦ ?_⟩
  have hnewline := List.all_eq_true.1 List.all_takeWhile _ h
  rw [hp] at hnewline
  cases hnewline

private theorem identEnd_cut (cs : List Char) :
    identEnd (cutMargin m cs) = (identEnd cs).map (cutMargin m) := by
  cases cs with
  | nil => rfl
  | cons c cs =>
    by_cases hc : c = '\n'
    · subst hc
      obtain ⟨rest, h⟩ := exists_cutMargin_newline m cs
      simp [h, identEnd, show isIdentStart '\n' = false by decide]
    · simp [identEnd, hc, dropWhile_cut (show isIdentContinue '\n' = false by decide)]

private theorem inLine_identEnd (h : identEnd cs = some rest) : InLine cs rest := by
  cases cs with
  | nil => cases h
  | cons c cs =>
    obtain ⟨hc, h⟩ := Option.ite_none_right_eq_some.1 h
    cases h
    refine .cons ?_ (inLine_dropWhile (by decide) cs)
    rintro rfl
    exact absurd hc (by decide)

/-- Cutting a margin does not move the end of a suffix. -/
theorem suffixEnd_cut (cs : List Char) :
    suffixEnd (cutMargin m cs) = cutMargin m (suffixEnd cs) := by
  rw [suffixEnd, suffixEnd, identEnd_cut]
  cases identEnd cs <;> rfl

/-- A suffix is a piece of its line. -/
theorem inLine_suffixEnd (cs : List Char) : InLine cs (suffixEnd cs) := by
  unfold suffixEnd
  cases h : identEnd cs with
  | none => exact .refl cs
  | some rest => exact inLine_identEnd h

/-! ### Numbers -/

private theorem numberSuffixEnd_cut (cs : List Char) :
    numberSuffixEnd (cutMargin m cs) = (numberSuffixEnd cs).map (cutMargin m) := by
  simp only [numberSuffixEnd, suffixEnd_cut, wordBreak, head?_cutMargin]
  split <;> rfl

private theorem inLine_numberSuffixEnd (h : numberSuffixEnd cs = some rest) : InLine cs rest := by
  obtain ⟨-, h⟩ := Option.ite_none_left_eq_some.1 h
  cases h
  exact inLine_suffixEnd cs

private theorem floatMantissa_cut (hasPoint : Bool) (cs : List Char) :
    floatMantissa hasPoint (cutMargin m cs) =
      (floatMantissa hasPoint cs).map fun (rest, found) ↦ (cutMargin m rest, found) := by
  induction cs generalizing hasPoint with
  | nil => rfl
  | cons c cs ih =>
    by_cases hc : c = '\n'
    · subst hc
      obtain ⟨rest, h⟩ := exists_cutMargin_newline m cs
      simp [h, floatMantissa, show isAsciiDigit '\n' = false by decide]
    · simp only [cutMargin_cons hc, floatMantissa, ih, head?_cutMargin]
      repeat' split
      all_goals simp [hc]

private theorem inLine_floatMantissa {hasPoint : Bool} {found : Bool × Bool}
    (h : floatMantissa hasPoint cs = some (rest, found)) : InLine cs rest := by
  induction cs generalizing hasPoint with
  | nil =>
    cases h
    exact .refl []
  | cons c cs ih =>
    unfold floatMantissa at h
    split at h
    next hc => exact .cons (by rintro rfl; exact absurd hc (by decide)) (ih h)
    next =>
      split at h
      next hc =>
        split at h
        · cases h
          exact .refl _
        · split at h
          · cases h
          · exact .cons (by rintro rfl; exact absurd hc (by decide)) (ih h)
      next =>
        split at h
        all_goals
          cases h
          exact .refl _

private theorem exponentEnd_cut (hasSign hasDigit : Bool) (cs : List Char) :
    exponentEnd hasSign hasDigit (cutMargin m cs) =
      (exponentEnd hasSign hasDigit cs).map (cutMargin m) := by
  induction cs generalizing hasSign hasDigit with
  | nil => cases hasDigit <;> rfl
  | cons c cs ih =>
    by_cases hc : c = '\n'
    · subst hc
      obtain ⟨rest, h⟩ := exists_cutMargin_newline m cs
      cases hasDigit <;> simp [h, exponentEnd, show isAsciiDigit '\n' = false by decide]
    · simp only [cutMargin_cons hc, exponentEnd, ih]
      repeat' split
      all_goals simp [hc]

private theorem inLine_exponentEnd {hasSign hasDigit : Bool}
    (h : exponentEnd hasSign hasDigit cs = some rest) : InLine cs rest := by
  induction cs generalizing hasSign hasDigit with
  | nil =>
    obtain ⟨-, h⟩ := Option.ite_none_right_eq_some.1 h
    cases h
    exact .refl []
  | cons c cs ih =>
    have hcons (hc : c ≠ '\n') {hasSign hasDigit : Bool}
        (h : exponentEnd hasSign hasDigit cs = some rest) : InLine (c :: cs) rest :=
      .cons hc (ih h)
    unfold exponentEnd at h
    split at h
    next hc =>
      have hc : c ≠ '\n' := by rintro rfl; exact absurd hc (by decide)
      split at h
      · cases h
        exact .refl _
      · split at h
        · cases h
        · exact hcons hc h
    next =>
      split at h
      next hc => exact hcons (by rintro rfl; exact absurd hc (by decide)) h
      next =>
        split at h
        next hc => exact hcons (by rintro rfl; exact absurd hc (by decide)) h
        next =>
          obtain ⟨-, h⟩ := Option.ite_none_right_eq_some.1 h
          cases h
          exact .refl _

private theorem tail_cut (hc : cs.head? ≠ some '\n') :
    (cutMargin m cs).tail = cutMargin m cs.tail := by
  cases cs with
  | nil => rfl
  | cons c cs =>
    rw [cutMargin_cons (by simpa using hc), List.tail_cons, List.tail_cons]

/-- An exponent letter ends the digits in front of an exponent. -/
theorem head?_floatMantissa {hasPoint hasPoint' : Bool}
    (h : floatMantissa hasPoint cs = some (rest, hasPoint', true)) :
    ∃ c, rest.head? = some c ∧ c ≠ '\n' := by
  induction cs generalizing hasPoint with
  | nil => cases h
  | cons c cs ih =>
    unfold floatMantissa at h
    split at h
    · exact ih h
    · split at h
      · split at h
        · cases h
        · split at h
          · cases h
          · exact ih h
      · split at h
        next hc =>
          cases h
          exact ⟨c, rfl, by rintro rfl; exact absurd hc (by decide)⟩
        next => cases h

/-- Cutting a margin does not move the end of a float. -/
theorem floatEnd_cut (cs : List Char) :
    floatEnd (cutMargin m cs) = (floatEnd cs).map (cutMargin m) := by
  simp only [floatEnd, head?_cutMargin, floatMantissa_cut]
  split
  · cases hmantissa : floatMantissa false cs with
    | none => rfl
    | some found =>
      obtain ⟨rest, hasPoint, hasExponent⟩ := found
      cases hasExponent with
      | false => cases hasPoint <;> simp [numberSuffixEnd_cut]
      | true =>
        obtain ⟨c, hhead, hc⟩ := head?_floatMantissa hmantissa
        have htail : (cutMargin m rest).tail = cutMargin m rest.tail :=
          tail_cut (by simpa [hhead] using hc)
        simp only [Option.map_some, htail, exponentEnd_cut]
        cases exponentEnd false false rest.tail <;> cases hasPoint <;>
          simp [numberSuffixEnd_cut]
  · rfl

/-- A float is a piece of its line. -/
theorem inLine_floatEnd (h : floatEnd cs = some rest) : InLine cs rest := by
  obtain ⟨-, h⟩ := Option.ite_none_right_eq_some.1 h
  split at h
  next => cases h
  next rest' hasPoint hmantissa =>
    obtain ⟨-, h⟩ := Option.ite_none_right_eq_some.1 h
    exact (inLine_floatMantissa hmantissa).trans (inLine_numberSuffixEnd h)
  next rest' hasPoint hmantissa =>
    have hrest := inLine_floatMantissa hmantissa
    split at h
    next after hexponent =>
      obtain ⟨c, hhead, hc⟩ := head?_floatMantissa hmantissa
      cases rest' with
      | nil => cases hhead
      | cons d rest' =>
        cases hhead
        exact (hrest.trans (.cons hc (inLine_exponentEnd hexponent))).trans
          (inLine_numberSuffixEnd h)
    next =>
      obtain ⟨-, h⟩ := Option.ite_none_right_eq_some.1 h
      exact hrest.trans (inLine_numberSuffixEnd h)

private theorem digitsEnd_cut (base : Nat) (seen : Bool) (cs : List Char) :
    digitsEnd base seen (cutMargin m cs) = (digitsEnd base seen cs).map (cutMargin m) := by
  induction cs generalizing seen with
  | nil => cases seen <;> rfl
  | cons c cs ih =>
    by_cases hc : c = '\n'
    · subst hc
      obtain ⟨rest, h⟩ := exists_cutMargin_newline m cs
      cases seen <;> simp [h, digitsEnd, show isAsciiDigit '\n' = false by decide,
        show isHex '\n' = false by decide]
    · simp only [cutMargin_cons hc, digitsEnd, ih]
      repeat' split
      all_goals simp [hc]

private theorem inLine_digitsEnd {base : Nat} {seen : Bool}
    (h : digitsEnd base seen cs = some rest) :
    InLine cs rest := by
  induction cs generalizing seen with
  | nil =>
    obtain ⟨-, h⟩ := Option.ite_none_right_eq_some.1 h
    cases h
    exact .refl []
  | cons c cs ih =>
    unfold digitsEnd at h
    split at h
    next hc =>
      obtain ⟨-, h⟩ := Option.ite_none_left_eq_some.1 h
      exact .cons (by rintro rfl; exact absurd hc (by decide)) (ih h)
    next =>
      split at h
      next hc =>
        refine .cons ?_ (ih h)
        rintro rfl
        exact absurd (Bool.and_eq_true_iff.1 hc).1 (by decide)
      next =>
        split at h
        next hc =>
          obtain ⟨-, h⟩ := Option.ite_none_left_eq_some.1 h
          exact .cons (by rintro rfl; exact absurd hc (by decide)) (ih h)
        next =>
          obtain ⟨-, h⟩ := Option.ite_none_right_eq_some.1 h
          cases h
          exact .refl _

/-- Cutting a margin does not move the end of an integer. -/
theorem integerEnd_cut (cs : List Char) :
    integerEnd (cutMargin m cs) = (integerEnd cs).map (cutMargin m) := by
  have hplain : ∀ o : Option (List Char),
      (o.map (cutMargin m)).bind numberSuffixEnd =
        (o.bind numberSuffixEnd).map (cutMargin m) := by
    rintro (_ | rest)
    · rfl
    · exact numberSuffixEnd_cut rest
  unfold integerEnd
  split
  next rest h =>
    obtain ⟨_, rfl, hletter⟩ := cutMargin_eq_cons (by decide) h
    obtain ⟨_, rfl, rfl⟩ := cutMargin_eq_cons (by decide) hletter
    simp only [digitsEnd_cut, hplain]
  next rest h =>
    obtain ⟨_, rfl, hletter⟩ := cutMargin_eq_cons (by decide) h
    obtain ⟨_, rfl, rfl⟩ := cutMargin_eq_cons (by decide) hletter
    simp only [digitsEnd_cut, hplain]
  next rest h =>
    obtain ⟨_, rfl, hletter⟩ := cutMargin_eq_cons (by decide) h
    obtain ⟨_, rfl, rfl⟩ := cutMargin_eq_cons (by decide) hletter
    simp only [digitsEnd_cut, hplain]
  next hx ho hb =>
    split
    next rest => exact (hx (cutMargin m rest) (by simp)).elim
    next rest => exact (ho (cutMargin m rest) (by simp)).elim
    next rest => exact (hb (cutMargin m rest) (by simp)).elim
    next => simp only [digitsEnd_cut, hplain]

/-- An integer is a piece of its line. -/
theorem inLine_integerEnd (h : integerEnd cs = some rest) : InLine cs rest := by
  obtain ⟨last, hdigits, hsuffix⟩ := Option.bind_eq_some_iff.1 h
  refine .trans ?_ (inLine_numberSuffixEnd hsuffix)
  split at hdigits
  all_goals first
    | exact .cons (by decide) (.cons (by decide) (inLine_digitsEnd hdigits))
    | exact inLine_digitsEnd hdigits

/-! ### Escapes -/

private theorem codeEscapeDigits_cut (count value : Nat) (cs : List Char) :
    codeEscapeDigits count value (cutMargin m cs) =
      (codeEscapeDigits count value cs).map fun (n, rest) ↦ (n, cutMargin m rest) := by
  induction cs generalizing count value with
  | nil => rfl
  | cons c cs ih =>
    by_cases hc : c = '\n'
    · subst hc
      obtain ⟨rest, h⟩ := exists_cutMargin_newline m cs
      simp [h, codeEscapeDigits, show hexValue '\n' = none by decide]
    · simp only [cutMargin_cons hc, codeEscapeDigits, ih]
      repeat' split
      all_goals rfl

private theorem codeEscape?_cut (cs : List Char) :
    codeEscape? (cutMargin m cs) =
      (codeEscape? cs).map fun (n, rest) ↦ (n, cutMargin m rest) := by
  unfold codeEscape?
  split
  next h =>
    obtain ⟨_, rfl, rfl⟩ := cutMargin_eq_cons (by decide) h
    exact codeEscapeDigits_cut 0 0 _
  next hbrace =>
    split
    next rest => exact (hbrace (cutMargin m rest) (cutMargin_cons (by decide) rest)).elim
    next => rfl

/-- No digit is a line feed. -/
theorem byteEscapeEnd_newline (kind : QuotedKind) (cs : List Char) :
    byteEscapeEnd kind ('\n' :: cs) = none ∧ byteEscapeEnd kind (c :: '\n' :: cs) = none := by
  constructor
  · cases cs <;> cases kind <;> rfl
  · cases kind <;> simp [byteEscapeEnd, show isHex '\n' = false by decide]

private theorem byteEscapeEnd_cut (kind : QuotedKind) (cs : List Char) :
    byteEscapeEnd kind (cutMargin m cs) = (byteEscapeEnd kind cs).map (cutMargin m) := by
  rcases cs with _ | ⟨a, cs⟩
  · rfl
  · by_cases ha : a = '\n'
    · subst ha
      obtain ⟨rest, h⟩ := exists_cutMargin_newline m cs
      rw [h, (byteEscapeEnd_newline (c := 'x') kind rest).1,
        (byteEscapeEnd_newline (c := 'x') kind cs).1, Option.map_none]
    · rw [cutMargin_cons ha]
      rcases cs with _ | ⟨b, cs⟩
      · rfl
      · by_cases hb : b = '\n'
        · subst hb
          obtain ⟨rest, h⟩ := exists_cutMargin_newline m cs
          rw [h, (byteEscapeEnd_newline kind rest).2, (byteEscapeEnd_newline kind cs).2,
            Option.map_none]
        · simp only [cutMargin_cons hb, byteEscapeEnd]
          cases kind <;> (dsimp only; split <;> rfl)

/-- An escape that does not continue a line. -/
theorem escapeEnd_cut (hn : cs.head? ≠ some '\n') (hr : cs.head? ≠ some '\r') :
    escapeEnd kind (cutMargin m cs) = (escapeEnd kind cs).map (cutMargin m) := by
  rcases cs with _ | ⟨c, cs⟩
  · rfl
  · have hn : c ≠ '\n' := by simpa using hn
    have hr : c ≠ '\r' := by simpa using hr
    simp only [cutMargin_cons hn, escapeEnd, byteEscapeEnd_cut, codeEscape?_cut, hn, hr,
      ↓reduceIte]
    split
    · rfl
    · split
      · rfl
      · split
        · split <;> rfl
        · split
          · cases kind <;> cases codeEscape? cs <;> simp
            split <;> rfl
          · rfl

/-! ### Marks -/

/-- Cutting a margin keeps the opening of a raw literal. -/
theorem rawOpening_cut (hashes : Nat) (cs : List Char) :
    rawOpening hashes (cutMargin m cs) =
      (rawOpening hashes cs).map fun (n, rest) ↦ (n, cutMargin m rest) := by
  induction cs generalizing hashes with
  | nil => rfl
  | cons c cs ih =>
    by_cases hc : c = '\n'
    · subst hc
      obtain ⟨rest, h⟩ := exists_cutMargin_newline m cs
      simp [h, rawOpening]
    · rw [cutMargin_cons hc]
      by_cases hhash : c = '#'
      · subst hhash
        simp [rawOpening, ih]
      · by_cases hquote : c = '"'
        · subst hquote
          simp only [rawOpening]
          split <;> rfl
        · simp [rawOpening, hhash, hquote]

/-- Cutting a margin starts no comment and takes none away. -/
theorem startsComment_cut (cs : List Char) : startsComment (cutMargin m cs) = startsComment cs := by
  rcases cs with _ | ⟨c, cs⟩
  · rfl
  · by_cases hc : c = '/'
    · subst hc
      have hhead := head?_cutMargin m cs
      rw [cutMargin_cons (by decide)]
      rcases cs with _ | ⟨d, cs⟩
      · rfl
      · obtain ⟨rest, h⟩ := List.head?_eq_some_iff.1 (hhead.trans List.head?_cons)
        rw [h]
        by_cases hd : d = '/' ∨ d = '*'
        · rcases hd with rfl | rfl <;> rfl
        · rw [not_or] at hd
          simp [startsComment, hd]
    · by_cases hn : c = '\n'
      · subst hn
        obtain ⟨rest, h⟩ := exists_cutMargin_newline m cs
        simp [h, startsComment]
      · simp [cutMargin_cons hn, startsComment, hc]

/-- Cutting a margin starts no punctuation and takes none away. -/
theorem startsPunctuation_cut (cs : List Char) :
    startsPunctuation (cutMargin m cs) = startsPunctuation cs := by
  simp only [startsPunctuation, startsComment_cut, head?_cutMargin]

/-! ### Words and lifetimes -/

/-- A word is a piece of its line. -/
theorem inLine_word? {name : String} (h : word? cs = some (name, rest)) : InLine cs rest := by
  unfold word? at h
  split at h
  next cs =>
    obtain ⟨last, hlast, h⟩ := Option.bind_eq_some_iff.1 h
    obtain ⟨-, h⟩ := Option.ite_none_left_eq_some.1 h
    cases h
    exact .cons (by decide) (.cons (by decide) (inLine_identEnd hlast))
  next =>
    obtain ⟨last, hlast, h⟩ := Option.map_eq_some_iff.1 h
    cases h
    exact inLine_identEnd hlast

/-- Cutting a margin keeps a word and cuts what follows it. -/
theorem word?_cut (cs : List Char) :
    word? (cutMargin m cs) = (word? cs).map fun (name, rest) ↦ (name, cutMargin m rest) := by
  unfold word?
  split
  next name h =>
    obtain ⟨_, rfl, hhash⟩ := cutMargin_eq_cons (by decide) h
    obtain ⟨name, rfl, rfl⟩ := cutMargin_eq_cons (by decide) hhash
    rw [identEnd_cut]
    cases hname : identEnd name with
    | none => simp [hname]
    | some rest =>
      have hbetween := (inLine_identEnd hname).between_cut (m := m)
      simp only [hname, Option.map_some, Option.bind_some, hbetween]
      split <;> rfl
  next hraw =>
    split
    next name => exact (hraw (cutMargin m name) (by simp)).elim
    next =>
      rw [identEnd_cut]
      cases hname : identEnd cs with
      | none => rfl
      | some rest => simp [(inLine_identEnd hname).between_cut (m := m)]

/-- A mark at the start of a text stays there. -/
theorem isPrefixOf_cut {mark : List Char} (hmark : '\n' ∉ mark) (cs : List Char) :
    mark.isPrefixOf (cutMargin m cs) = mark.isPrefixOf cs := by
  induction mark generalizing cs with
  | nil => rfl
  | cons a mark ih =>
    rw [List.mem_cons, not_or] at hmark
    cases cs with
    | nil => rfl
    | cons c cs =>
      by_cases hc : c = '\n'
      · subst hc
        obtain ⟨rest, h⟩ := exists_cutMargin_newline m cs
        simp [h, List.isPrefixOf, beq_eq_false_iff_ne.2 (Ne.symm hmark.1)]
      · simp [hc, List.isPrefixOf, ih hmark.2]

/-- Cutting a margin keeps marks without newlines. -/
theorem any_isPrefixOf_cut {marks : List (List Char)} (hmarks : ∀ mark ∈ marks, '\n' ∉ mark)
    (cs : List Char) :
    marks.any (·.isPrefixOf (cutMargin m cs)) = marks.any (·.isPrefixOf cs) := by
  rw [Bool.eq_iff_iff]
  simp only [List.any_eq_true]
  exact exists_congr fun mark ↦ and_congr_right fun hmark ↦ by
    rw [isPrefixOf_cut (hmarks mark hmark)]

/-- Cutting a margin keeps a lifetime and cuts what follows it. -/
theorem lifetime?_cut (cs : List Char) :
    lifetime? (cutMargin m cs) = (lifetime? cs).map fun (t, rest) ↦ (t, cutMargin m rest) := by
  have hraw := isPrefixOf_cut (m := m) (show '\n' ∉ ['r', '#'] by decide) cs
  simp only [lifetime?, word?_cut]
  cases word? cs with
  | none => rfl
  | some found =>
    simp only [Option.map_some, Option.bind_some, head?_cutMargin, hraw]
    split
    · rfl
    · split <;> rfl

/-! ### Lines -/

/-- Cutting a margin keeps the rest of a line and cuts what follows it. -/
theorem lineEnd_cut (cs : List Char) :
    lineEnd (cutMargin m cs) = ((lineEnd cs).1, cutMargin m (lineEnd cs).2) := by
  induction cs using lineEnd.induct with
  | case1 => rfl
  | case2 cs =>
    obtain ⟨rest, h⟩ := exists_cutMargin_newline m cs
    simp [lineEnd, h]
  | case3 cs =>
    obtain ⟨rest, h⟩ := exists_cutMargin_newline m cs
    simp [lineEnd, h]
  | case4 c cs hc hreturn _ _ _ ih =>
    have hc' : c ≠ '\n' := fun h ↦ hc h
    have hreturn' (rest : List Char) (hr : c = '\r') : cutMargin m cs ≠ '\n' :: rest := by
      intro h
      have hhead := head?_cutMargin m cs
      rw [h, List.head?_cons] at hhead
      obtain ⟨more, hmore⟩ := List.head?_eq_some_iff.1 hhead.symm
      exact hreturn more hr hmore
    rw [cutMargin_cons hc', lineEnd.eq_4 c (cutMargin m cs) hc hreturn',
      lineEnd.eq_4 c cs hc hreturn, ih]

/-- The rest of a line is a piece of it. -/
theorem inLine_lineEnd (cs : List Char) : InLine cs (lineEnd cs).2 := by
  induction cs using lineEnd.induct with
  | case1 => exact .refl []
  | case2 cs => exact .refl _
  | case3 cs => exact .cons (by decide) (.refl _)
  | case4 c cs hc hreturn _ _ _ ih =>
    rw [lineEnd.eq_4 c cs hc hreturn]
    exact .cons (fun h ↦ hc h) ih

/-- The rest of a line has no newline. -/
theorem newline_notMem_lineEnd (cs : List Char) : '\n' ∉ (lineEnd cs).1 := by
  induction cs using lineEnd.induct with
  | case1 => exact List.not_mem_nil
  | case2 cs => exact List.not_mem_nil
  | case3 cs => exact List.not_mem_nil
  | case4 c cs hc hreturn _ _ _ ih =>
    rw [lineEnd.eq_4 c cs hc hreturn, List.mem_cons, not_or]
    exact ⟨fun h ↦ hc h.symm, ih⟩

end GuestBridge.Host.Scan
