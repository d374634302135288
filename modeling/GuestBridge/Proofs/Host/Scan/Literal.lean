import GuestBridge.Host.StringLiteral
import GuestBridge.Proofs.Host.Scan.InLine

/-!
# Scanning literals across lines

String literals are the tokens that can reach over several lines. Where one that is well formed
ends does not depend on its escapes: it ends with the first quote that no backslash stands in
front of, or, if it is raw, with the first quote that enough hashes follow. Neither mark can be
a blank, so cutting a margin leaves the ends of literals where they are.
-/

namespace GuestBridge.Host.Scan

open GuestBridge.Text StringLiteral.plainText

variable {m cs rest rest' : List Char} {kind kind' : QuotedKind} {fuel fuel' : Nat}

/-! ### Escapes -/

/-- A piece of an escape in which neither quotes nor backslashes stand. -/
def Unmarked (piece : List Char) : Prop :=
  ∀ c ∈ piece, c ≠ '"' ∧ c ≠ '\\'

/-- The empty piece is unmarked. -/
theorem Unmarked.nil : Unmarked [] :=
  List.forall_mem_nil _

/-- Neither a quote nor a backslash in front keeps a piece unmarked. -/
theorem Unmarked.cons {c : Char} {piece : List Char} (hc : c ≠ '"' ∧ c ≠ '\\')
    (h : Unmarked piece) : Unmarked (c :: piece) :=
  List.forall_mem_cons.2 ⟨hc, h⟩

/-- Blank lines are unmarked. -/
theorem Unmarked.of_isBlankLine {piece : List Char} (h : isBlankLine piece = true) :
    Unmarked piece := by
  intro c hc
  have hblank := List.all_eq_true.1 h c hc
  constructor <;>
  · rintro rfl
    exact absurd hblank (by decide)

/-- Digits are no marks. -/
theorem unmarked_of_isHex {c : Char} (h : isHex c = true) : c ≠ '"' ∧ c ≠ '\\' := by
  constructor <;>
  · rintro rfl
    exact absurd h (by decide)

private theorem isHex_of_isOctalDigit {c : Char} (h : isOctalDigit c = true) : isHex c = true := by
  have hc : '0' ≤ c ∧ c ≤ '7' := by simpa [isOctalDigit] using h
  have hc' : c ≤ '9' := Char.le_trans hc.2 (by decide)
  simp [isHex, hexValue, hc.1, hc']

/-- A code-point escape is read from the same piece whatever follows it. -/
theorem codeEscapeDigits_split {count value n : Nat}
    (h : codeEscapeDigits count value cs = some (n, rest)) :
    ∃ piece, cs = piece ++ rest ∧ Unmarked piece ∧ '\n' ∉ piece ∧
      ∀ more, codeEscapeDigits count value (piece ++ more) = some (n, more) := by
  induction cs generalizing count value with
  | nil => cases h
  | cons c cs ih =>
    unfold codeEscapeDigits at h
    split at h
    next d hdigit =>
      obtain ⟨hcount, h⟩ := Option.ite_none_left_eq_some.1 h
      obtain ⟨piece, rfl, hpiece, hline, hread⟩ := ih h
      have hc : c ≠ '\n' := by
        rintro rfl
        cases hdigit
      refine ⟨c :: piece, rfl, .cons (unmarked_of_isHex (by simp [isHex, hdigit])) hpiece,
        by simp [hc.symm, hline], ?_⟩
      intro more
      simp [codeEscapeDigits, hdigit, hcount, hread]
    next hdigit =>
      obtain ⟨hcount, h⟩ := Option.ite_none_left_eq_some.1 h
      split at h
      next hc =>
        obtain ⟨piece, rfl, hpiece, hline, hread⟩ := ih h
        refine ⟨c :: piece, rfl, .cons (by simp [hc]) hpiece, by simp [hc, hline], fun more ↦ ?_⟩
        rw [List.cons_append, codeEscapeDigits, hdigit]
        simp [hcount, hc, hread]
      next hunderscore =>
        obtain ⟨hc, h⟩ := Option.ite_none_right_eq_some.1 h
        obtain ⟨hscalar, h⟩ := Option.ite_none_right_eq_some.1 h
        cases h
        refine ⟨[c], rfl, .cons (by simp [hc]) .nil, by simp [hc], fun more ↦ ?_⟩
        rw [List.cons_append, codeEscapeDigits, hdigit]
        simp [hcount, hc, hscalar]

/-- A code escape is an unmarked piece of its line and means the same before any text. -/
theorem codeEscape?_split {n : Nat} (h : codeEscape? cs = some (n, rest)) :
    ∃ piece, cs = piece ++ rest ∧ Unmarked piece ∧ '\n' ∉ piece ∧
      ∀ more, codeEscape? (piece ++ more) = some (n, more) := by
  unfold codeEscape? at h
  split at h
  next cs =>
    obtain ⟨piece, rfl, hpiece, hline, hread⟩ := codeEscapeDigits_split h
    exact ⟨'{' :: piece, rfl, .cons (by decide) hpiece, by simp [hline], hread⟩
  next => cases h

/-- A line that is continued swallows all blanks up to something else. -/
theorem continuationEnd_split {afterReturn : Bool}
    (h : continuationEnd afterReturn cs = some rest) :
    ∃ piece, cs = piece ++ rest ∧ (∀ c ∈ piece, isLineBlank c = true) ∧
      ∃ c ∈ rest.head?, isLineBlank c = false := by
  induction cs generalizing afterReturn with
  | nil => cases afterReturn <;> cases h
  | cons c cs ih =>
    cases afterReturn with
    | true =>
      unfold continuationEnd at h
      split at h
      next heq =>
        cases heq
        obtain ⟨piece, rfl, hpiece, hrest⟩ := ih h
        exact ⟨'\n' :: piece, rfl, List.forall_mem_cons.2 ⟨rfl, hpiece⟩, hrest⟩
      all_goals simp_all
    | false =>
      unfold continuationEnd at h
      split at h
      next hc =>
        obtain ⟨piece, rfl, hpiece, hrest⟩ := ih h
        exact ⟨c :: piece, rfl, List.forall_mem_cons.2 ⟨by simp [isLineBlank, hc], hpiece⟩, hrest⟩
      next hreturn =>
        split at h
        next hc =>
          obtain ⟨piece, rfl, hpiece, hrest⟩ := ih h
          have hblank : isLineBlank c = true := by simp [isLineBlank, hc]
          exact ⟨c :: piece, rfl, List.forall_mem_cons.2 ⟨hblank, hpiece⟩, hrest⟩
        next hc =>
          cases h
          refine ⟨[], rfl, List.forall_mem_nil _, c, rfl, ?_⟩
          simp only [Bool.not_eq_true] at hc
          simp [isLineBlank, hc, hreturn]

/-- Blanks of a line are unmarked. -/
theorem unmarked_of_isLineBlank {piece : List Char} (h : ∀ c ∈ piece, isLineBlank c = true) :
    Unmarked piece := by
  intro c hc
  have hblank := h c hc
  constructor <;>
  · rintro rfl
    exact absurd hblank (by decide)

/-- A byte escape ends behind two hexadecimal digits. -/
theorem byteEscapeEnd_split (h : byteEscapeEnd kind cs = some rest) :
    ∃ a b, cs = a :: b :: rest ∧ isHex a = true ∧ isHex b = true := by
  rcases cs with _ | ⟨a, _ | ⟨b, cs⟩⟩
  · cases h
  · cases h
  · obtain ⟨hallowed, h⟩ := Option.ite_none_right_eq_some.1 h
    cases h
    refine ⟨a, b, rfl, ?_⟩
    cases kind with
    | text =>
      obtain ⟨ha, hb⟩ := Bool.and_eq_true_iff.1 hallowed
      exact ⟨isHex_of_isOctalDigit ha, hb⟩
    | bytes => exact Bool.and_eq_true_iff.1 hallowed
    | terminated => exact Bool.and_eq_true_iff.1 (Bool.and_eq_true_iff.1 hallowed).1

/-- The forms of escapes, from behind the backslash on, with what remains behind them. -/
inductive EscapeEnds (kind : QuotedKind) : List Char → List Char → Prop
  | byte {cs rest : List Char} (h : byteEscapeEnd kind cs = some rest) :
    EscapeEnds kind ('x' :: cs) rest
  | simple {c d : Char} {rest : List Char} (h : StringLiteral.simpleEscape c = some d) :
    EscapeEnds kind (c :: rest) rest
  | code {cs rest : List Char} {n : Nat} (h : codeEscape? cs = some (n, rest)) :
    EscapeEnds kind ('u' :: cs) rest
  | continued {c : Char} {afterReturn : Bool} {cs rest : List Char} (hc : c = '\n' ∨ c = '\r')
    (h : continuationEnd afterReturn cs = some rest) : EscapeEnds kind (c :: cs) rest

/-- An escape that ends has one of the forms. -/
theorem escapeEnds_of_escapeEnd (h : escapeEnd kind cs = some rest) : EscapeEnds kind cs rest := by
  rcases cs with _ | ⟨c, cs⟩
  · cases h
  simp only [escapeEnd] at h
  split at h
  next hc => exact hc ▸ .byte h
  next =>
    split at h
    next hc =>
      cases h
      simp only [Bool.or_eq_true, decide_eq_true_eq] at hc
      rcases hc with ((((rfl | rfl) | rfl) | rfl) | rfl) | rfl <;> exact .simple rfl
    next =>
      split at h
      next hc =>
        obtain ⟨-, h⟩ := Option.ite_none_left_eq_some.1 h
        cases h
        exact .simple (by rw [hc]; rfl)
      next =>
        split at h
        next hc =>
          subst hc
          split at h
          · cases h
          next hcode =>
            cases h
            exact .code hcode
          next hcode =>
            obtain ⟨-, h⟩ := Option.ite_none_left_eq_some.1 h
            cases h
            exact .code hcode
          · cases h
        next =>
          split at h
          next hc => exact .continued (.inl hc) h
          next =>
            split at h
            next hc => exact .continued (.inr hc) h
            next => cases h

/-- An escape is a character with an unmarked piece behind it. -/
theorem escapeEnd_split (h : escapeEnd kind cs = some rest) :
    ∃ c piece, cs = c :: (piece ++ rest) ∧ Unmarked piece := by
  cases escapeEnds_of_escapeEnd h with
  | byte h =>
    obtain ⟨a, b, rfl, ha, hb⟩ := byteEscapeEnd_split h
    exact ⟨'x', [a, b], rfl, .cons (unmarked_of_isHex ha) (.cons (unmarked_of_isHex hb) .nil)⟩
  | simple h => exact ⟨_, [], rfl, .nil⟩
  | code h =>
    obtain ⟨piece, rfl, hpiece, -, -⟩ := codeEscape?_split h
    exact ⟨'u', piece, rfl, hpiece⟩
  | continued _ h =>
    obtain ⟨piece, rfl, hpiece, -⟩ := continuationEnd_split h
    exact ⟨_, piece, rfl, unmarked_of_isLineBlank hpiece⟩

/-! ### Closing quotes -/

/-- The rest behind the first quote that no backslash stands in front of, and its suffix. -/
def quotedEnd : (escaped : Bool) → List Char → Option (List Char)
  | _, [] => none
  | true, _ :: cs => quotedEnd false cs
  | false, c :: cs => if c = '"' then some (suffixEnd cs) else quotedEnd (c = '\\') cs

private theorem quotedEnd_append {piece : List Char} (h : Unmarked piece) (cs : List Char) :
    quotedEnd false (piece ++ cs) = quotedEnd false cs := by
  induction piece with
  | nil => rfl
  | cons c piece ih =>
    obtain ⟨hc, hpiece⟩ := List.forall_mem_cons.1 h
    simp [quotedEnd, hc.1, hc.2, ih hpiece]

/-- The escapes of a literal that is well formed do not matter for its end. -/
theorem quotedEnd_of_cookedEnd (h : cookedEnd kind fuel cs = some rest) :
    quotedEnd false cs = some rest := by
  induction fuel generalizing cs with
  | zero => cases h
  | succ fuel ih =>
    rcases cs with _ | ⟨c, cs⟩
    · cases h
    · unfold cookedEnd at h
      split at h
      next hc => simpa [quotedEnd, hc] using h
      next hquote =>
        split at h
        next hc =>
          split at h
          next cs => simpa [quotedEnd, hc] using ih h
          next => cases h
        next =>
          split at h
          next hc =>
            obtain ⟨after, hescape, hafter⟩ := Option.bind_eq_some_iff.1 h
            obtain ⟨d, piece, rfl, hpiece⟩ := escapeEnd_split hescape
            simpa [quotedEnd, hc, quotedEnd_append hpiece] using ih hafter
          next hslash =>
            obtain ⟨-, h⟩ := Option.ite_none_right_eq_some.1 h
            simpa [quotedEnd, hquote, hslash] using ih h

/-- The opening of a raw literal is read whatever follows it. -/
theorem rawOpening_split {hashes n : Nat} (h : rawOpening hashes cs = some (n, rest)) :
    ∃ piece, cs = piece ++ rest ∧ ∀ more, rawOpening hashes (piece ++ more) = some (n, more) := by
  induction cs generalizing hashes with
  | nil => cases h
  | cons c cs ih =>
    unfold rawOpening at h
    split at h
    next heq =>
      cases heq
      obtain ⟨piece, rfl, hread⟩ := ih h
      exact ⟨'#' :: piece, rfl, hread⟩
    next heq =>
      cases heq
      obtain ⟨hbound, h⟩ := Option.ite_none_right_eq_some.1 h
      cases h
      exact ⟨['"'], rfl, fun more ↦ if_pos hbound⟩
    next => cases h

/-- The rest behind the first quote that enough hashes follow, and its suffix. -/
def rawQuotedEnd (hashes : Nat) : List Char → Option (List Char)
  | [] => none
  | c :: cs =>
    if c = '"' ∧ cs.take hashes = List.replicate hashes '#' then
      some (suffixEnd (cs.drop hashes))
    else rawQuotedEnd hashes cs

private theorem rawQuotedEnd_cons {c : Char} (hc : c ≠ '"') (hashes : Nat) (cs : List Char) :
    rawQuotedEnd hashes (c :: cs) = rawQuotedEnd hashes cs :=
  if_neg fun h ↦ hc h.1

private theorem rawQuotedEnd_append {piece : List Char} (h : Unmarked piece) (hashes : Nat)
    (cs : List Char) : rawQuotedEnd hashes (piece ++ cs) = rawQuotedEnd hashes cs := by
  induction piece with
  | nil => rfl
  | cons c piece ih =>
    obtain ⟨hc, hpiece⟩ := List.forall_mem_cons.1 h
    rw [List.cons_append, rawQuotedEnd_cons hc.1, ih hpiece]

/-- A raw literal closes behind the first quote that enough hashes follow. -/
theorem rawQuotedEnd_of_rawClosing {hashes : Nat} (h : rawClosing kind hashes cs = some rest) :
    rawQuotedEnd hashes cs = some rest := by
  induction cs using rawClosing.induct kind hashes with
  | case1 => cases h
  | case2 cs ih =>
    rw [rawClosing] at h
    rw [rawQuotedEnd_cons (by decide), rawQuotedEnd_cons (by decide), ih h]
  | case3 c cs hreturn hclose =>
    rw [rawClosing.eq_3 kind hashes c cs hreturn, if_pos hclose] at h
    rwa [rawQuotedEnd, if_pos (by simpa using hclose)]
  | case4 c cs hreturn hclose hplain =>
    rw [rawClosing.eq_3 kind hashes c cs hreturn, if_neg hclose, if_pos hplain] at h
    cases h
  | case5 c cs hreturn hclose hplain ih =>
    rw [rawClosing.eq_3 kind hashes c cs hreturn, if_neg hclose, if_neg hplain] at h
    rw [rawQuotedEnd, if_neg (by simpa using hclose), ih h]

/-! ### Margins -/

private theorem quotedEnd_cut (h : Indented m cs) (escaped : Bool) :
    quotedEnd escaped (cutMargin m cs) = (quotedEnd escaped cs).map (cutMargin m) := by
  induction cs generalizing escaped with
  | nil => cases escaped <;> rfl
  | cons c cs ih =>
    by_cases hc : c = '\n'
    · subst hc
      obtain ⟨b, rest, rfl, hb, hcut, hpassed⟩ := h.exists_passed
      have hplain := ih h.of_cons false
      rw [hpassed, quotedEnd_append (.of_isBlankLine hb)] at hplain
      cases escaped <;> simpa [hcut, quotedEnd] using hplain
    · rw [cutMargin_cons hc]
      cases escaped with
      | true => exact ih h.of_cons false
      | false =>
        simp only [quotedEnd]
        split
        · rw [suffixEnd_cut, Option.map_some]
        · exact ih h.of_cons _

/-- Hashes are no blanks. -/
theorem take_hashes_cut (n : Nat) (cs : List Char) :
    (cutMargin m cs).take n = List.replicate n '#' ↔ cs.take n = List.replicate n '#' := by
  induction n generalizing cs with
  | zero => simp
  | succ n ih =>
    rcases cs with _ | ⟨c, cs⟩
    · rfl
    · by_cases hc : c = '\n'
      · subst hc
        obtain ⟨rest, h⟩ := exists_cutMargin_newline m cs
        simp [h, List.replicate_succ]
      · simp [hc, List.replicate_succ, ih]

private theorem drop_hashes_cut {n : Nat} (h : cs.take n = List.replicate n '#') :
    (cutMargin m cs).drop n = cutMargin m (cs.drop n) := by
  have hlength : n ≤ cs.length := by
    have hlength := congrArg List.length h
    rw [List.length_take, List.length_replicate] at hlength
    omega
  rw [← List.take_append_drop n cs, h, cutMargin_append_line (by simp)]
  simp

private theorem rawQuotedEnd_cut (h : Indented m cs) (hashes : Nat) :
    rawQuotedEnd hashes (cutMargin m cs) = (rawQuotedEnd hashes cs).map (cutMargin m) := by
  induction cs with
  | nil => rfl
  | cons c cs ih =>
    by_cases hc : c = '\n'
    · subst hc
      obtain ⟨b, rest, rfl, hb, hcut, hpassed⟩ := h.exists_passed
      have hplain := ih h.of_cons
      rw [hpassed, rawQuotedEnd_append (.of_isBlankLine hb)] at hplain
      rw [hcut, rawQuotedEnd_cons (by decide), rawQuotedEnd_cons (by decide), hplain]
    · rw [cutMargin_cons hc]
      simp only [rawQuotedEnd, take_hashes_cut]
      split
      next hclose => rw [drop_hashes_cut hclose.2, suffixEnd_cut, Option.map_some]
      next => exact ih h.of_cons

/-! ### Pieces -/

/-- What remains of a text behind a mark that is no blank and a piece of its line. -/
def Closes (cs rest : List Char) : Prop :=
  ∃ front mark last, cs = front ++ mark :: last ∧ isBlank mark = false ∧ InLine last rest

/-- A text that closes does so with one more character in front. -/
theorem Closes.cons (c : Char) (h : Closes cs rest) : Closes (c :: cs) rest := by
  obtain ⟨front, mark, last, rfl, hmark, hlast⟩ := h
  exact ⟨c :: front, mark, last, rfl, hmark, hlast⟩

/-- A text that closes does so with one more piece in front. -/
theorem Closes.append (piece : List Char) (h : Closes cs rest) : Closes (piece ++ cs) rest := by
  obtain ⟨front, mark, last, rfl, hmark, hlast⟩ := h
  exact ⟨piece ++ front, mark, last, by simp, hmark, hlast⟩

/-- A mark that is no blank closes with any piece of its line behind it. -/
theorem Closes.of_inLine {mark : Char} (hmark : isBlank mark = false) (h : InLine cs rest) :
    Closes (mark :: cs) rest :=
  ⟨[], mark, cs, rfl, hmark, h⟩

/-- What remains behind a text that closes is an end of it. -/
theorem Closes.suffix (h : Closes cs rest) : rest <:+ cs := by
  obtain ⟨front, mark, last, rfl, -, hlast⟩ := h
  exact hlast.suffix.trans ((List.suffix_cons mark last).trans (List.suffix_append front _))

/-- What was read is cut like a text of its own. -/
theorem Closes.between_cut (hcs : Closes cs rest) (h : Indented m cs) :
    between (cutMargin m cs) (cutMargin m rest) = cutMargin m (between cs rest) := by
  obtain ⟨front, mark, last, rfl, hmark, suffix, rfl, hsuffix⟩ := hcs
  have hpiece : IsPiece (front ++ mark :: suffix) :=
    ⟨front ++ [mark], suffix, by simp, by simp [hmark], hsuffix⟩
  rw [show front ++ mark :: (suffix ++ rest) = front ++ mark :: suffix ++ rest by simp] at h ⊢
  rw [h.cutMargin_append hpiece, between_append, between_append]

private theorem closes_of_quotedEnd {escaped : Bool} (h : quotedEnd escaped cs = some rest) :
    Closes cs rest := by
  induction cs generalizing escaped with
  | nil => cases escaped <;> cases h
  | cons c cs ih =>
    cases escaped with
    | true => exact .cons c (ih h)
    | false =>
      unfold quotedEnd at h
      split at h
      next hc =>
        cases h
        exact hc ▸ .of_inLine (by decide) (inLine_suffixEnd cs)
      next => exact .cons c (ih h)

private theorem closes_of_rawQuotedEnd {hashes : Nat} (h : rawQuotedEnd hashes cs = some rest) :
    Closes cs rest := by
  induction cs with
  | nil => cases h
  | cons c cs ih =>
    unfold rawQuotedEnd at h
    split at h
    next hc =>
      cases h
      rw [hc.1]
      refine .of_inLine (by decide)
        (.trans ⟨List.replicate hashes '#', ?_, by simp⟩ (inLine_suffixEnd _))
      rw [← hc.2, List.take_append_drop]
    next => exact .cons c (ih h)

/-! ### String literals -/

section

variable (h : Indented m cs)
include h

private theorem cookedEnd_cut (hcs : cookedEnd kind fuel cs = some rest)
    (hcut : cookedEnd kind' fuel' (cutMargin m cs) = some rest') :
    rest' = cutMargin m rest ∧ Closes cs rest := by
  have hquoted := quotedEnd_of_cookedEnd hcs
  have hquotedCut := quotedEnd_of_cookedEnd hcut
  rw [quotedEnd_cut h, hquoted] at hquotedCut
  exact ⟨(Option.some.inj hquotedCut).symm, closes_of_quotedEnd hquoted⟩

private theorem rawEnd_cut (hcs : rawEnd kind cs = some rest)
    (hcut : rawEnd kind' (cutMargin m cs) = some rest') :
    rest' = cutMargin m rest ∧ Closes cs rest := by
  obtain ⟨⟨hashes, body⟩, hopening, hclosing⟩ := Option.bind_eq_some_iff.1 hcs
  rw [rawEnd, rawOpening_cut, hopening] at hcut
  obtain ⟨piece, rfl, -⟩ := rawOpening_split hopening
  have hraw := rawQuotedEnd_of_rawClosing hclosing
  have hrawCut := rawQuotedEnd_of_rawClosing hcut
  rw [rawQuotedEnd_cut (h.of_suffix (List.suffix_append _ _)), hraw] at hrawCut
  exact ⟨(Option.some.inj hrawCut).symm, (closes_of_rawQuotedEnd hraw).append piece⟩

/-- The string literals at the starts of a text and of what is left of it end alike. -/
theorem stringEnd_cut (hcs : stringEnd cs = some rest)
    (hcut : stringEnd (cutMargin m cs) = some rest') :
    rest' = cutMargin m rest ∧ Closes cs rest := by
  unfold stringEnd at hcs
  split at hcs
  next cs =>
    rw [cutMargin_cons (by decide)] at hcut
    exact (cookedEnd_cut h.of_cons hcs hcut).imp_right (.cons _)
  next cs =>
    rw [cutMargin_cons (by decide)] at hcut
    exact (rawEnd_cut h.of_cons hcs hcut).imp_right (.cons _)
  next cs =>
    rw [cutMargin_cons (by decide), cutMargin_cons (by decide)] at hcut
    exact (cookedEnd_cut h.of_cons.of_cons hcs hcut).imp_right (.cons _ ∘ .cons _)
  next cs =>
    rw [cutMargin_cons (by decide), cutMargin_cons (by decide)] at hcut
    exact (rawEnd_cut h.of_cons.of_cons hcs hcut).imp_right (.cons _ ∘ .cons _)
  next cs =>
    rw [cutMargin_cons (by decide), cutMargin_cons (by decide)] at hcut
    exact (cookedEnd_cut h.of_cons.of_cons hcs hcut).imp_right (.cons _ ∘ .cons _)
  next cs =>
    rw [cutMargin_cons (by decide), cutMargin_cons (by decide)] at hcut
    exact (rawEnd_cut h.of_cons.of_cons hcs hcut).imp_right (.cons _ ∘ .cons _)
  next => cases hcs

end

end GuestBridge.Host.Scan
