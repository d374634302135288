import GuestBridge.Proofs.Host.Scan.Literal

/-!
# Scanning comments

Comments end alike in a text and in what is left of it without its margin, so what is skipped
between tokens is skipped alike. The text of a documentation comment loses the margin of its
lines; in a block comment the last line is the one that the closing mark stands on, and counts as
visible.
-/

namespace GuestBridge.Host.Scan

open GuestBridge.Text

variable {m cs rest : List Char} {depth : Nat}

/-! ### Block comments -/

/-- Blanks do not end a block comment. -/
theorem blockCommentEnd_append {b : List Char} (hb : isBlankLine b = true) (depth : Nat)
    (cs : List Char) : blockCommentEnd depth (b ++ cs) = blockCommentEnd depth cs := by
  induction b with
  | nil => rfl
  | cons c b ih =>
    obtain ⟨hc, hb⟩ := Bool.and_eq_true_iff.1 hb
    rw [List.cons_append, blockCommentEnd.eq_3, ih hb]
    all_goals
      rintro rest rfl
      exact absurd hc (by decide)

private theorem blockCommentEnd_cut (h : Indented m cs) (depth : Nat) :
    blockCommentEnd depth (cutMargin m cs) = (blockCommentEnd depth cs).map (cutMargin m) := by
  induction depth, cs using blockCommentEnd.induct with
  | case1 depth cs ih => simpa [blockCommentEnd] using ih h.of_cons.of_cons
  | case2 cs => simp [blockCommentEnd]
  | case3 depth cs hdepth ih => simpa [blockCommentEnd, hdepth] using ih h.of_cons.of_cons
  | case4 depth c cs hopen hclose ih =>
    rw [blockCommentEnd.eq_3 depth c cs hopen hclose]
    by_cases hc : c = '\n'
    · subst hc
      obtain ⟨b, rest, rfl, hb, hcut, hpassed⟩ := h.exists_passed
      have hplain := ih h.of_cons
      rw [hpassed, blockCommentEnd_append hb] at hplain
      rw [hcut, blockCommentEnd.eq_3 _ _ _ (by simp) (by simp), hplain]
    · rw [cutMargin_cons hc, blockCommentEnd.eq_3, ih h.of_cons]
      · intro rest hslash hrest
        obtain ⟨more, rfl, -⟩ := cutMargin_eq_cons (by decide) hrest
        exact hopen more hslash rfl
      · intro rest hstar hrest
        obtain ⟨more, rfl, -⟩ := cutMargin_eq_cons (by decide) hrest
        exact hclose more hstar rfl
  | case5 => rfl

/-- A block comment ends with its closing mark. -/
theorem blockCommentEnd_split (h : blockCommentEnd depth cs = some rest) :
    ∃ text, cs = text ++ '*' :: '/' :: rest := by
  induction depth, cs using blockCommentEnd.induct with
  | case1 depth cs ih =>
    obtain ⟨text, rfl⟩ := ih (by simpa [blockCommentEnd] using h)
    exact ⟨'/' :: '*' :: text, rfl⟩
  | case2 cs =>
    cases h
    exact ⟨[], rfl⟩
  | case3 depth cs hdepth ih =>
    obtain ⟨text, rfl⟩ := ih (by simpa [blockCommentEnd, hdepth] using h)
    exact ⟨'*' :: '/' :: text, rfl⟩
  | case4 depth c cs hopen hclose ih =>
    rw [blockCommentEnd.eq_3 depth c cs hopen hclose] at h
    obtain ⟨text, rfl⟩ := ih h
    exact ⟨c :: text, rfl⟩
  | case5 => cases h

/-! ### Plain comments -/

private theorem startsDocLine_cut (cs : List Char) :
    startsDocLine (cutMargin m cs) = startsDocLine cs := by
  rcases cs with _ | ⟨a, cs⟩
  · rfl
  obtain ⟨rest, hcut⟩ := exists_cutMargin_cons m a cs
  by_cases ha : a = '/'
  case neg => simp [hcut, startsDocLine, ha]
  subst ha
  rw [cutMargin_cons (by decide)]
  rcases cs with _ | ⟨b, cs⟩
  · rfl
  obtain ⟨rest, hcut⟩ := exists_cutMargin_cons m b cs
  by_cases hb : b = '/'
  case neg => simp [hcut, startsDocLine, hb]
  subst hb
  rw [cutMargin_cons (by decide)]
  rcases cs with _ | ⟨c, cs⟩
  · rfl
  obtain ⟨rest, hcut⟩ := exists_cutMargin_cons m c cs
  by_cases hc : c = '/'
  case neg => by_cases hbang : c = '!' <;> simp [hcut, startsDocLine, hc, hbang]
  subst hc
  rw [cutMargin_cons (by decide)]
  rcases cs with _ | ⟨d, cs⟩
  · rfl
  obtain ⟨rest, hcut⟩ := exists_cutMargin_cons m d cs
  by_cases hd : d = '/' <;> simp [hcut, startsDocLine, hd]

/-- Plain comments end alike. -/
theorem plainCommentEnd_cut (h : Indented m cs) :
    plainCommentEnd (cutMargin m cs) = (plainCommentEnd cs).map (cutMargin m) := by
  rcases cs with _ | ⟨a, cs⟩
  · rfl
  obtain ⟨rest, hcut⟩ := exists_cutMargin_cons m a cs
  by_cases ha : a = '/'
  case neg => simp [hcut, plainCommentEnd, ha]
  subst ha
  have hdoc := startsDocLine_cut (m := m) ('/' :: cs)
  rw [cutMargin_cons (by decide)] at hdoc ⊢
  rcases cs with _ | ⟨b, cs⟩
  · rfl
  obtain ⟨rest, hcut⟩ := exists_cutMargin_cons m b cs
  by_cases hb : b = '/'
  · subst hb
    rw [cutMargin_cons (by decide)] at hdoc ⊢
    simp only [plainCommentEnd, hdoc, lineEnd_cut]
    split <;> rfl
  by_cases hstar : b = '*'
  case neg => simp [hcut, plainCommentEnd, hb, hstar]
  subst hstar
  rw [cutMargin_cons (by decide)]
  have hbody := blockCommentEnd_cut h.of_cons.of_cons 0
  rcases cs with _ | ⟨c, cs⟩
  · rfl
  obtain ⟨rest, hcut⟩ := exists_cutMargin_cons m c cs
  by_cases hbang : c = '!'
  · simp [plainCommentEnd, hbang]
  by_cases hc : c = '*'
  case neg => simpa [hcut, plainCommentEnd, hbang, hc] using hbody
  subst hc
  rw [cutMargin_cons (by decide)] at hbody ⊢
  rcases cs with _ | ⟨d, cs⟩
  · rfl
  obtain ⟨rest, hcut⟩ := exists_cutMargin_cons m d cs
  by_cases hd : d = '/'
  · simp [plainCommentEnd, hd]
  by_cases hstars : d = '*'
  · subst hstars
    simpa [plainCommentEnd] using hbody
  · simp [hcut, plainCommentEnd, hd, hstars]

/-! ### Blanks -/

private theorem blockCommentEnd_suffix (h : blockCommentEnd depth cs = some rest) :
    rest <:+ cs := by
  obtain ⟨text, rfl⟩ := blockCommentEnd_split h
  exact ⟨text ++ ['*', '/'], by simp⟩

/-- A plain comment is not empty. -/
theorem plainCommentEnd_suffix {c : Char} (h : plainCommentEnd (c :: cs) = some rest) :
    rest <:+ cs := by
  unfold plainCommentEnd at h
  split at h
  next line heq =>
    cases heq
    obtain ⟨-, h⟩ := Option.ite_none_left_eq_some.1 h
    cases h
    exact (inLine_lineEnd line).suffix.trans (List.suffix_cons _ _)
  next heq =>
    cases heq
    cases h
    exact ⟨['*', '*', '/'], rfl⟩
  next => cases h
  next heq =>
    cases heq
    exact (blockCommentEnd_suffix h).trans (List.suffix_cons _ _)
  next => cases h
  next heq =>
    cases heq
    exact (blockCommentEnd_suffix h).trans (List.suffix_cons _ _)
  next => cases h

private theorem isSourceBlank_of_isBlank {c : Char} (hc : isBlank c = true) :
    isSourceBlank c = true := by
  simp [isSourceBlank, hc]

/-- Blanks in front of a text are skipped. -/
theorem skipBlanks_append {b : List Char} (hb : isBlankLine b = true) (fuel : Nat)
    (cs : List Char) : skipBlanks (b.length + fuel) (b ++ cs) = skipBlanks fuel cs := by
  induction b with
  | nil => simp
  | cons c b ih =>
    obtain ⟨hc, hb⟩ := Bool.and_eq_true_iff.1 hb
    have hcomment : plainCommentEnd (c :: (b ++ cs)) = none := by
      have hslash : c ≠ '/' := by
        rintro rfl
        exact absurd hc (by decide)
      simp [plainCommentEnd, hslash]
    rw [List.length_cons, Nat.add_right_comm, List.cons_append, skipBlanks, hcomment]
    simp only [isSourceBlank_of_isBlank hc, if_true]
    exact ih hb

/-- The same is skipped between tokens; only blanks at line starts may be missing. -/
theorem skipBlanks_cut {fuel fuel' : Nat} (h : Indented m cs) (hfuel : cs.length < fuel)
    (hfuel' : (cutMargin m cs).length < fuel') :
    skipBlanks fuel' (cutMargin m cs) = cutMargin m (skipBlanks fuel cs) := by
  induction hn : cs.length using Nat.strongRecOn generalizing cs fuel fuel' with
  | ind n ih =>
    obtain ⟨fuel, rfl⟩ := Nat.exists_eq_succ_of_ne_zero (Nat.ne_of_gt (Nat.zero_lt_of_lt hfuel))
    obtain ⟨fuel', rfl⟩ := Nat.exists_eq_succ_of_ne_zero (Nat.ne_of_gt (Nat.zero_lt_of_lt hfuel'))
    rcases cs with _ | ⟨c, cs⟩
    · rfl
    · have hcomment := plainCommentEnd_cut h
      obtain ⟨cut, hcut⟩ := exists_cutMargin_cons m c cs
      simp only [hcut, List.length_cons] at hcomment hfuel hfuel' hn ⊢
      simp only [skipBlanks, hcomment]
      cases hplain : plainCommentEnd (c :: cs) with
      | some rest =>
        have hsuffix := plainCommentEnd_suffix hplain
        have hlength := hsuffix.length_le
        have hlengthCut := (plainCommentEnd_suffix (hcomment.trans (by rw [hplain]; rfl))).length_le
        exact ih rest.length (by omega) (h.of_cons.of_suffix hsuffix) (by omega) (by omega) rfl
      | none =>
        by_cases hc : c = '\n'
        · subst hc
          obtain ⟨b, rest, rfl, hb, hnewline, -⟩ := h.exists_passed
          cases hcut.symm.trans hnewline
          rw [List.length_append] at hfuel hn
          obtain ⟨left, rfl⟩ := Nat.exists_eq_add_of_le (show b.length ≤ fuel by omega)
          have hrest := h.of_cons.of_suffix (List.suffix_append b rest)
          simp only [Option.map_none, show isSourceBlank '\n' = true by decide, if_true,
            skipBlanks_append hb]
          exact ih rest.length (by omega) hrest (by omega) (by omega) rfl
        · rw [cutMargin_cons hc, List.cons.injEq] at hcut
          obtain ⟨-, rfl⟩ := hcut
          simp only [Option.map_none]
          split
          · exact ih cs.length (by omega) h.of_cons (by omega) (by omega) rfl
          · rw [cutMargin_cons hc]

/-- What is skipped ends with no blank. -/
theorem skipBlanks_suffix (fuel : Nat) (cs : List Char) : skipBlanks fuel cs <:+ cs := by
  induction fuel generalizing cs with
  | zero => exact List.suffix_rfl
  | succ fuel ih =>
    rcases cs with _ | ⟨c, cs⟩
    · exact List.suffix_rfl
    · unfold skipBlanks
      split
      next rest hplain =>
        exact (ih rest).trans ((plainCommentEnd_suffix hplain).trans (List.suffix_cons _ _))
      next =>
        split
        · exact (ih cs).trans (List.suffix_cons _ _)
        · exact List.suffix_rfl

/-- Behind the blanks that are skipped there is no blank. -/
theorem skipBlanks_head {fuel : Nat} (h : cs.length < fuel) {c : Char}
    (hc : c ∈ (skipBlanks fuel cs).head?) : isSourceBlank c = false := by
  induction fuel generalizing cs with
  | zero => omega
  | succ fuel ih =>
    rcases cs with _ | ⟨d, cs⟩
    · cases hc
    · unfold skipBlanks at hc
      rw [List.length_cons] at h
      split at hc
      next rest hplain =>
        have hlength := (plainCommentEnd_suffix hplain).length_le
        exact ih (by omega) hc
      next =>
        split at hc
        · exact ih (by omega) hc
        next hd =>
          cases hc
          exact Bool.eq_false_iff.2 hd

/-! ### Documentation comments -/

/-- The text of a documentation comment when the margin of its lines is cut. The last line of a
block comment is not cut like a line of blanks, since the closing mark stands on it. -/
def cutDoc (m text : List Char) : List Char :=
  if cutMargin m text = text then text
  else
    let cut := cutMargin m (text ++ ['*', '/'])
    cut.take (cut.length - 2)

/-- A doc comment that has no margin to lose stays as it is. -/
theorem cutDoc_fixed {text : List Char} (h : cutMargin m text = text) : cutDoc m text = text :=
  if_pos h

private theorem block_suffix {text : List Char} {marked inner : Bool}
    (h : docComment?.block cs marked = some (text, inner, rest)) : rest <:+ cs := by
  obtain ⟨last, hend, h⟩ := Option.map_eq_some_iff.1 h
  cases h
  exact blockCommentEnd_suffix hend

/-- What remains behind a doc comment is an end of the text. -/
theorem docComment?_suffix {text : List Char} {inner : Bool}
    (h : docComment? cs = some (text, inner, rest)) : rest <:+ cs := by
  have hmark (mark : List Char) {body : List Char} (hbody : rest <:+ body) :
      rest <:+ mark ++ body := hbody.trans (List.suffix_append _ _)
  unfold docComment? at h
  split at h
  next body =>
    cases h
    exact hmark ['/', '/', '!'] (inLine_lineEnd body).suffix
  next body => exact hmark ['/', '*', '!'] (block_suffix h)
  next body =>
    obtain ⟨-, h⟩ := Option.ite_none_left_eq_some.1 h
    cases h
    exact hmark ['/', '/', '/'] (inLine_lineEnd body).suffix
  next body =>
    obtain ⟨-, h⟩ := Option.ite_none_left_eq_some.1 h
    exact hmark ['/', '*', '*'] (block_suffix h)
  next => cases h

private theorem block_cut (h : Indented m cs) (inner : Bool) :
    docComment?.block (cutMargin m cs) inner =
      (docComment?.block cs inner).map fun (text, inner, rest) ↦
        (cutDoc m text, inner, cutMargin m rest) := by
  rw [docComment?.block, docComment?.block, blockCommentEnd_cut h]
  cases hend : blockCommentEnd 0 cs with
  | none => rfl
  | some rest =>
    obtain ⟨text, rfl⟩ := blockCommentEnd_split hend
    have hcloses : Closes (text ++ '*' :: '/' :: rest) rest :=
      (Closes.of_inLine (by decide) (.refl rest)).cons '*' |>.append text
    have hpiece : between (text ++ '*' :: '/' :: rest) rest = text ++ ['*', '/'] := by
      rw [← between_append (text ++ ['*', '/']) rest]
      simp
    have hcut : (cutMargin m (text ++ ['*', '/'])).take
        ((cutMargin m (text ++ ['*', '/'])).length - 2) = cutDoc m text := by
      unfold cutDoc
      split
      next hfixed =>
        rw [show text ++ '*' :: '/' :: rest = text ++ ['*', '/'] ++ rest by simp] at h
        rw [h.of_append.cutMargin_append_fixed (by decide) ⟨'*', rfl, by decide⟩ hfixed]
        simp
      next => rfl
    simp [hcloses.between_cut h, hpiece, hcut]

private theorem docComment?_cut_line (cs : List Char) : docComment? ('/' :: '/' :: cutMargin m cs) =
    (docComment? ('/' :: '/' :: cs)).map fun (text, inner, rest) ↦
      (cutDoc m text, inner, cutMargin m rest) := by
  rcases cs with _ | ⟨c, cs⟩
  · rfl
  obtain ⟨rest, hcut⟩ := exists_cutMargin_cons m c cs
  have hline := cutDoc_fixed (cutMargin_line (m := m) (newline_notMem_lineEnd cs))
  by_cases hbang : c = '!'
  · subst hbang
    simp [docComment?, lineEnd_cut, hline]
  by_cases hc : c = '/'
  case neg => simp [hcut, docComment?, hbang, hc]
  subst hc
  simp only [cutMargin_cons (show '/' ≠ '\n' by decide), docComment?, head?_cutMargin, lineEnd_cut]
  split
  · rfl
  · simp [hline]

private theorem docComment?_cut_block (h : Indented m cs) :
    docComment? ('/' :: '*' :: cutMargin m cs) =
    (docComment? ('/' :: '*' :: cs)).map fun (text, inner, rest) ↦
      (cutDoc m text, inner, cutMargin m rest) := by
  rcases cs with _ | ⟨c, cs⟩
  · rfl
  obtain ⟨rest, hcut⟩ := exists_cutMargin_cons m c cs
  by_cases hbang : c = '!'
  · subst hbang
    simpa [docComment?] using block_cut h.of_cons true
  by_cases hc : c = '*'
  case neg => simp [hcut, docComment?, hbang, hc]
  subst hc
  simp only [cutMargin_cons (show '*' ≠ '\n' by decide), docComment?, head?_cutMargin]
  split
  · rfl
  · exact block_cut h.of_cons false

/-- Documentation comments end alike, and only the margin of their lines is missing. -/
theorem docComment?_cut (h : Indented m cs) :
    docComment? (cutMargin m cs) =
      (docComment? cs).map fun (text, inner, rest) ↦ (cutDoc m text, inner, cutMargin m rest) := by
  rcases cs with _ | ⟨a, cs⟩
  · rfl
  obtain ⟨rest, hcut⟩ := exists_cutMargin_cons m a cs
  by_cases ha : a = '/'
  case neg => simp [hcut, docComment?, ha]
  subst ha
  rw [cutMargin_cons (by decide)]
  rcases cs with _ | ⟨b, cs⟩
  · rfl
  obtain ⟨rest, hcut⟩ := exists_cutMargin_cons m b cs
  by_cases hb : b = '/'
  · subst hb
    rw [cutMargin_cons (by decide), docComment?_cut_line]
  by_cases hstar : b = '*'
  · subst hstar
    rw [cutMargin_cons (by decide), docComment?_cut_block h.of_cons.of_cons]
  · simp [hcut, docComment?, hb, hstar]

end GuestBridge.Host.Scan
