import GuestBridge.Proofs.Host.Scan.Literal

/-!
# Scanning single tokens

The token that a text starts with is, up to the lines of a literal, the one that the text
without its margin starts with. A text that starts like a string literal or a character literal
without being one starts no token at all, so it does not matter that a cut may repair it.
-/

namespace GuestBridge.Host.Scan

open GuestBridge.Text

variable {m cs rest rest' : List Char} {kind : QuotedKind}

/-! ### Starts of literals -/

/-- The marks that only string literals start with. -/
def stringStarts : List (List Char) :=
  ["\"", "r\"", "r#\"", "r##", "b\"", "br\"", "br#", "c\"", "cr\"", "cr#"].map String.toList

/-- Whether a text starts like a string literal. -/
def opensString (cs : List Char) : Bool :=
  stringStarts.any (·.isPrefixOf cs)

private theorem opensString_cut (cs : List Char) : opensString (cutMargin m cs) = opensString cs :=
  any_isPrefixOf_cut (by decide) cs

/-- What a raw literal opens with. -/
theorem exists_rawOpening {n : Nat} (h : rawOpening 0 cs = some (n, rest)) :
    ∃ more, cs = '"' :: more ∨ cs = '#' :: '"' :: more ∨ cs = '#' :: '#' :: more := by
  rcases cs with _ | ⟨c, cs⟩
  · cases h
  · unfold rawOpening at h
    split at h
    next heq =>
      cases heq
      unfold rawOpening at h
      split at h
      · exact ⟨_, .inr (.inr rfl)⟩
      · exact ⟨_, .inr (.inl rfl)⟩
      · cases h
    next heq =>
      cases heq
      exact ⟨cs, .inl rfl⟩
    next => cases h

private theorem opensString_of_stringEnd (h : stringEnd cs = some rest) :
    opensString cs = true := by
  unfold stringEnd at h
  split at h
  case h_7 => cases h
  case h_1 => rfl
  case h_3 => rfl
  case h_5 => rfl
  all_goals
    obtain ⟨_, hopening, -⟩ := Option.bind_eq_some_iff.1 h
    obtain ⟨more, rfl | rfl | rfl⟩ := exists_rawOpening hopening <;> rfl

/-- A text that starts like a string literal without being one starts no token. -/
theorem leaf?_of_opensString (h : opensString cs = true) (hstring : stringEnd cs = none) :
    leaf? cs = none := by
  obtain ⟨mark, hmark, hprefix⟩ := List.any_eq_true.1 h
  obtain ⟨more, rfl⟩ := List.isPrefixOf_iff_prefix.1 hprefix
  have hmarks : mark = ['"'] ∨ mark = ['r', '"'] ∨ mark = ['r', '#', '"'] ∨
      mark = ['r', '#', '#'] ∨ mark = ['b', '"'] ∨ mark = ['b', 'r', '"'] ∨
      mark = ['b', 'r', '#'] ∨ mark = ['c', '"'] ∨ mark = ['c', 'r', '"'] ∨
      mark = ['c', 'r', '#'] := by
    simpa [stringStarts] using hmark
  have hliteral : literalEnd (mark ++ more) = none := by
    rw [literalEnd, hstring]
    rcases hmarks with rfl | rfl | rfl | rfl | rfl | rfl | rfl | rfl | rfl | rfl <;> rfl
  rw [leaf?.eq_def, hliteral]
  rcases hmarks with rfl | rfl | rfl | rfl | rfl | rfl | rfl | rfl | rfl | rfl <;> rfl

/-! ### Character literals -/

private theorem singleEnd_plain {c : Char} (hc : c ≠ '\\') (cs : List Char) :
    singleEnd kind (c :: cs) = if standsPlain kind c then some cs else none := by
  simp [singleEnd, hc]

/-- A character literal stays within its line, unless its character is a line feed. -/
theorem singleEnd_cut (hn : cs.head? ≠ some '\n') :
    singleEnd kind (cutMargin m cs) = (singleEnd kind cs).map (cutMargin m) := by
  rcases cs with _ | ⟨c, cs⟩
  · rfl
  · have hc : c ≠ '\n' := by simpa using hn
    rw [cutMargin_cons hc]
    by_cases hslash : c = '\\'
    · subst hslash
      by_cases hbreak : cs.head? = some '\n' ∨ cs.head? = some '\r'
      · have hnone : ∀ cs, cs.head? = some '\n' ∨ cs.head? = some '\r' →
            singleEnd kind ('\\' :: cs) = none := by
          rintro (_ | ⟨d, cs⟩) h
          · simp at h
          · obtain h | h := h <;>
            · cases h
              rfl
        rw [hnone _ (by rwa [head?_cutMargin]), hnone _ hbreak, Option.map_none]
      · rw [not_or] at hbreak
        have hescape : ∀ cs, cs.head? ≠ some '\n' → cs.head? ≠ some '\r' →
            singleEnd kind ('\\' :: cs) = escapeEnd kind cs := by
          rintro cs hn hr
          rcases cs with _ | ⟨d, cs⟩
          · rfl
          · simp_all [singleEnd]
        rw [hescape _ (by rw [head?_cutMargin]; exact hbreak.1)
          (by rw [head?_cutMargin]; exact hbreak.2), hescape _ hbreak.1 hbreak.2,
          escapeEnd_cut hbreak.1 hbreak.2]
    · rw [singleEnd_plain hslash, singleEnd_plain hslash]
      split <;> rfl

private theorem closing_cut (cs : List Char) :
    charEnd.closing (cutMargin m cs) = (charEnd.closing cs).map (cutMargin m) := by
  unfold charEnd.closing
  split
  next h =>
    obtain ⟨_, rfl, rfl⟩ := cutMargin_eq_cons (by decide) h
    simp [suffixEnd_cut]
  next hquote =>
    split
    next cs => exact (hquote (cutMargin m cs) (cutMargin_cons (by decide) cs)).elim
    next => rfl

private theorem singleEnd_suffix (h : singleEnd kind cs = some rest) : rest <:+ cs := by
  unfold singleEnd at h
  split at h
  · cases h
  · cases h
  · obtain ⟨c, piece, rfl, -⟩ := escapeEnd_split h
    exact ⟨'\\' :: c :: piece, by simp⟩
  · obtain ⟨-, h⟩ := Option.ite_none_right_eq_some.1 h
    cases h
    exact List.suffix_cons _ _
  · cases h

private theorem closes_of_closing (h : charEnd.closing cs = some rest) : Closes cs rest := by
  unfold charEnd.closing at h
  split at h
  next cs =>
    cases h
    exact .of_inLine (by decide) (inLine_suffixEnd cs)
  next => cases h

private theorem closes_of_charEnd (h : charEnd cs = some rest) : Closes cs rest := by
  have hclosed {kind : QuotedKind} {cs : List Char}
      (h : (singleEnd kind cs).bind charEnd.closing = some rest) : Closes cs rest := by
    obtain ⟨last, hsingle, hclosing⟩ := Option.bind_eq_some_iff.1 h
    obtain ⟨piece, rfl⟩ := singleEnd_suffix hsingle
    exact (closes_of_closing hclosing).append piece
  unfold charEnd at h
  split at h
  · exact .cons _ (.cons _ (hclosed h))
  · exact .cons _ (hclosed h)
  · cases h

/-- What follows the opening of a character literal. -/
theorem charBody_cut (h : Indented m cs)
    (hsome : cs.head? = some '\n' → (singleEnd kind cs).bind charEnd.closing ≠ none) :
    (singleEnd kind (cutMargin m cs)).bind charEnd.closing =
      ((singleEnd kind cs).bind charEnd.closing).map (cutMargin m) := by
  by_cases hn : cs.head? = some '\n'
  · obtain ⟨cs, rfl⟩ := List.head?_eq_some_iff.1 hn
    have hplain : ∀ cs, (singleEnd kind ('\n' :: cs)).bind charEnd.closing =
        if standsPlain kind '\n' then charEnd.closing cs else none := by
      intro cs
      rw [singleEnd_plain (by decide)]
      split <;> rfl
    -- The apostrophe that closes the literal starts the next line, so that line has no margin.
    have hclosing : charEnd.closing cs ≠ none := by
      have hclosed := hsome rfl
      rw [hplain] at hclosed
      split at hclosed
      · exact hclosed
      · exact absurd rfl hclosed
    obtain ⟨b, rest, rfl, hb, hcut, hpassed⟩ := h.exists_passed
    rcases b with _ | ⟨c, b⟩
    · rw [hcut, hplain, hplain, List.nil_append, closing_cut]
      split <;> rfl
    · refine absurd ?_ hclosing
      unfold charEnd.closing
      split
      next heq =>
        cases heq
        exact absurd hb (by simp [isBlankLine, show isBlank '\'' = false by decide])
      next => rfl
  · rw [singleEnd_cut hn]
    cases singleEnd kind cs with
    | none => rfl
    | some last => exact closing_cut last

/-- Where a text starts a token, the character literal that it starts with stays. -/
theorem charEnd_cut (h : Indented m cs) (hleaf : leaf? cs ≠ none) :
    charEnd (cutMargin m cs) = (charEnd cs).map (cutMargin m) := by
  unfold charEnd
  split
  next cs' heq =>
    obtain ⟨_, rfl, hquote⟩ := cutMargin_eq_cons (by decide) heq
    obtain ⟨cs, rfl, rfl⟩ := cutMargin_eq_cons (by decide) hquote
    refine charBody_cut h.of_cons.of_cons fun _ hnone ↦ hleaf ?_
    rw [leaf?.eq_def, literalEnd, charEnd, hnone]
    rfl
  next cs' heq =>
    obtain ⟨cs, rfl, rfl⟩ := cutMargin_eq_cons (by decide) heq
    refine charBody_cut h.of_cons fun hn hnone ↦ hleaf ?_
    obtain ⟨cs, rfl⟩ := List.head?_eq_some_iff.1 hn
    rw [leaf?.eq_def, literalEnd, charEnd, hnone]
    rfl
  next hbyte hquote =>
    split
    next cs => exact (hbyte (cutMargin m cs) (by simp)).elim
    next cs => exact (hquote (cutMargin m cs) (by simp)).elim
    next => rfl

/-! ### Literals -/

/-- What remains of a text behind a literal. -/
def Ends (cs rest : List Char) : Prop :=
  Closes cs rest ∨ InLine cs rest

/-- What remains behind a literal is an end of the text. -/
theorem Ends.suffix (h : Ends cs rest) : rest <:+ cs :=
  h.elim Closes.suffix InLine.suffix

private theorem Ends.between_cut (hcs : Ends cs rest) (h : Indented m cs) :
    between (cutMargin m cs) (cutMargin m rest) = cutMargin m (between cs rest) :=
  hcs.elim (fun hcs ↦ hcs.between_cut h) InLine.between_cutMargin

/-- Where texts start tokens, their literals end alike. -/
theorem literalEnd_cut (h : Indented m cs) (hleaf : leaf? cs ≠ none)
    (hleafCut : leaf? (cutMargin m cs) ≠ none) :
    literalEnd (cutMargin m cs) = (literalEnd cs).map (cutMargin m) ∧
      ∀ rest, literalEnd cs = some rest → Ends cs rest := by
  have hopens := opensString_cut (m := m) cs
  cases hstring : stringEnd cs with
  | some last =>
    rw [opensString_of_stringEnd hstring] at hopens
    cases hstringCut : stringEnd (cutMargin m cs) with
    | none => exact absurd (leaf?_of_opensString hopens hstringCut) hleafCut
    | some last' =>
      obtain ⟨rfl, hcloses⟩ := stringEnd_cut h hstring hstringCut
      have hend : literalEnd cs = some last := by rw [literalEnd, hstring]; rfl
      refine ⟨by rw [hend, literalEnd, hstringCut]; rfl, fun rest hrest ↦ ?_⟩
      cases hend.symm.trans hrest
      exact .inl hcloses
  | none =>
    cases hstringCut : stringEnd (cutMargin m cs) with
    | some last' =>
      rw [opensString_of_stringEnd hstringCut] at hopens
      exact absurd (leaf?_of_opensString hopens.symm hstring) hleaf
    | none =>
      simp only [literalEnd, hstring, hstringCut, charEnd_cut h hleaf, floatEnd_cut,
        integerEnd_cut]
      constructor
      · cases charEnd cs <;> cases floatEnd cs <;> rfl
      · intro rest hrest
        cases hchar : charEnd cs with
        | some last =>
          simp only [hchar] at hrest
          cases hrest
          exact .inl (closes_of_charEnd hchar)
        | none =>
          cases hfloat : floatEnd cs with
          | some last =>
            simp only [hchar, hfloat] at hrest
            cases hrest
            exact .inr (inLine_floatEnd hfloat)
          | none =>
            simp only [hchar, hfloat] at hrest
            exact .inr (inLine_integerEnd hrest)

/-- A token other than a group when the lines of literals are cut. -/
def cutLeaf (m : List Char) : Token → Token
  | .literal text => .literal (cutText m text)
  | t => t

/-- Texts that start tokens start with the same one, but for the lines of a literal. -/
theorem leaf?_cut (h : Indented m cs) (hleaf : leaf? cs ≠ none)
    (hleafCut : leaf? (cutMargin m cs) ≠ none) :
    leaf? (cutMargin m cs) =
      (leaf? cs).map fun (t, rest) ↦ (cutLeaf m t, cutMargin m rest) := by
  obtain ⟨hend, hends⟩ := literalEnd_cut h hleaf hleafCut
  rw [leaf?.eq_def, leaf?.eq_def, hend]
  cases hliteral : literalEnd cs with
  | some rest =>
    simp only [Option.map_some, (hends rest hliteral).between_cut h]
    simp [cutLeaf, cutText]
  | none =>
    rcases cs with _ | ⟨c, cs⟩
    · rfl
    · by_cases hn : c = '\n'
      · subst hn
        refine absurd ?_ hleaf
        rw [leaf?.eq_def, hliteral]
        rfl
      · rw [cutMargin_cons hn]
        by_cases hquote : c = '\''
        · subst hquote
          simp only [Option.map_none, lifetime?_cut]
          cases hlifetime : lifetime? cs with
          | none => rfl
          | some found =>
            obtain ⟨⟨name, last⟩, -, hname⟩ := Option.bind_eq_some_iff.1 hlifetime
            obtain ⟨-, hname⟩ := Option.ite_none_left_eq_some.1 hname
            obtain ⟨-, hname⟩ := Option.ite_none_left_eq_some.1 hname
            cases hname
            rfl
        · have hbroken := any_isPrefixOf_cut (m := m)
            (show ∀ mark ∈ brokenLiteralStarts, '\n' ∉ mark by decide) (c :: cs)
          have hcomment := startsComment_cut (m := m) (c :: cs)
          have hword := word?_cut (m := m) (c :: cs)
          rw [cutMargin_cons hn] at hbroken hcomment hword
          simp only [Option.map_none, hbroken, hcomment, hword, startsPunctuation_cut]
          split
          · rfl
          · split
            · rfl
            · cases word? (c :: cs) <;> rfl

/-- What a text starts with, if it starts a token. All tokens but literals stay in their line. -/
theorem leaf?_cases {t : Token} (h : leaf? cs = some (t, rest)) :
    (literalEnd cs = some rest ∧ t = .literal (String.ofList (between cs rest))) ∨
      InLine cs rest ∧
        ((∃ name, t = .lifetime name) ∨ (∃ c joint, t = .punct c joint) ∨
          ∃ text, t = .word text) := by
  rw [leaf?.eq_def] at h
  split at h
  next hend =>
    cases h
    exact .inl ⟨hend, rfl⟩
  next =>
    right
    split at h
    · obtain ⟨⟨name, last⟩, hword, h⟩ := Option.bind_eq_some_iff.1 h
      obtain ⟨-, h⟩ := Option.ite_none_left_eq_some.1 h
      obtain ⟨-, h⟩ := Option.ite_none_left_eq_some.1 h
      cases h
      exact ⟨.cons (by decide) (inLine_word? hword), .inl ⟨_, rfl⟩⟩
    next c _ _ =>
      split at h
      next hc =>
        cases h
        refine ⟨.cons ?_ (.refl _), .inr (.inl ⟨_, _, rfl⟩)⟩
        rintro rfl
        exact absurd (Bool.and_eq_true_iff.1 hc).1 (by decide)
      next =>
        obtain ⟨-, h⟩ := Option.ite_none_left_eq_some.1 h
        obtain ⟨found, hword, h⟩ := Option.map_eq_some_iff.1 h
        cases h
        exact ⟨inLine_word? hword, .inr (.inr ⟨_, rfl⟩)⟩
    · cases h

/-- The text of a literal token is what was read. -/
theorem leaf?_literal {t : String} (h : leaf? cs = some (.literal t, rest)) :
    literalEnd cs = some rest ∧ t = String.ofList (between cs rest) := by
  rcases leaf?_cases h with ⟨hend, ht⟩ | ⟨-, ⟨_, ht⟩ | ⟨_, _, ht⟩ | ⟨_, ht⟩⟩
  · cases ht
    exact ⟨hend, rfl⟩
  all_goals cases ht

/-- A number stays within its line. -/
theorem inLine_number (h : literalEnd cs = some rest) (hdigit : cs.head?.any isAsciiDigit = true) :
    InLine cs rest := by
  rcases cs with _ | ⟨c, cs⟩
  · cases hdigit
  have hc : c ≠ '"' ∧ c ≠ 'r' ∧ c ≠ 'b' ∧ c ≠ 'c' ∧ c ≠ '\'' := by
    refine ⟨?_, ?_, ?_, ?_, ?_⟩ <;>
    · rintro rfl
      cases hdigit
  have hstring : stringEnd (c :: cs) = none := by simp [stringEnd, hc]
  have hchar : charEnd (c :: cs) = none := by simp [charEnd, hc]
  rw [literalEnd, hstring, hchar] at h
  cases hfloat : floatEnd (c :: cs) with
  | some last =>
    rw [hfloat] at h
    cases h
    exact inLine_floatEnd hfloat
  | none =>
    rw [hfloat] at h
    exact inLine_integerEnd h

end GuestBridge.Host.Scan
