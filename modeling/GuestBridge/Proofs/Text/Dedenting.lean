import GuestBridge.Proofs.Text.Stripped

/-!
# What dedenting takes away

The margin that a text loses is the longest one that all lines with visible characters share:
every such line is the margin and what is left of it, and what is left has no blank in common.
So a dedented text has nothing more to lose, and it does not matter how far the text was indented
before.
-/

namespace GuestBridge.Text

variable {cs line out pre : List Char} {lines outs : List (List Char)} {texts : List (List Char)}

/-! ### Longest common prefixes -/

/-- What starts two texts starts what they have in common. -/
theorem prefix_commonPrefix {as bs : List Char} (ha : cs <+: as) (hb : cs <+: bs) :
    cs <+: commonPrefix as bs := by
  obtain ⟨as, rfl⟩ := ha
  obtain ⟨bs, rfl⟩ := hb
  rw [commonPrefix_append]
  exact List.prefix_append _ _

/-- What starts all texts of a list starts what they have in common. -/
theorem prefix_commonPrefixAll (hne : texts ≠ []) (h : ∀ text ∈ texts, cs <+: text) :
    cs <+: commonPrefixAll texts := by
  obtain ⟨first, rest, rfl⟩ := List.exists_cons_of_ne_nil hne
  rw [List.forall_mem_cons] at h
  rw [commonPrefixAll]
  obtain ⟨hfirst, hrest⟩ := h
  clear hne
  induction rest generalizing first with
  | nil => exact hfirst
  | cons next rest ih =>
    rw [List.forall_mem_cons] at hrest
    exact ih _ (prefix_commonPrefix hfirst hrest.1) hrest.2

/-- Blanks that start all lines with visible characters start the margin. -/
theorem prefix_margin (hpre : isBlankLine pre = true)
    (hne : ∃ line ∈ lines, isBlankLine line = false)
    (h : ∀ line ∈ lines, isBlankLine line = false → pre <+: line) : pre <+: margin lines := by
  apply prefix_commonPrefixAll
  · obtain ⟨line, hmem, hb⟩ := hne
    exact List.ne_nil_of_mem (List.mem_map_of_mem (List.mem_filter.2 ⟨hmem, by simp [hb]⟩))
  · intro text htext
    obtain ⟨line, hmem, rfl⟩ := List.mem_map.1 htext
    obtain ⟨hmem, hb⟩ := List.mem_filter.1 hmem
    obtain ⟨rest, rfl⟩ := h line hmem (by simpa using hb)
    rw [lineIndent_append hpre]
    exact List.prefix_append _ _

/-! ### Lines that lose a margin -/

/-- What becomes of a line when a text loses the margin `m`: nothing of a line of blanks, and of
any other line what the margin stands in front of, so that it is found there. -/
def LosesMargin (m line out : List Char) : Prop :=
  if isBlankLine line then out = [] else line = m ++ out ∧ dropPrefix? m line = some out

private theorem losesMargin_dropMargin (h : line ∈ lines) :
    LosesMargin (margin lines) line (dropMargin (margin lines).length line) := by
  unfold LosesMargin dropMargin
  split
  · rfl
  · next hb =>
    have hdrop := dropPrefix?_margin h (by simpa using hb)
    exact ⟨eq_append_of_dropPrefix? hdrop, hdrop⟩

private theorem LosesMargin.unmargined {m : List Char} (h : LosesMargin m line out) :
    Unmargined m line out := by
  unfold LosesMargin at h
  split at h
  · next hb => exact .inr ⟨hb, by rw [h]; rfl⟩
  · exact .inl h.1

/-- Every line of a text loses the margin of the text. -/
theorem forall₂_losesMargin (cs : List Char) :
    List.Forall₂ (LosesMargin (margin (splitLines cs))) (splitLines cs)
      (splitLines (dedentChars cs)) := by
  rw [splitLines_dedentChars, List.forall₂_map_right_iff, List.forall₂_same]
  exact fun line hline ↦ losesMargin_dropMargin hline

private theorem forall₂_unmargined (cs : List Char) :
    List.Forall₂ (Unmargined (margin (splitLines cs))) (splitLines cs)
      (splitLines (dedentChars cs)) :=
  (forall₂_losesMargin cs).imp fun _ _ h ↦ h.unmargined

/-- A text whose lines have lost a margin is dedented like the text that still has it. -/
theorem dedentChars_unmargined {m cs' : List Char} (hm : isBlankLine m = true)
    (h : List.Forall₂ (Unmargined m) (splitLines cs) (splitLines cs')) :
    dedentChars cs = dedentChars cs' := by
  rw [dedentChars_lines, dedentChars_lines, map_dropMargin_unmargined hm h]

private theorem isBlankLine_margin (cs : List Char) : isBlankLine (margin (splitLines cs)) = true :=
  (margin_blank _ fun _ ↦ newline_notMem_of_mem_splitLines).1

/-- A dedented text has no margin left. -/
theorem dedentChars_dedentChars (cs : List Char) :
    dedentChars (dedentChars cs) = dedentChars cs :=
  (dedentChars_unmargined (isBlankLine_margin cs) (forall₂_unmargined cs)).symm

/-- However far a text is indented, it is dedented to the same text. -/
theorem dedentChars_indentChars_eq (hpre : isBlankLine pre = true) (hn : '\n' ∉ pre)
    (cs : List Char) : dedentChars (indentChars pre cs) = dedentChars cs := by
  refine dedentChars_unmargined hpre ?_
  rw [splitLines_indentChars hn, List.forall₂_map_left_iff, List.forall₂_same]
  intro line _
  split
  · next hb => exact .inr ⟨hb, hb⟩
  · exact .inl rfl

/-- Visible characters are still there in a dedented text. -/
theorem exists_visible_dedentChars (h : ∃ line ∈ splitLines cs, isBlankLine line = false) :
    ∃ out ∈ splitLines (dedentChars cs), isBlankLine out = false := by
  by_contra hnone
  have hblank : (splitLines (dedentChars cs)).filter (!isBlankLine ·) = [] :=
    List.filter_eq_nil_iff.2 fun out hmem hb ↦ hnone ⟨out, hmem, by simpa using hb⟩
  obtain ⟨line, hmem, hb⟩ := h
  have hfilter := visible_unmargined (isBlankLine_margin cs) (forall₂_unmargined cs)
  rw [hblank, List.map_nil, List.filter_eq_nil_iff] at hfilter
  exact hfilter line hmem (by simp [hb])

/-- The lines with visible characters have lost all that they had in common. -/
theorem margin_dedentChars (h : ∃ line ∈ splitLines cs, isBlankLine line = false) :
    margin (splitLines (dedentChars cs)) = [] := by
  obtain ⟨out, hmem, hb⟩ := exists_visible_dedentChars h
  have hmargin := margin_unmargined (isBlankLine_margin cs) (forall₂_unmargined cs)
    (List.ne_nil_of_mem (List.mem_filter.2 ⟨hmem, by simp [hb]⟩))
  exact List.append_cancel_left (hmargin.symm.trans (List.append_nil _).symm)

/-- No blank starts all lines with visible characters that are left. -/
theorem exists_head?_ne (h : ∃ line ∈ splitLines cs, isBlankLine line = false) {c : Char}
    (hc : isBlank c = true) :
    ∃ out ∈ splitLines (dedentChars cs), isBlankLine out = false ∧ out.head? ≠ some c := by
  by_contra hall
  have hstarts : ∀ out ∈ splitLines (dedentChars cs), isBlankLine out = false → [c] <+: out := by
    intro out hmem hb
    by_contra hstart
    refine hall ⟨out, hmem, hb, fun hhead ↦ hstart ?_⟩
    obtain ⟨rest, rfl⟩ := List.head?_eq_some_iff.1 hhead
    exact ⟨rest, rfl⟩
  have hpre := prefix_margin (by simp [isBlankLine, hc]) (exists_visible_dedentChars h) hstarts
  rw [margin_dedentChars h] at hpre
  cases List.prefix_nil.1 hpre

/-- Dedenting takes away exactly the longest common margin. With as many lines as before, each
line of blanks comes out empty and each other line without the margin, which is found in front of
it and ends between two of its characters. The margin consists of blanks, and no blank is left
that starts all lines with visible characters. -/
theorem dedent_maximal (s : String) :
    (splitLines (dedent s).toList).length = (splitLines s.toList).length ∧
    ∃ m, m = margin (withoutEnds (splitLines s.toList)) ∧ isBlankLine m = true ∧
      List.Forall₂ (LosesMargin m) (splitLines s.toList) (splitLines (dedent s).toList) ∧
      (∀ line ∈ splitLines s.toList, isBlankLine line = false →
        (String.ofList m).rawEndPos.IsValid (String.ofList line)) ∧
      ((∃ line ∈ splitLines s.toList, isBlankLine line = false) →
        ∀ c, isBlank c = true →
          ∃ out ∈ splitLines (dedent s).toList, isBlankLine out = false ∧ out.head? ≠ some c) := by
  have hlines := forall₂_losesMargin s.toList
  rw [dedent, String.toList_ofList]
  refine ⟨hlines.length_eq.symm, margin (splitLines s.toList), (margin_withoutEnds _).symm,
    isBlankLine_margin _, hlines, ?_, ?_⟩
  · intro line hmem hb
    obtain ⟨rest, hrest⟩ := (margin_prefix_lineIndent hmem hb).trans (List.takeWhile_prefix _)
    rw [String.Pos.Raw.isValid_iff_exists_append]
    exact ⟨_, String.ofList rest, by rw [← String.ofList_append, hrest], rfl⟩
  · exact fun hvisible c hc ↦ exists_head?_ne hvisible hc

/-! ### Settled texts -/

private theorem indentChars_nil (cs : List Char) : indentChars [] cs = cs := by
  have hsame : ∀ line ∈ splitLines cs, (if isBlankLine line then line else [] ++ line) = line :=
    fun line _ ↦ by rw [List.nil_append, ite_self]
  rw [indentChars, (List.map_congr_left hsame).trans (List.map_id' _), joinLines_splitLines]

/-- A settled text has no margin. -/
theorem IsSettled.dedentChars_eq (h : IsSettled cs) : dedentChars cs = cs := by
  have hback := @dedentChars_indentChars cs [] rfl List.not_mem_nil h
  rwa [indentChars_nil] at hback

/-- A settled text is the settled form of itself. -/
theorem IsSettled.settleChars_eq (h : IsSettled cs) : settleChars cs = cs := by
  rw [settleChars, h.dedentChars_eq, h.trim]

end GuestBridge.Text
