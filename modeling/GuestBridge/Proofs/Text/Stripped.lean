import Mathlib.Data.List.Forall2
import GuestBridge.Proofs.Text.Cutting

/-!
# Dedenting texts that have lost a margin

A text that loses a margin from all lines but the first one is dedented like the text itself,
unless its first line and another one both show something: then the first line, which keeps its
blanks, and the others, which do not, count differently for the common margin.
-/

namespace GuestBridge.Text

variable {m v v' line line' : List Char} {lines lines' : List (List Char)}

/-- A line and what is left of it without a margin. Of a line of blanks any blanks may be left. -/
def Unmargined (m line line' : List Char) : Prop :=
  line = m ++ line' ∨ isBlankLine line = true ∧ isBlankLine line' = true

/-- A text and what is left of it when all lines but the first one lose a margin. -/
def Stripped (m v v' : List Char) : Prop :=
  ∃ first rest rest', splitLines v = first :: rest ∧ splitLines v' = first :: rest' ∧
    List.Forall₂ (Unmargined m) rest rest'

namespace Stripped

/-- Nothing is left of nothing. -/
theorem nil (m : List Char) : Stripped m [] [] :=
  ⟨[], [], [], rfl, rfl, .nil⟩

/-- A character other than a newline may stand in front of both texts. -/
theorem cons {c : Char} (hc : c ≠ '\n') (h : Stripped m v v') : Stripped m (c :: v) (c :: v') := by
  obtain ⟨first, rest, rest', hv, hv', hrest⟩ := h
  exact ⟨c :: first, rest, rest', splitLines_cons hc hv, splitLines_cons hc hv', hrest⟩

/-- A line behind the first one that loses its start. -/
theorem newline {b : List Char} (hb : isBlankLine b = true) (hn : '\n' ∉ b)
    (hkind : b = m ∨ headLine v = []) (h : Stripped m v v') :
    Stripped m ('\n' :: (b ++ v)) ('\n' :: v') := by
  obtain ⟨first, rest, rest', hv, hv', hrest⟩ := h
  have hfirst : headLine v = first := by
    obtain ⟨lines, hlines⟩ := exists_splitLines v
    rw [hlines] at hv
    exact (List.cons.inj hv).1
  refine ⟨[], (b ++ first) :: rest, first :: rest', ?_, ?_, .cons ?_ hrest⟩
  · rw [splitLines_newline, splitLines_append_left hn hv]
  · rw [splitLines_newline, hv']
  · rcases hkind with rfl | hempty
    · exact .inl rfl
    · obtain rfl : first = [] := hfirst.symm.trans hempty
      exact .inr ⟨by rwa [List.append_nil], rfl⟩

/-- What both texts start with can be left out. -/
theorem of_append {b : List Char} (hn : '\n' ∉ b) (h : Stripped m (b ++ v) (b ++ v')) :
    Stripped m v v' := by
  obtain ⟨first, rest, rest', hv, hv', hrest⟩ := h
  obtain ⟨lines, hlines⟩ := exists_splitLines v
  obtain ⟨lines', hlines'⟩ := exists_splitLines v'
  rw [splitLines_append_left hn hlines, List.cons.injEq] at hv
  rw [splitLines_append_left hn hlines', List.cons.injEq] at hv'
  obtain ⟨hfirst, rfl⟩ := hv
  obtain ⟨hfirst', rfl⟩ := hv'
  rw [← hfirst, List.append_cancel_left_eq] at hfirst'
  exact ⟨headLine v, lines, lines', hlines, hfirst' ▸ hlines', hrest⟩

end Stripped

/-! ### Margins of stripped lines -/

/-- A text in front of two others is a part of what they have in common. -/
theorem commonPrefix_append (m as bs : List Char) :
    commonPrefix (m ++ as) (m ++ bs) = m ++ commonPrefix as bs := by
  induction m with
  | nil => rfl
  | cons c m ih => simp [commonPrefix, ih]

private theorem commonPrefixAll_map_append (m : List Char) {texts : List (List Char)}
    (h : texts ≠ []) :
    commonPrefixAll (texts.map (m ++ ·)) = m ++ commonPrefixAll texts := by
  obtain ⟨first, rest, rfl⟩ := List.exists_cons_of_ne_nil h
  simp only [List.map_cons, commonPrefixAll]
  induction rest generalizing first with
  | nil => rfl
  | cons next rest ih =>
    rw [List.map_cons, List.foldl_cons, List.foldl_cons, commonPrefix_append]
    exact ih _ (List.cons_ne_nil _ _)

section

variable (hm : isBlankLine m = true)
include hm

private theorem Unmargined.isBlankLine_eq (h : Unmargined m line line') :
    isBlankLine line = isBlankLine line' := by
  rcases h with rfl | ⟨hblank, hblank'⟩
  · rw [isBlankLine_append, hm, Bool.true_and]
  · rw [hblank, hblank']

/-- The lines that show something have lost the margin. -/
theorem visible_unmargined (h : List.Forall₂ (Unmargined m) lines lines') :
    lines.filter (!isBlankLine ·) = (lines'.filter (!isBlankLine ·)).map (m ++ ·) := by
  induction h with
  | nil => rfl
  | @cons line line' lines lines' hline _ ih =>
    have hblank := hline.isBlankLine_eq hm
    rw [List.filter_cons, List.filter_cons, hblank]
    cases hline' : isBlankLine line' with
    | true => simpa using ih
    | false =>
      rcases hline with rfl | ⟨-, hboth⟩
      · simpa using ih
      · rw [hline'] at hboth
        cases hboth

/-- The common margin of lines starts with what they have lost. -/
theorem margin_unmargined (h : List.Forall₂ (Unmargined m) lines lines')
    (hvisible : lines'.filter (!isBlankLine ·) ≠ []) : margin lines = m ++ margin lines' := by
  have hindent : lineIndent ∘ (m ++ ·) = (m ++ ·) ∘ lineIndent :=
    funext fun line ↦ lineIndent_append hm line
  rw [margin, margin, visible_unmargined hm h, List.map_map, hindent, ← List.map_map]
  exact commonPrefixAll_map_append m (by simpa using hvisible)

/-- Without the common margin, a line is the same whether it has lost a margin or not. -/
theorem dropMargin_unmargined (hlines : List.Forall₂ (Unmargined m) lines lines')
    (h : Unmargined m line line') (hmem : line' ∈ lines') :
    dropMargin (margin lines).length line = dropMargin (margin lines').length line' := by
  have hblank := h.isBlankLine_eq hm
  cases hline' : isBlankLine line' with
  | true =>
    rw [hline'] at hblank
    rw [dropMargin, dropMargin, if_pos hblank, if_pos hline']
  | false =>
    rcases h with rfl | ⟨-, hboth⟩
    · have hvisible : lines'.filter (!isBlankLine ·) ≠ [] :=
        List.ne_nil_of_mem (List.mem_filter.2 ⟨hmem, by simp [hline']⟩)
      rw [dropMargin, dropMargin, hblank, hline', margin_unmargined hm hlines hvisible,
        List.length_append]
      simp [← List.drop_drop]
    · rw [hline'] at hboth
      cases hboth

/-- Without the common margin, lines are the same whether they have lost a margin or not. -/
theorem map_dropMargin_unmargined (h : List.Forall₂ (Unmargined m) lines lines') :
    lines.map (dropMargin (margin lines).length) =
      lines'.map (dropMargin (margin lines').length) := by
  have hline : ∀ line line', line' ∈ lines' → Unmargined m line line' →
      dropMargin (margin lines).length line = dropMargin (margin lines').length line' :=
    fun line line' hmem hline ↦ dropMargin_unmargined hm h hline hmem
  -- The margins are those of all lines: they stay what they are in the induction.
  generalize (margin lines).length = n at hline ⊢
  generalize (margin lines').length = n' at hline ⊢
  induction h with
  | nil => rfl
  | cons hhead _ ih =>
    rw [List.map_cons, List.map_cons, hline _ _ List.mem_cons_self hhead,
      ih fun line line' hmem ↦ hline line line' (List.mem_cons_of_mem _ hmem)]

/-- Lines of blanks may as well have lost nothing. -/
theorem unmargined_of_blank (h : List.Forall₂ (Unmargined m) lines lines')
    (hblank : ∀ line ∈ lines, isBlankLine line = true) :
    List.Forall₂ (Unmargined []) lines lines' := by
  induction h with
  | nil => exact .nil
  | cons hline _ ih =>
    rw [List.forall_mem_cons] at hblank
    refine .cons (.inr ⟨hblank.1, ?_⟩) (ih hblank.2)
    rw [← hline.isBlankLine_eq hm, hblank.1]

end

/-- A text that shows something on its first line or on others, but not on both. -/
def StandsApart (v : List Char) : Prop :=
  isBlankLine (headLine v) = true ∨ ∀ line ∈ (splitLines v).tail, isBlankLine line = true

/-- Dedenting makes up for the loss of a margin. -/
theorem Stripped.dedentChars_eq (h : Stripped m v v') (hm : isBlankLine m = true)
    (hfirst : m = [] ∨ StandsApart v) : dedentChars v = dedentChars v' := by
  obtain ⟨first, rest, rest', hv, hv', hrest⟩ := h
  have hhead : headLine v = first := by
    obtain ⟨lines, hlines⟩ := exists_splitLines v
    rw [hlines] at hv
    exact (List.cons.inj hv).1
  obtain ⟨m', hm', hall⟩ : ∃ m', isBlankLine m' = true ∧
      List.Forall₂ (Unmargined m') (first :: rest) (first :: rest') := by
    rcases hfirst with rfl | hblank | hblank
    · exact ⟨[], rfl, .cons (.inl rfl) hrest⟩
    · rw [hhead] at hblank
      exact ⟨m, hm, .cons (.inr ⟨hblank, hblank⟩) hrest⟩
    · rw [hv, List.tail_cons] at hblank
      exact ⟨[], rfl, .cons (.inl rfl) (unmargined_of_blank hm hrest hblank)⟩
  rw [dedentChars_lines, dedentChars_lines, hv, hv', map_dropMargin_unmargined hm' hall]

end GuestBridge.Text
