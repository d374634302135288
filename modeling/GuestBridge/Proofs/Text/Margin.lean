import Mathlib.Data.List.Basic
import Mathlib.Data.List.TakeWhile
import GuestBridge.Proofs.Text.Pieces
import GuestBridge.Text.Margin

/-!
# Settled texts

What is left of an embedded text when its margin and its outer blanks are gone: it starts and
ends with visible characters, and a line of blanks is an empty line. Such a text can be
indented and dedented again without any change.
-/

namespace GuestBridge.Text

variable {cs line : List Char} {lines : List (List Char)}

/-! ### Lines -/

/-- A line has no line feed in it. -/
theorem newline_notMem_of_mem_splitLines (h : line ∈ splitLines cs) : '\n' ∉ line := by
  intro hmem
  have hcut := not_cut_of_mem_pieces h '\n' hmem
  simp at hcut

/-- The lines of a text make up the text. -/
theorem joinLines_splitLines (cs : List Char) : joinLines (splitLines cs) = cs :=
  joinWith_pieces '\n' cs

/-- A character that is no line feed belongs to the first line. -/
theorem splitLines_cons {c : Char} (hc : c ≠ '\n') (h : splitLines cs = line :: lines) :
    splitLines (c :: cs) = (c :: line) :: lines := by
  simp only [splitLines] at h ⊢
  simp [pieces, hc, h]

/-- A line feed ends an empty first line. -/
theorem splitLines_newline (cs : List Char) : splitLines ('\n' :: cs) = [] :: splitLines cs := by
  simp [splitLines, pieces]

/-- A text without line feeds is a single line. -/
theorem splitLines_of_notMem (h : '\n' ∉ line) : splitLines line = [line] :=
  pieces_of_not_cut (not_cut_of_notMem h)

/-- The first line ends with the first line feed. -/
theorem splitLines_append (h : '\n' ∉ line) (cs : List Char) :
    splitLines (line ++ '\n' :: cs) = line :: splitLines cs :=
  pieces_append (not_cut_of_notMem h) (decide_eq_true rfl) cs

/-- Lines that are joined are the lines of the text. -/
theorem splitLines_joinLines (hne : lines ≠ []) (h : ∀ line ∈ lines, '\n' ∉ line) :
    splitLines (joinLines lines) = lines := by
  induction lines with
  | nil => exact absurd rfl hne
  | cons line lines ih =>
    rw [List.forall_mem_cons] at h
    cases lines with
    | nil => exact splitLines_of_notMem h.1
    | cons next lines =>
      have hjoin : joinLines (line :: next :: lines) =
          line ++ '\n' :: joinLines (next :: lines) := by
        simp [joinLines, joinWith]
      rw [hjoin, splitLines_append h.1, ih (by simp) h.2]

/-- A line behind others is joined with a line feed in front of it. -/
theorem joinLines_concat (hne : lines ≠ []) (line : List Char) :
    joinLines (lines ++ [line]) = joinLines lines ++ '\n' :: line := by
  induction lines with
  | nil => exact absurd rfl hne
  | cons first lines ih =>
    cases lines with
    | nil => simp [joinLines, joinWith]
    | cons next lines =>
      have hnext := ih (by simp)
      simp only [joinLines, List.cons_append, joinWith] at hnext ⊢
      simp [hnext]

/-- The lines of a reversed text, joined. -/
theorem reverse_joinLines (lines : List (List Char)) :
    (joinLines lines).reverse = joinLines (lines.map List.reverse).reverse := by
  induction lines with
  | nil => rfl
  | cons line lines ih =>
    cases lines with
    | nil => simp [joinLines, joinWith]
    | cons next lines =>
      have hjoin : joinLines (line :: next :: lines) =
          line ++ '\n' :: joinLines (next :: lines) := by
        simp [joinLines, joinWith]
      rw [hjoin, List.map_cons, List.reverse_cons, joinLines_concat (by simp), ← ih]
      simp

/-- The lines of a reversed text. -/
theorem splitLines_reverse (cs : List Char) :
    splitLines cs.reverse = ((splitLines cs).map List.reverse).reverse := by
  have hjoin : cs.reverse = joinLines ((splitLines cs).map List.reverse).reverse := by
    rw [← reverse_joinLines, joinLines_splitLines]
  rw [hjoin]
  apply splitLines_joinLines
  · simp [splitLines, pieces_ne_nil]
  · intro line hline
    obtain ⟨original, hmem, rfl⟩ := List.mem_map.1 (List.mem_reverse.1 hline)
    simpa using newline_notMem_of_mem_splitLines hmem

/-! ### Tidy texts -/

/-- A text in which lines of blanks are empty. -/
def IsTidy (cs : List Char) : Prop :=
  ∀ line ∈ splitLines cs, isBlankLine line = true → line = []

/-- A tidy text stays tidy without a blank in front. -/
theorem IsTidy.of_cons {c : Char} (hc : isBlank c = true) (h : IsTidy (c :: cs)) : IsTidy cs := by
  by_cases hn : c = '\n'
  · subst hn
    rw [IsTidy, splitLines_newline] at h
    exact fun line hline ↦ h line (List.mem_cons_of_mem _ hline)
  · obtain ⟨first, rest, hlines⟩ := List.exists_cons_of_ne_nil (pieces_ne_nil (· = '\n') cs)
    have hlines : splitLines cs = first :: rest := hlines
    rw [IsTidy, splitLines_cons hn hlines, List.forall_mem_cons] at h
    rw [IsTidy, hlines, List.forall_mem_cons]
    refine ⟨fun hblank ↦ ?_, h.2⟩
    have hnil := h.1 (by simpa [isBlankLine, hc] using hblank)
    cases hnil

/-- A tidy text stays tidy without its leading blanks. -/
theorem IsTidy.trimStart (h : IsTidy cs) : IsTidy (trimStart cs) := by
  unfold Text.trimStart
  induction cs with
  | nil => exact h
  | cons c cs ih =>
    rw [List.dropWhile_cons]
    split
    · next hc => exact ih (h.of_cons hc)
    · exact h

/-- A text is as tidy backwards. -/
theorem IsTidy.reverse (h : IsTidy cs) : IsTidy cs.reverse := by
  intro line hline hblank
  rw [splitLines_reverse] at hline
  obtain ⟨original, hmem, rfl⟩ := List.mem_map.1 (List.mem_reverse.1 hline)
  rw [h original hmem (by simpa [isBlankLine] using hblank), List.reverse_nil]

/-- A tidy text stays tidy without its trailing blanks. -/
theorem IsTidy.trimEnd (h : IsTidy cs) : IsTidy (trimEnd cs) :=
  h.reverse.trimStart.reverse

/-! ### Margins -/

/-- What two texts have in common starts the first one. -/
theorem commonPrefix_prefix_left (as bs : List Char) : commonPrefix as bs <+: as := by
  induction as generalizing bs with
  | nil => simp [commonPrefix]
  | cons a as ih =>
    cases bs with
    | nil => simp [commonPrefix]
    | cons b bs =>
      simp only [commonPrefix]
      split
      · exact (List.prefix_cons_inj a).2 (ih bs)
      · exact List.nil_prefix

/-- What two texts have in common starts the second one. -/
theorem commonPrefix_prefix_right (as bs : List Char) : commonPrefix as bs <+: bs := by
  induction as generalizing bs with
  | nil => simp [commonPrefix]
  | cons a as ih =>
    cases bs with
    | nil => simp [commonPrefix]
    | cons b bs =>
      simp only [commonPrefix]
      split
      · next hab => exact hab ▸ (List.prefix_cons_inj a).2 (ih bs)
      · exact List.nil_prefix

/-- A text has all of itself in common with one that it starts. -/
theorem commonPrefix_of_prefix {as bs : List Char} (h : as <+: bs) : commonPrefix as bs = as := by
  obtain ⟨rest, rfl⟩ := h
  induction as with
  | nil => rfl
  | cons a as ih => simp [commonPrefix, ih]

/-- What all texts of a list have in common starts each of them. -/
theorem commonPrefixAll_prefix {texts : List (List Char)} (h : cs ∈ texts) :
    commonPrefixAll texts <+: cs := by
  have hfold : ∀ (rest : List (List Char)) (first : List Char),
      rest.foldl commonPrefix first <+: first ∧
        ∀ cs ∈ rest, rest.foldl commonPrefix first <+: cs := by
    intro rest
    induction rest with
    | nil => exact fun first ↦ ⟨List.prefix_rfl, by simp⟩
    | cons next rest ih =>
      intro first
      obtain ⟨hboth, hrest⟩ := ih (commonPrefix first next)
      rw [List.foldl_cons, List.forall_mem_cons]
      exact ⟨hboth.trans (commonPrefix_prefix_left first next),
        hboth.trans (commonPrefix_prefix_right first next), hrest⟩
  cases texts with
  | nil => cases h
  | cons first rest =>
    rcases List.mem_cons.1 h with rfl | h
    · exact (hfold rest cs).1
    · exact (hfold rest first).2 cs h

/-- What starts all texts of a list and is the first of them is what they have in common. -/
theorem commonPrefixAll_of_prefix {rest : List (List Char)} (h : ∀ text ∈ rest, cs <+: text) :
    commonPrefixAll (cs :: rest) = cs := by
  simp only [commonPrefixAll]
  induction rest with
  | nil => rfl
  | cons next rest ih =>
    rw [List.forall_mem_cons] at h
    rw [List.foldl_cons, commonPrefix_of_prefix h.1]
    exact ih h.2

/-- The margin starts every line with visible characters. -/
theorem margin_prefix_lineIndent (h : line ∈ lines) (hb : isBlankLine line = false) :
    margin lines <+: lineIndent line :=
  commonPrefixAll_prefix (List.mem_map_of_mem (List.mem_filter.2 ⟨h, by simp [hb]⟩))

/-- A line that keeps its visible characters is no line of blanks. -/
theorem isBlankLine_drop {n : Nat} (h : n ≤ (lineIndent line).length) :
    isBlankLine (line.drop n) = isBlankLine line := by
  have htake : isBlankLine (line.take n) = true := by
    have hpre : line.take n <+: lineIndent line := List.prefix_of_prefix_length_le
      (List.take_prefix n line) (List.takeWhile_prefix _)
      (Nat.le_trans (List.length_take_le n line) h)
    refine List.all_eq_true.2 fun c hc ↦ ?_
    exact List.all_eq_true.1 List.all_takeWhile c (hpre.subset hc)
  have hsplit : isBlankLine (line.take n ++ line.drop n) = isBlankLine (line.drop n) := by
    simp only [isBlankLine, List.all_append] at htake ⊢
    simp [htake]
  rw [← hsplit, List.take_append_drop]

/-! ### Lines without their margin -/

/-- A line without a margin of the given length; a line of blanks becomes empty. -/
def dropMargin (width : Nat) (line : List Char) : List Char :=
  if isBlankLine line then [] else line.drop width

/-- The end of a line is a blank. -/
theorem dropReturn_cases (line : List Char) :
    dropReturn line = line ∨ dropReturn line ++ ['\r'] = line := by
  unfold dropReturn
  split
  · next h => exact .inr (List.dropLast_append_getLast? _ h)
  · exact .inl rfl

private theorem isBlankLine_dropReturn (line : List Char) :
    isBlankLine (dropReturn line) = isBlankLine line := by
  rcases dropReturn_cases line with h | h
  · rw [h]
  · have hend : isBlankLine (dropReturn line ++ ['\r']) = isBlankLine (dropReturn line) := by
      rw [isBlankLine, List.all_append, show ['\r'].all isBlank = true by decide, Bool.and_true,
        isBlankLine]
    rw [← hend, h]

private theorem lineIndent_dropReturn (h : isBlankLine line = false) :
    lineIndent (dropReturn line) = lineIndent line := by
  rcases dropReturn_cases line with hline | hline
  · rw [hline]
  · -- A visible character stands in front of the return.
    have hvisible : ¬∀ c ∈ dropReturn line, isBlank c = true := by
      rw [← List.all_eq_true, ← isBlankLine, isBlankLine_dropReturn, h]
      exact Bool.false_ne_true
    have htake : (dropReturn line).takeWhile isBlank ≠ dropReturn line :=
      fun heq ↦ hvisible (List.takeWhile_eq_self_iff.1 heq)
    have hlength : ¬((dropReturn line).takeWhile isBlank).length = (dropReturn line).length :=
      fun hlen ↦ htake ((List.takeWhile_prefix _).eq_of_length hlen)
    have hend : lineIndent (dropReturn line ++ ['\r']) = lineIndent (dropReturn line) := by
      rw [lineIndent, List.takeWhile_append, if_neg hlength, lineIndent]
    rw [← hend, hline]

/-- The ends of lines have no say in the margin. -/
theorem margin_withoutEnds (lines : List (List Char)) :
    margin (withoutEnds lines) = margin lines := by
  have hindents : ((withoutEnds lines).filter (!isBlankLine ·)).map lineIndent =
      (lines.filter (!isBlankLine ·)).map lineIndent := by
    induction lines using withoutEnds.induct with
    | case1 => rfl
    | case2 => rfl
    | case3 line hne => rw [withoutEnds, if_neg hne]
    | case4 line next lines ih =>
      rw [withoutEnds, List.filter_cons, List.filter_cons, isBlankLine_dropReturn]
      cases hb : isBlankLine line with
      | true => exact ih
      | false =>
        simp only [Bool.not_false, if_true, List.map_cons, lineIndent_dropReturn hb, ih]
  rw [margin, margin, hindents]

/-- A line with visible characters starts with the margin, which is found in it. -/
theorem dropPrefix?_margin (h : line ∈ lines) (hb : isBlankLine line = false) :
    dropPrefix? (margin lines) line = some (line.drop (margin lines).length) := by
  obtain ⟨rest, hrest⟩ := (margin_prefix_lineIndent h hb).trans (List.takeWhile_prefix _)
  have hdrop : dropPrefix? (margin lines) (margin lines ++ rest) =
      some ((margin lines ++ rest).drop (margin lines).length) := by
    rw [dropPrefix?_append, List.drop_left]
  rwa [hrest] at hdrop

/-- No line falls back to what it was. -/
theorem stripMargin_margin (h : line ∈ lines) :
    stripMargin (margin lines) line = dropMargin (margin lines).length line := by
  unfold stripMargin dropMargin
  split
  · rfl
  · next hb => rw [dropPrefix?_margin h (by simpa using hb), Option.getD_some]

/-- A dedented text consists of the lines of the text without their margin. -/
theorem dedentChars_lines (cs : List Char) : dedentChars cs =
    joinLines ((splitLines cs).map (dropMargin (margin (splitLines cs)).length)) := by
  rw [dedentChars, margin_withoutEnds]
  exact congrArg joinLines (List.map_congr_left fun line hline ↦ stripMargin_margin hline)

/-- The lines of a dedented text. -/
theorem splitLines_dedentChars (cs : List Char) :
    splitLines (dedentChars cs) =
      (splitLines cs).map (dropMargin (margin (splitLines cs)).length) := by
  rw [dedentChars_lines]
  apply splitLines_joinLines
  · simp [splitLines, pieces_ne_nil]
  · intro line hline
    obtain ⟨original, hmem, rfl⟩ := List.mem_map.1 hline
    unfold dropMargin
    split
    · simp
    · exact fun hn ↦ newline_notMem_of_mem_splitLines hmem (List.mem_of_mem_drop hn)

/-- A dedented text is tidy. -/
theorem isTidy_dedentChars (cs : List Char) : IsTidy (dedentChars cs) := by
  intro line hline hblank
  rw [splitLines_dedentChars] at hline
  obtain ⟨original, hmem, rfl⟩ := List.mem_map.1 hline
  unfold dropMargin at hblank ⊢
  by_cases hb : isBlankLine original = true
  · simp [hb]
  · have hb : isBlankLine original = false := by simpa using hb
    rw [if_neg (by simp [hb]),
      isBlankLine_drop (margin_prefix_lineIndent hmem hb).length_le, hb] at hblank
    cases hblank

/-! ### Settled texts -/

/-- A text without outer blanks in which lines of blanks are empty. -/
structure IsSettled (cs : List Char) : Prop where
  tidy : IsTidy cs
  front : ∀ c ∈ cs.head?, isBlank c = false
  back : ∀ c ∈ cs.getLast?, isBlank c = false

/-- A text without leading blanks starts with a visible character. -/
theorem head?_trimStart {c : Char} (h : c ∈ (trimStart cs).head?) : isBlank c = false := by
  have hhead := List.head?_dropWhile_not isBlank cs
  rw [show (cs.dropWhile isBlank).head? = some c from h] at hhead
  exact hhead

/-- A text without trailing blanks ends with a visible character. -/
theorem getLast?_trimEnd {c : Char} (h : c ∈ (trimEnd cs).getLast?) : isBlank c = false := by
  rw [trimEnd, List.getLast?_reverse] at h
  exact head?_trimStart h

/-- Taking trailing blanks away leaves the first character, if any is left. -/
theorem trimEnd_prefix (cs : List Char) : trimEnd cs <+: cs := by
  have hsuffix := List.dropWhile_suffix isBlank (l := cs.reverse)
  simpa [trimEnd] using List.reverse_prefix.2 hsuffix

/-- The settled form of a text is settled. -/
theorem isSettled_settleChars (cs : List Char) : IsSettled (settleChars cs) where
  tidy := (isTidy_dedentChars cs).trimStart.trimEnd
  front c hc := by
    have hpre : (settleChars cs) <+: trimStart (dedentChars cs) := trimEnd_prefix _
    obtain ⟨rest, hrest⟩ := hpre
    have hhead : c ∈ (trimStart (dedentChars cs)).head? := by
      rw [← hrest, List.head?_append, hc]
      rfl
    exact head?_trimStart hhead
  back c hc := getLast?_trimEnd hc

/-- There is nothing to trim between visible characters. -/
theorem trim_of_ends (front : ∀ c ∈ cs.head?, isBlank c = false)
    (back : ∀ c ∈ cs.getLast?, isBlank c = false) : trim cs = cs := by
  have hstart : trimStart cs = cs := by
    cases cs with
    | nil => rfl
    | cons c cs => simp [trimStart, front c rfl]
  have hend : trimEnd cs = cs := by
    rcases List.eq_nil_or_concat cs with rfl | ⟨init, c, rfl⟩
    · rfl
    · simp [trimEnd, back c (by simp)]
  rw [trim, hstart, hend]

/-- There is nothing to trim around a settled text. -/
theorem IsSettled.trim (h : IsSettled cs) : trim cs = cs :=
  trim_of_ends h.front h.back

/-- A line that is indented has the prefix in front of its blanks. -/
theorem lineIndent_append {pre : List Char} (hpre : isBlankLine pre = true) (line : List Char) :
    lineIndent (pre ++ line) = pre ++ lineIndent line :=
  List.takeWhile_append_of_pos (List.all_eq_true.1 hpre)

/-- The lines of an indented text. -/
theorem splitLines_indentChars {pre : List Char} (hn : '\n' ∉ pre) (cs : List Char) :
    splitLines (indentChars pre cs) =
      (splitLines cs).map fun line ↦ if isBlankLine line then line else pre ++ line := by
  apply splitLines_joinLines
  · simp [splitLines, pieces_ne_nil]
  · intro line hline
    obtain ⟨original, hmem, rfl⟩ := List.mem_map.1 hline
    have hnot := newline_notMem_of_mem_splitLines hmem
    split
    · exact hnot
    · simp [hn, hnot]

/-- A prefix of blanks is the margin of an indented settled text that is not empty. -/
theorem margin_indentChars {pre : List Char} (hpre : isBlankLine pre = true) (hn : '\n' ∉ pre)
    (h : IsSettled cs) (hne : cs ≠ []) : margin (splitLines (indentChars pre cs)) = pre := by
  obtain ⟨c, rest, rfl⟩ := List.exists_cons_of_ne_nil hne
  have hc : isBlank c = false := h.front c rfl
  have hcn : c ≠ '\n' := by
    rintro rfl
    exact absurd hc (by decide)
  obtain ⟨first, lines, hlines⟩ := List.exists_cons_of_ne_nil (pieces_ne_nil (· = '\n') rest)
  have hfirst : isBlankLine (c :: first) = false := by simp [isBlankLine, hc]
  have hblank : isBlankLine (pre ++ (c :: first)) = false := by
    simp only [isBlankLine, List.all_append] at hfirst ⊢
    simp [hfirst]
  have hindent : lineIndent (pre ++ (c :: first)) = pre := by
    rw [lineIndent_append hpre]
    simp [lineIndent, hc]
  rw [splitLines_indentChars hn, splitLines_cons hcn hlines, margin, List.map_cons,
    if_neg (by simp [hfirst]), List.filter_cons_of_pos (by simp [hblank]), List.map_cons, hindent]
  apply commonPrefixAll_of_prefix
  intro text htext
  obtain ⟨indented, hmem, rfl⟩ := List.mem_map.1 htext
  obtain ⟨hmem, hvisible⟩ := List.mem_filter.1 hmem
  obtain ⟨line, -, rfl⟩ := List.mem_map.1 hmem
  by_cases hb : isBlankLine line = true
  · simp [hb] at hvisible
  · rw [if_neg hb, lineIndent_append hpre]
    exact List.prefix_append _ _

/-- A settled text that is indented with blanks comes back when it is dedented. -/
theorem dedentChars_indentChars {pre : List Char} (hpre : isBlankLine pre = true)
    (hn : '\n' ∉ pre) (h : IsSettled cs) : dedentChars (indentChars pre cs) = cs := by
  by_cases hne : cs = []
  · subst hne
    rfl
  · have hback : ∀ line ∈ splitLines cs, dropMargin pre.length
        (if isBlankLine line then line else pre ++ line) = line := by
      intro line hline
      by_cases hb : isBlankLine line = true
      · rw [if_pos hb, h.tidy line hline hb]
        rfl
      · have hb' : isBlankLine (pre ++ line) = false := by
          simp only [isBlankLine, List.all_append] at hb hpre ⊢
          simpa [hpre] using hb
        rw [if_neg hb, dropMargin, if_neg (by simp [hb']), List.drop_left]
    have hlines : ((splitLines cs).map fun line ↦ if isBlankLine line then line
        else pre ++ line).map (dropMargin pre.length) = splitLines cs := by
      rw [List.map_map]
      exact (List.map_congr_left hback).trans (List.map_id' _)
    rw [dedentChars_lines, margin_indentChars hpre hn h hne, splitLines_indentChars hn, hlines,
      joinLines_splitLines]

end GuestBridge.Text
