import GuestBridge.Proofs.Text.Margin

/-!
# Texts inside dedented texts

When a text is dedented, a piece of it that starts in the middle of a line keeps its first line
and loses the margin from all others. `cutMargin` is what becomes of such a piece. Read along
both texts, only blanks at line starts are missing from the dedented one: a piece and what
becomes of it are therefore related character by character, which `Cut` says.
-/

namespace GuestBridge.Text

variable {m cs cs' line : List Char} {lines : List (List Char)} {c : Char}

/-- Take a margin away from every line of a text but the first one. -/
def cutMargin (m cs : List Char) : List Char :=
  match splitLines cs with
  | [] => []
  | first :: rest => joinLines (first :: rest.map (dropMargin m.length))

/-- Take a margin away from every line of a text but the first one. -/
def cutText (m : List Char) (s : String) : String :=
  String.ofList (cutMargin m s.toList)

/-- The first line of a text. -/
def headLine (cs : List Char) : List Char :=
  cs.takeWhile (· ≠ '\n')

/-! ### Lines -/

/-- A text has a first line and the lines behind it. -/
theorem exists_splitLines (cs : List Char) : ∃ lines, splitLines cs = headLine cs :: lines := by
  induction cs with
  | nil => exact ⟨[], rfl⟩
  | cons c cs ih =>
    obtain ⟨lines, h⟩ := ih
    by_cases hc : c = '\n'
    · subst hc
      exact ⟨_, splitLines_newline cs⟩
    · exact ⟨lines, by simpa [headLine, hc] using splitLines_cons hc h⟩

private theorem newline_notMem_headLine (cs : List Char) : '\n' ∉ headLine cs := by
  obtain ⟨lines, h⟩ := exists_splitLines cs
  exact newline_notMem_of_mem_splitLines (h ▸ List.mem_cons_self)

/-- What stands in front of the first line can be put in front of the text. -/
theorem joinLines_append (as line : List Char) (lines : List (List Char)) :
    joinLines ((as ++ line) :: lines) = as ++ joinLines (line :: lines) := by
  cases lines <;> simp [joinLines, joinWith]

private theorem joinLines_nil_cons (line : List Char) (lines : List (List Char)) :
    joinLines ([] :: line :: lines) = '\n' :: joinLines (line :: lines) := by
  simp [joinLines, joinWith]

/-- Every line behind the first one follows a line feed. -/
theorem headLine_mem_tail {s : List Char} (h : '\n' :: s <:+ cs) :
    headLine s ∈ (splitLines cs).tail := by
  induction cs with
  | nil => simp at h
  | cons c cs ih =>
    obtain ⟨lines, hlines⟩ := exists_splitLines cs
    by_cases hc : c = '\n'
    · subst hc
      rw [splitLines_newline, List.tail_cons]
      rcases List.suffix_cons_iff.1 h with heq | hs
      · cases heq
        simp [hlines]
      · exact List.mem_of_mem_tail (ih hs)
    · rw [splitLines_cons hc hlines]
      rcases List.suffix_cons_iff.1 h with heq | hs
      · cases heq
        exact absurd rfl hc
      · simpa [hlines] using ih hs

/-- What stands in front of the first line belongs to it. -/
theorem splitLines_append_left {as : List Char} (has : '\n' ∉ as)
    (h : splitLines cs = line :: lines) : splitLines (as ++ cs) = (as ++ line) :: lines := by
  induction as with
  | nil => exact h
  | cons a as ih =>
    rw [List.mem_cons, not_or] at has
    exact splitLines_cons (Ne.symm has.1) (ih has.2)

private theorem headLine_append_left {as : List Char} (has : '\n' ∉ as) (cs : List Char) :
    headLine (as ++ cs) = as ++ headLine cs := by
  refine List.takeWhile_append_of_pos fun a ha ↦ ?_
  simpa using ne_of_mem_of_not_mem ha has

/-- A longer text has a longer first line. -/
theorem headLine_prefix_append (as bs : List Char) : headLine as <+: headLine (as ++ bs) := by
  induction as with
  | nil => exact List.nil_prefix
  | cons a as ih =>
    simp only [headLine, List.cons_append, List.takeWhile_cons] at ih ⊢
    split
    · exact (List.prefix_cons_inj a).2 ih
    · exact List.nil_prefix

/-- A line is blank exactly if both its pieces are. -/
theorem isBlankLine_append (as bs : List Char) :
    isBlankLine (as ++ bs) = (isBlankLine as && isBlankLine bs) :=
  List.all_append

/-! ### Cutting -/

/-- Cutting a margin leaves nothing of nothing. -/
@[simp] theorem cutMargin_nil : cutMargin m [] = [] := rfl

/-- Cutting a margin keeps a character other than a newline. -/
@[simp] theorem cutMargin_cons (hc : c ≠ '\n') (cs : List Char) :
    cutMargin m (c :: cs) = c :: cutMargin m cs := by
  obtain ⟨lines, h⟩ := exists_splitLines cs
  simp only [cutMargin, h, splitLines_cons hc h]
  exact joinLines_append [c] _ _

/-- A line feed stays. -/
theorem exists_cutMargin_newline (m cs : List Char) :
    ∃ rest, cutMargin m ('\n' :: cs) = '\n' :: rest := by
  obtain ⟨lines, h⟩ := exists_splitLines cs
  simp only [cutMargin, splitLines_newline, h, List.map_cons, joinLines_nil_cons]
  exact ⟨_, rfl⟩

/-- The rest of a text behind a piece of a line. -/
theorem cutMargin_append_line {as : List Char} (has : '\n' ∉ as) (cs : List Char) :
    cutMargin m (as ++ cs) = as ++ cutMargin m cs := by
  induction as with
  | nil => rfl
  | cons a as ih =>
    rw [List.mem_cons, not_or] at has
    rw [List.cons_append, cutMargin_cons (Ne.symm has.1), ih has.2, List.cons_append]

/-- A piece of a line keeps all of its characters. -/
theorem cutMargin_line (h : '\n' ∉ line) : cutMargin m line = line := by
  simpa using cutMargin_append_line (m := m) h []

/-- A text starts with the character that it started with. -/
@[simp] theorem head?_cutMargin (m cs : List Char) : (cutMargin m cs).head? = cs.head? := by
  cases cs with
  | nil => rfl
  | cons c cs =>
    by_cases hc : c = '\n'
    · obtain ⟨rest, h⟩ := exists_cutMargin_newline m cs
      rw [hc, h, List.head?_cons, List.head?_cons]
    · rw [cutMargin_cons hc, List.head?_cons, List.head?_cons]

/-- A character that starts what is left of a text, other than a line feed, starts the text. -/
theorem cutMargin_eq_cons (hc : c ≠ '\n') (h : cutMargin m cs = c :: cs') :
    ∃ rest, cs = c :: rest ∧ cutMargin m rest = cs' := by
  have hhead := head?_cutMargin m cs
  rw [h, List.head?_cons] at hhead
  obtain ⟨rest, rfl⟩ := List.head?_eq_some_iff.1 hhead.symm
  rw [cutMargin_cons hc, List.cons.injEq] at h
  exact ⟨rest, rfl, h.2⟩

/-- A character and what becomes of the text behind it. -/
theorem exists_cutMargin_cons (m : List Char) (c : Char) (cs : List Char) :
    ∃ rest, cutMargin m (c :: cs) = c :: rest := by
  by_cases hc : c = '\n'
  · exact hc ▸ exists_cutMargin_newline m cs
  · exact ⟨_, cutMargin_cons hc cs⟩

/-- The blanks that a line loses at its start: the margin, or everything if nothing visible
stands behind it. -/
structure LineStart (m b cs : List Char) : Prop where
  blank : isBlankLine b = true
  noBreak : '\n' ∉ b
  kind : b = m ∧ isBlankLine (headLine cs) = false ∨ headLine cs = []

/-- A line loses its start. -/
theorem LineStart.cutMargin_newline {b : List Char} (h : LineStart m b cs) :
    cutMargin m ('\n' :: (b ++ cs)) = '\n' :: cutMargin m cs := by
  obtain ⟨lines, hlines⟩ := exists_splitLines cs
  have hdrop : dropMargin m.length (b ++ headLine cs) = headLine cs := by
    rcases h.kind with ⟨rfl, hvisible⟩ | hempty
    · rw [dropMargin, isBlankLine_append, hvisible, Bool.and_false, if_neg (by simp),
        List.drop_left]
    · rw [hempty, List.append_nil, dropMargin, if_pos h.blank]
  simp only [cutMargin, splitLines_newline, splitLines_append_left h.noBreak hlines, hlines,
    List.map_cons, hdrop, joinLines_nil_cons]

/-- A piece of a text and what becomes of it, character by character. -/
inductive Cut (m : List Char) : List Char → List Char → Prop
  | nil : Cut m [] []
  | cons {c : Char} {cs cs' : List Char} (hc : c ≠ '\n') (h : Cut m cs cs') :
    Cut m (c :: cs) (c :: cs')
  | newline {b cs cs' : List Char} (hb : LineStart m b cs) (h : Cut m cs cs') :
    Cut m ('\n' :: (b ++ cs)) ('\n' :: cs')

/-- What becomes of a text is what is left when its margin is cut. -/
theorem Cut.eq_cutMargin (h : Cut m cs cs') : cs' = cutMargin m cs := by
  induction h with
  | nil => rfl
  | cons hc _ ih => rw [cutMargin_cons hc, ih]
  | newline hb _ ih => rw [hb.cutMargin_newline, ih]

/-- A text in which every line with visible characters behind the first line starts with the
margin. -/
structure Indented (m cs : List Char) : Prop where
  blank : isBlankLine m = true
  noBreak : '\n' ∉ m
  starts : ∀ s, '\n' :: s <:+ cs → isBlankLine (headLine s) = false → m <+: s

namespace Indented

/-- The end of an indented text is indented. -/
theorem of_suffix (h : Indented m cs) (hs : cs' <:+ cs) : Indented m cs' :=
  ⟨h.blank, h.noBreak, fun s hs' ↦ h.starts s (hs'.trans hs)⟩

/-- An indented text is indented behind its first character too. -/
theorem of_cons (h : Indented m (c :: cs)) : Indented m cs :=
  h.of_suffix (List.suffix_cons c cs)

/-- A line feed and the start of the line behind it. -/
theorem exists_lineStart (h : Indented m ('\n' :: cs)) :
    ∃ b rest, cs = b ++ rest ∧ LineStart m b rest := by
  by_cases hb : isBlankLine (headLine cs) = true
  · refine ⟨headLine cs, cs.dropWhile (· ≠ '\n'), List.takeWhile_append_dropWhile.symm, hb,
      newline_notMem_headLine cs, .inr ?_⟩
    have hhead := List.head?_dropWhile_not (fun c : Char ↦ decide (c ≠ '\n')) cs
    cases hrest : cs.dropWhile (· ≠ '\n') with
    | nil => rfl
    | cons d rest =>
      rw [hrest] at hhead
      simp_all [headLine]
  · rw [Bool.not_eq_true] at hb
    obtain ⟨rest, rfl⟩ := h.starts cs List.suffix_rfl hb
    refine ⟨m, rest, rfl, h.blank, h.noBreak, .inl ⟨rfl, ?_⟩⟩
    rwa [headLine_append_left h.noBreak, isBlankLine_append, h.blank, Bool.true_and] at hb

/-- Blanks at the start of a line are passed over, whether they are cut or not. -/
theorem exists_passed (h : Indented m ('\n' :: cs)) :
    ∃ b rest, cs = b ++ rest ∧ isBlankLine b = true ∧
      cutMargin m ('\n' :: cs) = '\n' :: cutMargin m rest ∧
      cutMargin m cs = b ++ cutMargin m rest := by
  obtain ⟨b, rest, rfl, hb⟩ := h.exists_lineStart
  exact ⟨b, rest, rfl, hb.blank, hb.cutMargin_newline, cutMargin_append_line hb.noBreak rest⟩

/-- An indented text and what becomes of it. -/
theorem cut (h : Indented m cs) : Cut m cs (cutMargin m cs) := by
  induction hn : cs.length using Nat.strongRecOn generalizing cs with
  | ind n ih =>
    cases cs with
    | nil => exact .nil
    | cons c cs =>
      by_cases hc : c = '\n'
      · subst hc
        obtain ⟨b, rest, rfl, hb⟩ := h.exists_lineStart
        rw [hb.cutMargin_newline]
        have hsuffix : rest <:+ '\n' :: (b ++ rest) :=
          (List.suffix_append b rest).trans (List.suffix_cons _ _)
        refine .newline hb (ih rest.length ?_ (h.of_suffix hsuffix) rfl)
        rw [← hn, List.length_cons, List.length_append]
        omega
      · rw [cutMargin_cons hc]
        exact .cons hc (ih cs.length (by rw [← hn]; simp) h.of_cons rfl)

/-- The beginning of an indented text is indented. -/
theorem of_append {as bs : List Char} (h : Indented m (as ++ bs)) : Indented m as where
  blank := h.blank
  noBreak := h.noBreak
  starts s hs hb := by
    have hlong : isBlankLine (headLine (s ++ bs)) = false := by
      obtain ⟨more, hmore⟩ := headLine_prefix_append s bs
      rw [← hmore, isBlankLine_append, hb, Bool.false_and]
    have hsuffix : '\n' :: (s ++ bs) <:+ as ++ bs := by
      obtain ⟨front, rfl⟩ := hs
      exact ⟨front, by simp⟩
    refine List.prefix_of_prefix_length_le (h.starts _ hsuffix hlong) (List.prefix_append s bs) ?_
    rcases Nat.le_total m.length s.length with hlen | hlen
    · exact hlen
    · have hpre : s <+: m := List.prefix_of_prefix_length_le (List.prefix_append s bs)
        (h.starts _ hsuffix hlong) hlen
      have hblank : isBlankLine (headLine s) = true := by
        refine List.all_eq_true.2 fun c hc ↦ List.all_eq_true.1 h.blank c ?_
        exact hpre.subset ((List.takeWhile_prefix _).subset hc)
      rw [hb] at hblank
      cases hblank

end Indented

/-! ### Pieces -/

/-- Two pieces one after the other, the first of which ends with a visible character. -/
theorem Cut.append {rest rest' : List Char} (h : Cut m cs cs') (hrest : Cut m rest rest')
    (hlast : ∀ c ∈ cs.getLast?, isBlank c = false) : Cut m (cs ++ rest) (cs' ++ rest') := by
  induction h with
  | nil => exact hrest
  | cons hc _ ih =>
    exact .cons hc (ih fun d hd ↦ hlast d (by simp [List.getLast?_cons, Option.mem_def.1 hd]))
  | @newline b cs cs' hb hcut ih =>
    -- The last line of the first piece is not cut short: it has a visible character.
    have hne : cs ≠ [] := by
      rintro rfl
      obtain ⟨d, hd⟩ : ∃ d, ('\n' :: (b ++ [])).getLast? = some d :=
        ⟨_, List.getLast?_eq_some_getLast (List.cons_ne_nil _ _)⟩
      have hmem := List.mem_of_getLast? hd
      have hvisible := hlast d hd
      rw [List.append_nil, List.mem_cons] at hmem
      rcases hmem with rfl | hmem
      · exact absurd hvisible (by decide)
      · rw [List.all_eq_true.1 hb.blank d hmem] at hvisible
        cases hvisible
    obtain ⟨d, ds, rfl⟩ := List.exists_cons_of_ne_nil hne
    have hstart : LineStart m b (d :: ds ++ rest) := by
      refine ⟨hb.blank, hb.noBreak, hb.kind.imp (fun h ↦ ⟨h.1, ?_⟩) fun h ↦ ?_⟩
      · obtain ⟨more, hmore⟩ := headLine_prefix_append (d :: ds) rest
        rw [← hmore, isBlankLine_append, h.2, Bool.false_and]
      · by_cases hd : d = '\n' <;> simp_all [headLine]
    have hmore := Cut.newline hstart
      (ih fun e he ↦ hlast e (by
        simp [List.getLast?_append, List.getLast?_cons] at he ⊢
        simp [he]))
    rwa [← List.append_assoc] at hmore

/-- A piece that ends with a visible character, but for a piece of a line behind it. -/
structure IsPiece (cs : List Char) : Prop where
  split : ∃ front back, cs = front ++ back ∧ (∀ c ∈ front.getLast?, isBlank c = false) ∧
    '\n' ∉ back

/-- What becomes of a text is what becomes of a piece of it and of the rest. -/
theorem Indented.cutMargin_append {rest : List Char} (h : Indented m (cs ++ rest))
    (hcs : IsPiece cs) : cutMargin m (cs ++ rest) = cutMargin m cs ++ cutMargin m rest := by
  obtain ⟨front, back, rfl, hfront, hback⟩ := hcs.split
  have hlines := h
  rw [List.append_assoc] at hlines
  have hpiece {tail : List Char} (htail : Indented m (front ++ tail)) :
      cutMargin m (front ++ tail) = cutMargin m front ++ cutMargin m tail :=
    ((htail.of_append.cut).append (htail.of_suffix (List.suffix_append _ _)).cut
      hfront).eq_cutMargin.symm
  rw [List.append_assoc, hpiece hlines, cutMargin_append_line hback, hpiece h.of_append,
    cutMargin_line hback, List.append_assoc]

private theorem Cut.length_le (h : Cut m cs cs') : cs'.length ≤ cs.length := by
  induction h with
  | nil => exact Nat.le_refl _
  | cons _ _ ih => simpa using ih
  | newline _ _ ih => simp only [List.length_cons, List.length_append]; omega

/-- A line that starts with a visible character shows that there is no margin. -/
theorem Indented.nil_of_mark {mark : List Char} (h : Indented m ('\n' :: mark))
    (hvisible : ∃ c ∈ mark.head?, isBlank c = false) :
    [] = m ∧ isBlankLine (headLine mark) = false := by
  obtain ⟨c, hc, hb⟩ := hvisible
  obtain ⟨mark, rfl⟩ := List.head?_eq_some_iff.1 hc
  have hn : c ≠ '\n' := by
    rintro rfl
    exact absurd hb (by decide)
  have hline : isBlankLine (headLine (c :: mark)) = false := by
    simp [headLine, isBlankLine, hn, hb]
  refine ⟨?_, hline⟩
  obtain ⟨more, hmore⟩ := h.starts _ List.suffix_rfl hline
  rcases m with _ | ⟨d, m⟩
  · rfl
  · cases hmore
    have hblank := h.blank
    rw [isBlankLine, List.all_cons, hb, Bool.false_and] at hblank
    cases hblank

/-- A text that has no margin to lose has none either in front of a mark that ends its last
line. -/
theorem Indented.cutMargin_append_fixed {mark : List Char} (h : Indented m (cs ++ mark))
    (hmark : '\n' ∉ mark) (hvisible : ∃ c ∈ mark.head?, isBlank c = false)
    (hfixed : cutMargin m cs = cs) : cutMargin m (cs ++ mark) = cs ++ mark := by
  induction cs with
  | nil => exact cutMargin_line hmark
  | cons c cs ih =>
    by_cases hc : c = '\n'
    · subst hc
      obtain ⟨b, rest, rfl, hb⟩ := h.of_append.exists_lineStart
      have hrest : cutMargin m rest = b ++ rest := by
        rw [hb.cutMargin_newline, List.cons.injEq] at hfixed
        exact hfixed.2
      have hlength := (h.of_append.of_cons.of_suffix (List.suffix_append b rest)).cut.length_le
      rw [hrest, List.length_append] at hlength
      obtain rfl : b = [] := List.eq_nil_of_length_eq_zero (by omega)
      have hstart : LineStart m [] (rest ++ mark) := by
        refine ⟨rfl, List.not_mem_nil, ?_⟩
        rcases hb.kind with ⟨hm, hline⟩ | hempty
        · obtain ⟨more, hmore⟩ := headLine_prefix_append rest mark
          exact .inl ⟨hm, by rw [← hmore, isBlankLine_append, hline, Bool.false_and]⟩
        · rcases rest with _ | ⟨d, rest⟩
          · exact .inl (h.nil_of_mark hvisible)
          · by_cases hd : d = '\n' <;> simp_all [headLine]
      exact hstart.cutMargin_newline.trans (congrArg _ (ih h.of_cons hrest))
    · rw [cutMargin_cons hc, List.cons.injEq] at hfixed
      rw [List.cons_append, cutMargin_cons hc, ih h.of_cons hfixed.2]

/-! ### Dedented texts -/

/-- A margin consists of blanks and stays in its line. -/
theorem margin_blank (lines : List (List Char)) (hlines : ∀ line ∈ lines, '\n' ∉ line) :
    isBlankLine (margin lines) = true ∧ '\n' ∉ margin lines := by
  by_cases h : ∃ line ∈ lines, isBlankLine line = false
  · obtain ⟨line, hmem, hb⟩ := h
    have hpre := margin_prefix_lineIndent hmem hb
    constructor
    · exact List.all_eq_true.2 fun c hc ↦
        List.all_eq_true.1 List.all_takeWhile c (hpre.subset hc)
    · exact fun hn ↦ hlines line hmem ((List.takeWhile_prefix _).subset (hpre.subset hn))
  · have hnone : lines.filter (!isBlankLine ·) = [] := by
      refine List.filter_eq_nil_iff.2 fun line hmem hb ↦ h ⟨line, hmem, by simpa using hb⟩
    have hmargin : margin lines = [] := by
      rw [margin, hnone]
      rfl
    rw [hmargin]
    exact ⟨rfl, List.not_mem_nil⟩

/-- The margin of a text starts its lines. -/
theorem indented_margin (cs : List Char) : Indented (margin (splitLines cs)) ('\n' :: cs) where
  blank := (margin_blank _ fun _ ↦ newline_notMem_of_mem_splitLines).1
  noBreak := (margin_blank _ fun _ ↦ newline_notMem_of_mem_splitLines).2
  starts s hs hb := by
    have hmem := headLine_mem_tail hs
    rw [splitLines_newline, List.tail_cons] at hmem
    exact (margin_prefix_lineIndent hmem hb).trans
      ((List.takeWhile_prefix _).trans (List.takeWhile_prefix _))

/-- A dedented text is what a line feed is followed by when the margin is cut behind it. -/
theorem cutMargin_margin (cs : List Char) :
    cutMargin (margin (splitLines cs)) ('\n' :: cs) = '\n' :: dedentChars cs := by
  obtain ⟨lines, h⟩ := exists_splitLines cs
  simp only [cutMargin, splitLines_newline, dedentChars_lines, h, List.map_cons, joinLines_nil_cons]

end GuestBridge.Text
