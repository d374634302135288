import GuestBridge.Proofs.Host.LiteralText
import GuestBridge.Proofs.Text.Stripped

/-!
# The lines of string literals

When the margin of the text around it is cut, the text that a string literal stands for loses the
same margin from its lines. This takes literals that show their lines: none of their escapes
writes a line feed, and where a backslash continues a line, only the usual blanks follow.
-/

namespace GuestBridge.Host.StringLiteral

open GuestBridge.Text GuestBridge.Host.Scan plainText

variable {m cs rest v w piece : List Char} {fuel : Nat} {c d : Char}

/-! ### Reading plain literals -/

/-- What a piece behind a backslash stands for, within a line. -/
inductive Escape : List Char → Char → Prop
  | simple {c d : Char} (h : simpleEscape c = some d) : Escape [c] d
  | byte {a b : Char} {x y : Nat} (ha : hexValue a = some x) (hb : hexValue b = some y) :
    Escape ['x', a, b] (Char.ofNat (x * 16 + y))
  | point {code : List Char} {n : Nat} (hcode : Unmarked code) (hline : '\n' ∉ code)
    (h : ∀ more, codeEscape? (code ++ more) = some (n, more)) :
    Escape ('u' :: code) (Char.ofNat n)

/-- What a plain literal stands for, from behind its opening quote on. -/
inductive Reads : List Char → List Char → Prop
  | close (suffix : List Char) : Reads ('"' :: suffix) []
  | escape {piece cs v : List Char} {d : Char} (he : Escape piece d) (h : Reads cs v) :
    Reads ('\\' :: (piece ++ cs)) (d :: v)
  | continued {c : Char} {cs v : List Char} (hc : c = '\n' ∨ c = '\r')
    (h : Reads (cs.dropWhile isLineBlank) v) : Reads ('\\' :: c :: cs) v
  | lineEnd {cs v : List Char} (h : Reads cs v) : Reads ('\r' :: '\n' :: cs) ('\n' :: v)
  | plain {c : Char} {cs v : List Char} (hc : c ≠ '"' ∧ c ≠ '\\')
    (hreturn : c = '\r' → cs.head? ≠ some '\n') (h : Reads cs v) : Reads (c :: cs) (c :: v)

/-- A literal that stands for a text reads as that text. -/
theorem reads_of_plainText (h : plainText fuel cs = some v) : Reads cs v := by
  fun_induction plainText fuel cs generalizing v with
  | case3 =>
    cases h
    exact .close _
  | case4 fuel cs ih =>
    obtain ⟨w, hw, rfl⟩ := Option.map_eq_some_iff.1 h
    exact .lineEnd (ih hw)
  | case5 fuel a b cs x y hb ha ih =>
    obtain ⟨w, hw, rfl⟩ := Option.map_eq_some_iff.1 h
    exact .escape (.byte ha hb) (ih hw)
  | case7 fuel cs n rest hcode ih =>
    obtain ⟨w, hw, rfl⟩ := Option.map_eq_some_iff.1 h
    obtain ⟨code, rfl, hunmarked, hline, hread⟩ := codeEscape?_split hcode
    exact .escape (.point hunmarked hline hread) (ih hw)
  | case9 fuel cs ih => exact .continued (.inl rfl) (ih h)
  | case10 fuel cs ih => exact .continued (.inr rfl) (ih h)
  | case11 fuel c cs _ _ _ _ d hd ih =>
    obtain ⟨w, hw, rfl⟩ := Option.map_eq_some_iff.1 h
    exact .escape (.simple hd) (ih hw)
  | case13 fuel c cs hquote hreturn _ _ _ _ hslash ih =>
    obtain ⟨w, hw, rfl⟩ := Option.map_eq_some_iff.1 h
    refine .plain ⟨hquote, ?_⟩ ?_ (ih hw)
    · rintro rfl
      cases cs with
      | nil => cases fuel <;> cases hw
      | cons d cs => exact hslash d cs rfl rfl
    · rintro rfl hhead
      obtain ⟨rest, rfl⟩ := List.head?_eq_some_iff.1 hhead
      exact hreturn rest rfl rfl
  | _ => cases h

/-- An escape stands for its character whatever follows it. -/
theorem Escape.plainText_append (he : Escape piece d) (fuel : Nat) (cs : List Char) :
    plainText (fuel + 1) ('\\' :: (piece ++ cs)) = (plainText fuel cs).map (d :: ·) := by
  cases he with
  | simple h => exact plainText_simple h fuel cs
  | byte ha hb => simp [plainText, ha, hb]
  | point _ _ h => simp [plainText, h]

private theorem Reads.plainText_eq (h : Reads cs v) (hfuel : cs.length < fuel) :
    plainText fuel cs = some v := by
  induction h generalizing fuel with
  | close suffix => cases fuel <;> first | omega | rfl
  | @escape piece cs v d he _ ih =>
    obtain ⟨fuel, rfl⟩ := Nat.exists_eq_succ_of_ne_zero (Nat.ne_of_gt (Nat.zero_lt_of_lt hfuel))
    rw [List.length_cons, List.length_append] at hfuel
    rw [he.plainText_append, ih (by omega), Option.map_some]
  | @continued c cs v hc _ ih =>
    obtain ⟨fuel, rfl⟩ := Nat.exists_eq_succ_of_ne_zero (Nat.ne_of_gt (Nat.zero_lt_of_lt hfuel))
    have hlength := (List.dropWhile_suffix isLineBlank (l := cs)).length_le
    rw [List.length_cons, List.length_cons] at hfuel
    have hrest : plainText fuel (cs.dropWhile isLineBlank) = some v := ih (by omega)
    rcases hc with rfl | rfl <;> simpa [plainText] using hrest
  | @lineEnd cs v _ ih =>
    obtain ⟨fuel, rfl⟩ := Nat.exists_eq_succ_of_ne_zero (Nat.ne_of_gt (Nat.zero_lt_of_lt hfuel))
    rw [List.length_cons, List.length_cons] at hfuel
    have hrest : plainText fuel cs = some v := ih (by omega)
    simp [plainText, hrest]
  | @plain c cs v hc hreturn _ ih =>
    obtain ⟨fuel, rfl⟩ := Nat.exists_eq_succ_of_ne_zero (Nat.ne_of_gt (Nat.zero_lt_of_lt hfuel))
    rw [List.length_cons] at hfuel
    rw [plainText_plain hc.1 hc.2 hreturn, ih (by omega), Option.map_some]

/-! ### Escapes that keep to their lines -/

/-- What stands behind each backslash that starts an escape of a plain literal passes a test. -/
def everyEscape (test : Char → List Char → Bool) : List Char → Bool
  | [] => true
  | '\\' :: c :: cs => test c cs && everyEscape test cs
  | _ :: cs => everyEscape test cs

/-- An escape stands for no line feed. -/
def writesNoBreak (c : Char) (cs : List Char) : Bool :=
  !(c = 'n' || (c = 'u' && (codeEscape? cs).any (·.1 = 10)) ||
    (c = 'x' && cs.head?.bind hexValue = some 0 && (cs.drop 1).head?.bind hexValue = some 10))

/-- If a backslash continues a line, all blanks behind it are among those that it swallows. -/
def continuesPlainly (c : Char) (cs : List Char) : Bool :=
  !(c = '\n' || c = '\r') || cs.all fun c ↦ !isBlank c || isLineBlank c

section

variable {test : Char → List Char → Bool}

private theorem everyEscape_cons (hc : c ≠ '\\') (cs : List Char) :
    everyEscape test (c :: cs) = everyEscape test cs := by
  simp [everyEscape, hc]

private theorem everyEscape_append (h : Unmarked piece) (cs : List Char) :
    everyEscape test (piece ++ cs) = everyEscape test cs := by
  induction piece with
  | nil => rfl
  | cons c piece ih =>
    obtain ⟨hc, hpiece⟩ := List.forall_mem_cons.1 h
    rw [List.cons_append, everyEscape_cons hc.2, ih hpiece]

/-- Blanks start no escape. -/
theorem everyEscape_dropWhile (cs : List Char) :
    everyEscape test (cs.dropWhile isLineBlank) = everyEscape test cs := by
  have hfront : Unmarked (cs.takeWhile isLineBlank) :=
    unmarked_of_isLineBlank fun d hd ↦ List.all_eq_true.1 List.all_takeWhile d hd
  conv_rhs => rw [← List.takeWhile_append_dropWhile (p := isLineBlank) (l := cs)]
  exact (everyEscape_append hfront _).symm

/-- An escape is a character with an unmarked piece behind it, within a line. -/
theorem Escape.exists_cons (he : Escape piece d) :
    ∃ c more, piece = c :: more ∧ Unmarked more ∧ '\n' ∉ piece := by
  cases he with
  | @simple c d h =>
    refine ⟨c, [], rfl, .nil, ?_⟩
    rintro hn
    obtain rfl := List.mem_singleton.1 hn
    cases h
  | @byte a b x y ha hb =>
    have hhex {c : Char} {n : Nat} (h : hexValue c = some n) : isHex c = true := by simp [isHex, h]
    have hline {c : Char} {n : Nat} (h : hexValue c = some n) : '\n' ≠ c := by
      rintro rfl
      cases h
    refine ⟨'x', [a, b], rfl, ?_, by simp [hline ha, hline hb]⟩
    exact .cons (unmarked_of_isHex (hhex ha)) (.cons (unmarked_of_isHex (hhex hb)) .nil)
  | point hcode hline _ => exact ⟨'u', _, rfl, hcode, by simp [hline]⟩

private theorem everyEscape_escape (he : Escape piece d)
    (h : everyEscape test ('\\' :: (piece ++ cs)) = true) : everyEscape test cs = true := by
  obtain ⟨c, more, rfl, hmore, -⟩ := he.exists_cons
  have hrest : everyEscape test (more ++ cs) = true := (Bool.and_eq_true_iff.1 h).2
  rwa [everyEscape_append hmore] at hrest

end

/-- Digits stand for numbers below sixteen. -/
theorem hexValue_lt {n : Nat} (h : hexValue c = some n) : n < 16 := by
  have htoNat {d : Char} (h : c ≤ d) : c.toNat ≤ d.toNat := UInt32.le_iff_toNat_le.1 h
  unfold hexValue at h
  split at h
  next hc =>
    have hle : c.toNat ≤ 57 := htoNat (of_decide_eq_true (Bool.and_eq_true_iff.1 hc).2)
    cases h
    omega
  next =>
    split at h
    next hc =>
      have hle : c.toNat ≤ 102 := htoNat (of_decide_eq_true (Bool.and_eq_true_iff.1 hc).2)
      cases h
      omega
    next =>
      obtain ⟨hc, h⟩ := Option.ite_none_right_eq_some.1 h
      have hle : c.toNat ≤ 70 := htoNat (of_decide_eq_true (Bool.and_eq_true_iff.1 hc).2)
      cases h
      omega

private theorem eq_of_ofNat_eq_newline {n : Nat} (h : Char.ofNat n = '\n') : n = 10 := by
  by_cases hvalid : n.isValidChar
  · rw [Char.ofNat, dif_pos hvalid] at h
    exact congrArg Char.toNat h
  · rw [Char.ofNat, dif_neg hvalid] at h
    cases h

private theorem eq_of_simpleEscape_newline (h : simpleEscape c = some '\n') : c = 'n' := by
  by_contra hn
  rw [simpleEscape, if_neg hn] at h
  repeat' split at h
  all_goals exact absurd h (by decide)

/-- An escape that stands for a line feed is recognised. -/
theorem ne_newline_of_writesNoBreak (he : Escape piece d)
    (h : everyEscape writesNoBreak ('\\' :: (piece ++ cs)) = true) : d ≠ '\n' := by
  intro hd
  cases he with
  | simple hc =>
    subst hd
    simp [everyEscape, writesNoBreak, eq_of_simpleEscape_newline hc] at h
  | @byte a b x y ha hb =>
    have hx := hexValue_lt ha
    have hy := hexValue_lt hb
    have hcode := eq_of_ofNat_eq_newline hd
    obtain rfl : x = 0 := by omega
    obtain rfl : y = 10 := by omega
    simp [everyEscape, writesNoBreak, ha, hb] at h
  | point _ _ hread =>
    obtain rfl := eq_of_ofNat_eq_newline hd
    simp [everyEscape, writesNoBreak, hread] at h

/-! ### Lines of plain literals -/

/-- Blanks within a line stand for themselves, but for a return in front of a line feed. -/
theorem exists_read_blanks {b : List Char} (hb : isBlankLine b = true) (hn : '\n' ∉ b)
    (rest : List Char) : ∃ b', isBlankLine b' = true ∧ '\n' ∉ b' ∧
      (rest.head? ≠ some '\n' → b' = b) ∧
      ∀ cs w, cs.head? = rest.head? → Reads (b ++ cs) w → ∃ w', w = b' ++ w' ∧ Reads cs w' := by
  induction b with
  | nil => exact ⟨[], rfl, List.not_mem_nil, fun _ ↦ rfl, fun cs w _ h ↦ ⟨w, rfl, h⟩⟩
  | cons c b ih =>
    obtain ⟨hc, hb⟩ := Bool.and_eq_true_iff.1 hb
    rw [List.mem_cons, not_or] at hn
    obtain ⟨b', hblank, hline, hsame, hread⟩ := ih hb hn.2
    by_cases hreturn : c = '\r' ∧ b = [] ∧ rest.head? = some '\n'
    · obtain ⟨rfl, rfl, hhead⟩ := hreturn
      refine ⟨[], rfl, List.not_mem_nil, fun h ↦ absurd hhead h, fun cs w hcs h ↦ ?_⟩
      obtain ⟨cs, rfl⟩ := List.head?_eq_some_iff.1 (hcs.trans hhead)
      cases h with
      | lineEnd h => exact ⟨_, rfl, .plain (by decide) (fun h ↦ absurd h (by decide)) h⟩
      | plain _ hhead _ => exact absurd rfl (hhead rfl)
    · refine ⟨c :: b', Bool.and_eq_true_iff.2 ⟨hc, hblank⟩, by simp [hn.1, hline],
        fun h ↦ by rw [hsame h], fun cs w hcs h ↦ ?_⟩
      generalize hfront : c :: b ++ cs = text at h
      cases h with
      | plain _ _ h =>
        cases hfront
        obtain ⟨w', rfl, hw⟩ := hread cs _ hcs h
        exact ⟨w', rfl, hw⟩
      | lineEnd _ =>
        -- The line feed behind the return would stand behind the blanks.
        rcases b with _ | ⟨d, b⟩
        · cases hfront
          exact absurd ⟨rfl, rfl, hcs.symm⟩ hreturn
        · cases hfront
          exact absurd List.mem_cons_self hn.2
      | _ =>
        rw [List.cons_append, List.cons.injEq] at hfront
        rw [hfront.1] at hc
        exact absurd hc (by decide)

/-- A line feed in a plain literal stands for itself, and what it is followed by loses its start. -/
theorem exists_read_newline (hm : Indented m ('\n' :: cs)) (h : Reads cs v) {v' : List Char}
    (hcut : Reads (cutMargin m cs) v') (hs : Stripped m v v') :
    ∃ rest w, cutMargin m ('\n' :: cs) = '\n' :: rest ∧ Reads rest w ∧
      Stripped m ('\n' :: v) ('\n' :: w) := by
  obtain ⟨b, rest, rfl, hb⟩ := hm.exists_lineStart
  rw [cutMargin_append_line hb.noBreak] at hcut
  obtain ⟨b', hblank, hline, hsame, hread⟩ := exists_read_blanks hb.blank hb.noBreak rest
  obtain ⟨v, rfl, hv⟩ := hread rest _ rfl h
  obtain ⟨w, rfl, hw⟩ := hread (cutMargin m rest) _ (head?_cutMargin m rest) hcut
  refine ⟨cutMargin m rest, w, hb.cutMargin_newline, hw, ?_⟩
  refine (hs.of_append hline).newline hblank hline ?_
  rcases hb.kind with ⟨rfl, hvisible⟩ | hempty
  · refine .inl (hsame fun hhead ↦ ?_)
    obtain ⟨rest, rfl⟩ := List.head?_eq_some_iff.1 hhead
    simp [headLine, isBlankLine] at hvisible
  · right
    clear h hcut
    cases hv with
    | @plain c _ _ _ _ _ =>
      by_cases hc : c = '\n' <;> simp_all [headLine]
    | _ => simp_all [headLine]

private theorem dropWhile_isLineBlank_cut (hm : Indented m cs)
    (hblank : ∀ c ∈ cs, isBlank c = true → isLineBlank c = true) :
    (cutMargin m cs).dropWhile isLineBlank = cutMargin m (cs.dropWhile isLineBlank) := by
  induction cs with
  | nil => rfl
  | cons c cs ih =>
    rw [List.forall_mem_cons] at hblank
    have hrest := ih hm.of_cons hblank.2
    by_cases hc : c = '\n'
    · subst hc
      obtain ⟨b, rest, rfl, hb, hcut, hpassed⟩ := hm.exists_passed
      have hfront : ∀ c ∈ b, isLineBlank c = true := fun c hc ↦
        hblank.2 c (List.mem_append_left _ hc) (List.all_eq_true.1 hb c hc)
      rw [hpassed, List.dropWhile_append_of_pos hfront] at hrest
      rw [hcut, List.dropWhile_cons_of_pos rfl, List.dropWhile_cons_of_pos rfl, hrest]
    · rw [cutMargin_cons hc, List.dropWhile_cons, List.dropWhile_cons]
      split
      · exact hrest
      · rw [cutMargin_cons hc]

/-- All blanks from a continued line's end on are swallowed. -/
theorem isLineBlank_of_continuesPlainly (hc : c = '\n' ∨ c = '\r')
    (h : continuesPlainly c cs = true) :
    ∀ d ∈ c :: cs, isBlank d = true → isLineBlank d = true := by
  have hall : cs.all (fun c ↦ !isBlank c || isLineBlank c) = true := by
    rcases hc with rfl | rfl <;> exact h
  refine List.forall_mem_cons.2 ⟨fun _ ↦ ?_, fun d hd hb ↦ ?_⟩
  · rcases hc with rfl | rfl <;> rfl
  · simpa [hb] using List.all_eq_true.1 hall d hd

/-- What a plain literal stands for loses the margin of its lines. -/
theorem Reads.cut (h : Reads cs v) (hm : Indented m cs)
    (hcontinued : everyEscape continuesPlainly cs = true)
    (hbreaks : m = [] ∨ everyEscape writesNoBreak cs = true) :
    ∃ v', Reads (cutMargin m cs) v' ∧ Stripped m v v' := by
  induction h with
  | close suffix =>
    rw [cutMargin_cons (by decide)]
    exact ⟨[], .close _, .nil m⟩
  | @escape piece cs v d he _ ih =>
    obtain ⟨c, more, hpiece, -, hline⟩ := he.exists_cons
    obtain ⟨v', hread, hs⟩ := ih (hm.of_cons.of_suffix (List.suffix_append piece cs))
      (everyEscape_escape he hcontinued) (hbreaks.imp_right (everyEscape_escape he))
    rw [cutMargin_cons (by decide), cutMargin_append_line hline]
    refine ⟨d :: v', .escape he hread, ?_⟩
    by_cases hd : d = '\n'
    · subst hd
      obtain rfl : m = [] := by
        rcases hbreaks with hm | hbreaks
        · exact hm
        · exact absurd rfl (ne_newline_of_writesNoBreak he hbreaks)
      exact hs.newline (b := []) rfl List.not_mem_nil (.inl rfl)
    · exact hs.cons hd
  | @continued c cs v hc _ ih =>
    obtain ⟨hblank, hrest⟩ := Bool.and_eq_true_iff.1 hcontinued
    have hc' : isLineBlank c = true := by rcases hc with rfl | rfl <;> rfl
    obtain ⟨v', hread, hs⟩ := ih (hm.of_cons.of_cons.of_suffix (List.dropWhile_suffix _))
      ((everyEscape_dropWhile cs).trans hrest)
      (hbreaks.imp_right fun h ↦ (everyEscape_dropWhile cs).trans (Bool.and_eq_true_iff.1 h).2)
    obtain ⟨more, hcut⟩ := exists_cutMargin_cons m c cs
    have hdrop := dropWhile_isLineBlank_cut hm.of_cons (isLineBlank_of_continuesPlainly hc hblank)
    rw [hcut, List.dropWhile_cons_of_pos hc', List.dropWhile_cons_of_pos hc'] at hdrop
    rw [cutMargin_cons (by decide), hcut]
    exact ⟨v', .continued hc (hdrop ▸ hread), hs⟩
  | @lineEnd cs v h ih =>
    rw [everyEscape_cons (by decide), everyEscape_cons (by decide)] at hcontinued hbreaks
    obtain ⟨v', hread, hs⟩ := ih hm.of_cons.of_cons hcontinued hbreaks
    obtain ⟨rest, w, hcut, hread, hs⟩ := exists_read_newline hm.of_cons h hread hs
    rw [cutMargin_cons (by decide), hcut]
    exact ⟨'\n' :: w, .lineEnd hread, hs⟩
  | @plain c cs v hc hreturn h ih =>
    rw [everyEscape_cons hc.2] at hcontinued hbreaks
    obtain ⟨v', hread, hs⟩ := ih hm.of_cons hcontinued hbreaks
    by_cases hn : c = '\n'
    · subst hn
      obtain ⟨rest, w, hcut, hread, hs⟩ := exists_read_newline hm h hread hs
      rw [hcut]
      exact ⟨'\n' :: w, .plain hc (fun h ↦ absurd h (by decide)) hread, hs⟩
    · rw [cutMargin_cons hn]
      refine ⟨c :: v', .plain hc (fun hr ↦ ?_) hread, hs.cons hn⟩
      rw [head?_cutMargin]
      exact hreturn hr

/-! ### Lines of raw literals -/

private theorem rawText_append (h : Unmarked piece) (hashes : Nat) (cs : List Char) :
    rawText hashes (piece ++ cs) = (rawText hashes cs).map (piece ++ ·) := by
  induction piece with
  | nil => simp
  | cons c piece ih =>
    obtain ⟨hc, hpiece⟩ := List.forall_mem_cons.1 h
    rw [List.cons_append, rawText, if_neg (by simp [hc.1]), ih hpiece, Option.map_map]
    rfl

/-- What a raw literal stands for loses the margin of its lines. -/
theorem rawText_cut {hashes : Nat} (h : rawText hashes cs = some v) (hm : Indented m cs) :
    ∃ v', rawText hashes (cutMargin m cs) = some v' ∧ Stripped m v v' := by
  induction cs generalizing v with
  | nil => cases h
  | cons c cs ih =>
    unfold rawText at h
    split at h
    next hclose =>
      cases h
      rw [Bool.and_eq_true, decide_eq_true_eq, decide_eq_true_eq] at hclose
      obtain ⟨rfl, hclose⟩ := hclose
      rw [cutMargin_cons (by decide), rawText,
        if_pos (by simpa using (take_hashes_cut hashes cs).2 hclose)]
      exact ⟨[], rfl, .nil m⟩
    next hopen =>
      obtain ⟨w, hw, rfl⟩ := Option.map_eq_some_iff.1 h
      obtain ⟨w', hw', hs⟩ := ih hw hm.of_cons
      by_cases hn : c = '\n'
      · subst hn
        obtain ⟨b, rest, rfl, hb⟩ := hm.exists_lineStart
        have hunmarked := Unmarked.of_isBlankLine hb.blank
        rw [cutMargin_append_line hb.noBreak, rawText_append hunmarked] at hw'
        rw [rawText_append hunmarked] at hw
        obtain ⟨v, hv, rfl⟩ := Option.map_eq_some_iff.1 hw
        obtain ⟨v', hv', rfl⟩ := Option.map_eq_some_iff.1 hw'
        refine ⟨'\n' :: v', ?_, (hs.of_append hb.noBreak).newline hb.blank hb.noBreak ?_⟩
        · rw [hb.cutMargin_newline, rawText, if_neg (by simp), hv', Option.map_some]
        · refine hb.kind.imp And.left fun hempty ↦ ?_
          rcases rest with _ | ⟨d, rest⟩
          · cases hv
          · obtain rfl : d = '\n' := by
              by_contra hd
              simp [headLine, hd] at hempty
            rw [rawText, if_neg (by simp)] at hv
            obtain ⟨_, -, rfl⟩ := Option.map_eq_some_iff.1 hv
            simp [headLine]
      · refine ⟨c :: w', ?_, hs.cons hn⟩
        rw [Bool.and_eq_true, decide_eq_true_eq, decide_eq_true_eq, ← take_hashes_cut (m := m)]
          at hopen
        rw [cutMargin_cons hn, rawText, if_neg (by simpa using hopen), hw', Option.map_some]

/-! ### Values of literals -/

/-- All escapes of a literal pass a test. A raw literal has none. -/
def escapesPass (test : Char → List Char → Bool) (t : String) : Bool :=
  match t.toList with
  | '"' :: cs => everyEscape test cs
  | _ => true

/-- What a string literal stands for loses the margin of its lines. -/
theorem value?_cutText {t s : String} (h : value? t = some s) (hm : Indented m t.toList)
    (hcontinued : escapesPass continuesPlainly t = true)
    (hbreaks : m = [] ∨ escapesPass writesNoBreak t = true) :
    ∃ s', value? (cutText m t) = some s' ∧ Stripped m s.toList s'.toList := by
  unfold value? at h
  split at h
  next cs ht =>
    obtain ⟨v, hv, rfl⟩ := Option.map_eq_some_iff.1 h
    rw [ht] at hm
    simp only [escapesPass, ht] at hcontinued hbreaks
    obtain ⟨v', hread, hs⟩ := (reads_of_plainText hv).cut hm.of_cons hcontinued hbreaks
    refine ⟨String.ofList v', ?_, by simpa using hs⟩
    rw [value?, cutText, String.toList_ofList, ht, cutMargin_cons (by decide)]
    simp [hread.plainText_eq (Nat.lt_succ_self _)]
  next cs ht =>
    obtain ⟨⟨hashes, rest⟩, hopening, h⟩ := Option.bind_eq_some_iff.1 h
    obtain ⟨v, hv, rfl⟩ := Option.map_eq_some_iff.1 h
    obtain ⟨piece, rfl, -⟩ := rawOpening_split hopening
    rw [ht] at hm
    obtain ⟨v', hraw, hs⟩ := rawText_cut hv (hm.of_cons.of_suffix (List.suffix_append piece rest))
    refine ⟨String.ofList v', ?_, by simpa using hs⟩
    rw [value?, cutText, String.toList_ofList, ht, cutMargin_cons (by decide)]
    simp [rawOpening_cut, hopening, hraw]
  next => cases h

end GuestBridge.Host.StringLiteral
