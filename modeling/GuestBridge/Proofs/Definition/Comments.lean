import GuestBridge.Definition.Header

/-!
# Comments in front of a code

The comments in front of a code are skipped by searching: for the end of a line, and for the next
opening and the next closing mark of a block comment, of which the nearer one counts. Reading the
code character by character finds the same ends. So what comments and blanks stand in front of a
code makes no difference to whether it is a definition, nor to what it defines.
-/

namespace GuestBridge.Definition

open Text

variable {a b x : Char} {depth i : Nat} {cs rest : List Char}

/-! ### Searching for pairs -/

/-- A search goes on behind a character that no pair starts with. -/
theorem pairAt?_cons (h : ¬(x = a ∧ cs.head? = some b)) :
    pairAt? a b (x :: cs) = (pairAt? a b cs).map (· + 1) := by
  cases cs with
  | nil => rfl
  | cons y cs =>
    rw [pairAt?, if_neg]
    simpa using h

private theorem pairAt?_pair (a b : Char) (cs : List Char) :
    pairAt? a b (a :: b :: cs) = some 0 := by
  simp [pairAt?]

/-! ### Reading block comments character by character -/

/-- What stands behind the end of so many block comments around a text, read from left to right:
each `#=` opens one more and each `=#` closes one. Nothing if one of them does not end. -/
def closeBlock : (depth : Nat) → List Char → Option (List Char)
  | 0, cs => some cs
  | _ + 1, [] => none
  | depth + 1, '#' :: '=' :: cs => closeBlock (depth + 2) cs
  | depth + 1, '=' :: '#' :: cs => closeBlock depth cs
  | depth + 1, _ :: cs => closeBlock (depth + 1) cs

private theorem behindBlock_zero (cs : List Char) : behindBlock 0 cs = cs := by
  rw [behindBlock]

private theorem behindBlock_nil (depth : Nat) : behindBlock (depth + 1) [] = [] := by
  rw [behindBlock]
  rfl

/-- Every search that matters finds its pair behind a character that is not part of one. -/
theorem behindBlock_cons (hopen : ¬(x = '#' ∧ cs.head? = some '='))
    (hclose : ¬(x = '=' ∧ cs.head? = some '#')) :
    behindBlock (depth + 1) (x :: cs) = behindBlock (depth + 1) cs := by
  rw [behindBlock, behindBlock, pairAt?_cons hopen, pairAt?_cons hclose]
  cases pairAt? '#' '=' cs with
  | none => cases pairAt? '=' '#' cs <;> rfl
  | some o => cases pairAt? '=' '#' cs <;> simp [List.drop_succ_cons]

/-- Comments that nothing closes do not end. -/
theorem behindBlock_of_unclosed (h : pairAt? '=' '#' cs = none) :
    behindBlock (depth + 1) cs = [] := by
  rw [behindBlock, h]
  cases pairAt? '#' '=' cs <;> rfl

/-- No closing mark is nearer than an opening mark that comes first. -/
theorem behindBlock_open (depth : Nat) (cs : List Char) :
    behindBlock (depth + 1) ('#' :: '=' :: cs) = behindBlock (depth + 2) cs := by
  have hclose : pairAt? '=' '#' ('#' :: '=' :: cs) =
      (pairAt? '=' '#' ('=' :: cs)).map (· + 1) := pairAt?_cons (by simp)
  cases hnext : pairAt? '=' '#' ('=' :: cs) with
  | none =>
    rw [hnext] at hclose
    rw [behindBlock_of_unclosed hclose, behindBlock_of_unclosed]
    by_cases hhead : cs.head? = some '#'
    · obtain ⟨rest, rfl⟩ := List.head?_eq_some_iff.1 hhead
      rw [pairAt?_pair] at hnext
      cases hnext
    · rw [pairAt?_cons (by simpa using hhead)] at hnext
      exact Option.map_eq_none_iff.1 hnext
  | some c =>
    rw [hnext] at hclose
    rw [behindBlock, pairAt?_pair, hclose]
    simp

/-- No opening mark is nearer than a closing mark that comes first. -/
theorem behindBlock_close (depth : Nat) (cs : List Char) :
    behindBlock (depth + 1) ('=' :: '#' :: cs) = behindBlock depth cs := by
  rw [behindBlock, pairAt?_pair]
  cases pairAt? '#' '=' ('=' :: '#' :: cs) <;> simp

/-- Searching for the marks finds the end that reading finds. -/
theorem behindBlock_eq (depth : Nat) (cs : List Char) :
    behindBlock depth cs = (closeBlock depth cs).getD [] := by
  fun_induction closeBlock depth cs with
  | case1 cs => exact behindBlock_zero cs
  | case2 depth => exact behindBlock_nil depth
  | case3 depth cs ih => rw [behindBlock_open, ih]
  | case4 depth cs ih => rw [behindBlock_close, ih]
  | case5 depth x cs hopen hclose ih =>
    rw [behindBlock_cons, ih]
    · rintro ⟨rfl, hhead⟩
      obtain ⟨rest, rfl⟩ := List.head?_eq_some_iff.1 hhead
      exact hopen rest rfl rfl
    · rintro ⟨rfl, hhead⟩
      obtain ⟨rest, rfl⟩ := List.head?_eq_some_iff.1 hhead
      exact hclose rest rfl rfl

private theorem closeBlock_cons (hopen : ¬(x = '#' ∧ cs.head? = some '='))
    (hclose : ¬(x = '=' ∧ cs.head? = some '#')) :
    closeBlock (depth + 1) (x :: cs) = closeBlock (depth + 1) cs := by
  rw [closeBlock]
  · rintro rest hx rfl
    exact hopen ⟨hx, rfl⟩
  · rintro rest hx rfl
    exact hclose ⟨hx, rfl⟩

/-- What stands behind the end of a block comment makes no difference to where it ends. -/
theorem closeBlock_append {more : List Char} (h : closeBlock depth cs = some rest) :
    closeBlock depth (cs ++ more) = some (rest ++ more) := by
  fun_induction closeBlock depth cs with
  | case1 cs =>
    cases h
    rw [closeBlock]
  | case2 depth => cases h
  | case3 depth cs ih => exact ih h
  | case4 depth cs ih => exact ih h
  | case5 depth x cs hopen hclose ih =>
    cases cs with
    | nil => cases h
    | cons y cs =>
      rw [List.cons_append, closeBlock_cons]
      · exact ih h
      · rintro ⟨hx, hhead⟩
        cases hhead
        exact hopen cs hx rfl
      · rintro ⟨hx, hhead⟩
        cases hhead
        exact hclose cs hx rfl

/-! ### Where the code starts -/

private theorem codeStart_eq (cs : List Char) : codeStart cs =
    match trimStart cs with
    | '#' :: '=' :: rest => codeStart (behindBlock 1 rest)
    | '#' :: rest => codeStart ((rest.dropWhile (· ≠ '\n')).drop 1)
    | rest => rest := by
  rw [codeStart]
  split <;> simp_all

private theorem codeStart_blank (h : isBlank x = true) (cs : List Char) :
    codeStart (x :: cs) = codeStart cs := by
  rw [codeStart_eq, codeStart_eq cs, trimStart, trimStart, List.dropWhile_cons_of_pos h]

private theorem codeStart_block (cs : List Char) :
    codeStart ('#' :: '=' :: cs) = codeStart ((closeBlock 1 cs).getD []) := by
  rw [codeStart_eq, ← behindBlock_eq]
  rfl

private theorem codeStart_line (h : cs.head? ≠ some '=') :
    codeStart ('#' :: cs) = codeStart ((cs.dropWhile (· ≠ '\n')).drop 1) := by
  have htrim : trimStart ('#' :: cs) = '#' :: cs := rfl
  rw [codeStart_eq, htrim]
  split
  next rest heq =>
    cases heq
    exact absurd rfl h
  next rest _ heq =>
    cases heq
    rfl
  next _ hline => exact absurd rfl (hline cs)

/-- Code that begins with neither a comment nor a blank starts where it is. -/
theorem codeStart_cons (hhash : x ≠ '#') (hblank : isBlank x = false) (cs : List Char) :
    codeStart (x :: cs) = x :: cs := by
  have htrim : trimStart (x :: cs) = x :: cs := List.dropWhile_cons_of_neg (by simp [hblank])
  rw [codeStart_eq, htrim]
  split
  next heq =>
    cases heq
    exact absurd rfl hhash
  next heq =>
    cases heq
    exact absurd rfl hhash
  next => rfl

/-- Skipping ends at a rest of the code that starts with neither a blank nor a comment. -/
theorem codeStart_ends (cs : List Char) :
    codeStart cs <:+ cs ∧ ∀ x ∈ (codeStart cs).head?, isBlank x = false ∧ x ≠ '#' := by
  have htrimmed : trimStart cs <:+ cs := List.dropWhile_suffix isBlank
  fun_induction codeStart cs with
  | case1 cs rest htrim ih =>
    obtain ⟨hsuffix, hhead⟩ := ih (List.dropWhile_suffix isBlank)
    have hrest : rest <:+ '#' :: '=' :: rest := ⟨['#', '='], rfl⟩
    rw [htrim] at htrimmed
    exact ⟨hsuffix.trans ((behindBlock_suffix 1 rest).trans (hrest.trans htrimmed)), hhead⟩
  | case2 cs rest _ htrim ih =>
    obtain ⟨hsuffix, hhead⟩ := ih (List.dropWhile_suffix isBlank)
    have hline : (rest.dropWhile (· ≠ '\n')).drop 1 <:+ rest :=
      (List.drop_suffix _ _).trans (List.dropWhile_suffix _)
    rw [htrim] at htrimmed
    exact ⟨hsuffix.trans (hline.trans ((List.suffix_cons _ _).trans htrimmed)), hhead⟩
  | case3 cs _ hline =>
    refine ⟨htrimmed, fun x hx ↦ ⟨?_, ?_⟩⟩
    · have hnot := List.head?_dropWhile_not isBlank cs
      rw [← trimStart, hx] at hnot
      simpa using hnot
    · rintro rfl
      obtain ⟨rest, hrest⟩ := List.head?_eq_some_iff.1 hx
      exact hline rest hrest

/-! ### Reading everything character by character -/

/-- Where a scan of leading comments is. -/
inductive Skipping where
  | between
  /-- Inside a line comment. -/
  | line
  /-- Inside block comments, so many of them around the current one. -/
  | block (outer : Nat)
  deriving DecidableEq, Repr

/-- The rest of a code after its leading blanks and comments. Block comments nest, and one
that does not end leaves nothing. -/
def skipComments : Skipping → List Char → List Char
  | _, [] => []
  | .between, '#' :: '=' :: cs => skipComments (.block 0) cs
  | .between, c :: cs =>
    if c = '#' then skipComments .line cs
    else if isBlank c then skipComments .between cs
    else c :: cs
  | .line, c :: cs => if c = '\n' then skipComments .between cs else skipComments .line cs
  | .block outer, '#' :: '=' :: cs => skipComments (.block (outer + 1)) cs
  | .block 0, '=' :: '#' :: cs => skipComments .between cs
  | .block (outer + 1), '=' :: '#' :: cs => skipComments (.block outer) cs
  | .block outer, _ :: cs => skipComments (.block outer) cs

/-- What a scan leaves of a text behind the comment that it is in. -/
def Skipping.behind : Skipping → List Char → List Char
  | .between, cs => cs
  | .line, cs => (cs.dropWhile (· ≠ '\n')).drop 1
  | .block outer, cs => (closeBlock (outer + 1) cs).getD []

/-- A scan goes on as if the code started behind the comment that it is in. -/
theorem skipComments_eq (state : Skipping) (cs : List Char) :
    skipComments state cs = codeStart (state.behind cs) := by
  have hnil : codeStart [] = [] := codeStart_eq []
  fun_induction skipComments state cs with
  | case1 state => cases state <;> exact hnil.symm
  | case2 cs ih => rw [ih, Skipping.behind, Skipping.behind, codeStart_block]
  | case3 cs hblock ih =>
    rw [ih, Skipping.behind, Skipping.behind, codeStart_line]
    intro hhead
    obtain ⟨rest, hrest⟩ := List.head?_eq_some_iff.1 hhead
    exact hblock rest rfl hrest
  | case4 x cs _ _ hblank ih =>
    rw [ih, Skipping.behind, Skipping.behind, codeStart_blank hblank]
  | case5 x cs _ hhash hblank =>
    rw [Skipping.behind, codeStart_cons hhash (Bool.eq_false_iff.2 hblank)]
  | case6 cs ih => exact ih
  | case7 x cs hline ih =>
    rw [ih, Skipping.behind, Skipping.behind, List.dropWhile_cons_of_pos (by simpa using hline)]
  | case8 outer cs ih => exact ih
  | case9 cs ih => rw [ih, Skipping.behind, Skipping.behind, closeBlock, closeBlock]; rfl
  | case10 outer cs ih => exact ih
  | case11 outer x cs hopen hzero hsucc ih =>
    rw [ih, Skipping.behind, Skipping.behind, closeBlock_cons]
    · rintro ⟨hx, hhead⟩
      obtain ⟨rest, hrest⟩ := List.head?_eq_some_iff.1 hhead
      exact hopen rest hx hrest
    · rintro ⟨hx, hhead⟩
      obtain ⟨rest, hrest⟩ := List.head?_eq_some_iff.1 hhead
      cases outer with
      | zero => exact hzero rest rfl hx hrest
      | succ outer => exact hsucc outer rest rfl hx hrest

/-- Searching for the ends of the comments finds the same start as reading them. -/
@[simp]
theorem codeStart_eq_skipComments (cs : List Char) : codeStart cs = skipComments .between cs :=
  (skipComments_eq .between cs).symm

/-! ### Comments make no difference -/

/-- A text of blanks, line comments and block comments. A line comment ends with its line and does
not look like a block comment; a block comment ends where reading it from left to right says. -/
inductive Leading : List Char → Prop
  | nil : Leading []
  | blank {x : Char} {front : List Char} (hx : isBlank x = true) (hfront : Leading front) :
    Leading (x :: front)
  | line {body front : List Char} (hblock : body.head? ≠ some '=') (hbody : '\n' ∉ body)
    (hfront : Leading front) : Leading ('#' :: body ++ '\n' :: front)
  | block {body front : List Char} (hbody : closeBlock 1 body = some [])
    (hfront : Leading front) : Leading ('#' :: '=' :: body ++ front)

/-- The code starts at the same place whatever blanks and comments stand in front of it. -/
theorem codeStart_append {front : List Char} (h : Leading front) (cs : List Char) :
    codeStart (front ++ cs) = codeStart cs := by
  induction h with
  | nil => rfl
  | blank hx _ ih => rw [List.cons_append, codeStart_blank hx, ih]
  | @line body front hblock hbody _ ih =>
    have hne : ∀ x ∈ body, decide (x ≠ '\n') = true := fun x hx ↦
      decide_eq_true fun hnewline ↦ hbody (hnewline ▸ hx)
    have htext : '#' :: body ++ '\n' :: front ++ cs = '#' :: (body ++ '\n' :: (front ++ cs)) := by
      simp
    have hhead : (body ++ '\n' :: (front ++ cs)).head? ≠ some '=' := by
      cases body with
      | nil => simp
      | cons x body => simpa using hblock
    rw [htext, codeStart_line hhead, List.dropWhile_append_of_pos hne,
      List.dropWhile_cons_of_neg (by simp)]
    exact ih
  | @block body front hbody _ ih =>
    have htext : '#' :: '=' :: body ++ front ++ cs = '#' :: '=' :: (body ++ (front ++ cs)) := by
      simp
    rw [htext, codeStart_block, closeBlock_append hbody]
    exact ih

/-- A block comment that does not end leaves no code. -/
theorem codeStart_unclosed {cs : List Char} (h : closeBlock 1 cs = none) :
    codeStart ('#' :: '=' :: cs) = [] := by
  rw [codeStart_block, h]
  exact codeStart_eq []

/-- Whatever blanks and comments stand in front of a code, it is a definition of the same name or
none as before; and behind the start of a block comment that does not end, nothing is a
definition. Searching for the marks of block comments finds the end that reading them finds, and
skipping always ends, in front of what is neither blank nor a comment. -/
theorem definedName?_leading {front : String} (h : Leading front.toList) (code : String) :
    definedName? (front ++ code) = definedName? code ∧
      (∀ comment : String, closeBlock 1 (comment ++ code).toList = none →
        definedName? (front ++ "#=" ++ comment ++ code) = none) ∧
      (∀ depth cs, behindBlock depth cs = (closeBlock depth cs).getD []) ∧
      ∀ cs, codeStart cs <:+ cs ∧ ∀ x ∈ (codeStart cs).head?, isBlank x = false ∧ x ≠ '#' := by
  refine ⟨?_, fun comment hcomment ↦ ?_, behindBlock_eq, codeStart_ends⟩
  · rw [definedName?, definedName?, String.toList_append, codeStart_append h]
  · have htext : (front ++ "#=" ++ comment ++ code).toList =
        front.toList ++ '#' :: '=' :: (comment ++ code).toList := by
      simp [String.toList_append]
    rw [definedName?, htext, codeStart_append h, codeStart_unclosed hcomment]
    rfl

/-- The marks in `#=#=#==#=#=#` overlap. Read from left to right, three comments open and the same
three close; behind one more that opens there is no code. -/
theorem definedName?_leading_overlap :
    Leading " # a\n#=#=#==#=#=#\n".toList ∧
      definedName? (" # a\n#=#=#==#=#=#\n" ++ "f(x) = x") = definedName? "f(x) = x" ∧
      closeBlock 1 ("#=#" ++ "f(x) = x").toList = none ∧
      definedName? (" # a\n#=#=#==#=#=#\n" ++ "#=" ++ "#=#" ++ "f(x) = x") = none := by
  have hleading : Leading " # a\n#=#=#==#=#=#\n".toList :=
    .blank (by decide) (@Leading.line " a".toList _ (by decide) (by decide)
      (@Leading.block "#=#==#=#=#".toList _ (by decide) (.blank (by decide) .nil)))
  have hopen : closeBlock 1 ("#=#" ++ "f(x) = x").toList = none := by decide
  obtain ⟨hsame, hnone, -⟩ := definedName?_leading hleading "f(x) = x"
  exact ⟨hleading, hsame, hopen, hnone "#=#" hopen⟩

end GuestBridge.Definition
