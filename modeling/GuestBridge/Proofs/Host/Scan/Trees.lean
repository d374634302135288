import GuestBridge.Proofs.Host.Twins
import GuestBridge.Proofs.Text.Margin

/-!
# Scanning texts with and without their margin

Where both a text and what is left of it without its margin can be cut into trees, the trees are
twins: the scan recognises the same tokens in both, one by one.
-/

namespace GuestBridge.Host.Scan

open GuestBridge.Text

variable {m cs rest rest' : List Char} {t t' : Token} {ts ts' done done' : List Token}

/-- Texts that start tokens start with twins. -/
theorem leaf?_twins (h : Indented m cs) (hleaf : leaf? cs = some (t, rest))
    (hcut : leaf? (cutMargin m cs) = some (t', rest')) :
    Twins m [t] [t'] ∧ rest' = cutMargin m rest ∧ rest <:+ cs := by
  have hstarts : leaf? cs ≠ none := by simp [hleaf]
  have hstartsCut : leaf? (cutMargin m cs) ≠ none := by simp [hcut]
  have hboth := leaf?_cut h hstarts hstartsCut
  rw [hleaf, hcut, Option.map_some] at hboth
  cases hboth
  rcases leaf?_cases hleaf with ⟨hend, rfl⟩ | ⟨hline, ⟨_, rfl⟩ | ⟨_, _, rfl⟩ | ⟨_, rfl⟩⟩
  · refine ⟨?_, rfl, ((literalEnd_cut h hstarts hstartsCut).2 rest hend).suffix⟩
    have hvalue := StringLiteral.isSome_value? hleaf
    have hvalueCut := StringLiteral.isSome_value? hcut
    rw [head?_cutMargin, ← hvalue] at hvalueCut
    have hlines : Indented m (String.ofList (between cs rest)).toList := by
      obtain ⟨piece, hpiece⟩ := ((literalEnd_cut h hstarts hstartsCut).2 rest hend).suffix
      rw [← hpiece] at h ⊢
      rw [between_append, String.toList_ofList]
      exact h.of_append
    refine .literal hlines ⟨hvalueCut, ?_⟩ fun hnumber ↦ ?_
    · simp [Test.isNumber, cutText]
    · have hdigit : cs.head?.any isAsciiDigit = true := by
        rw [Test.isNumber, String.toList_ofList, between] at hnumber
        rcases cs with _ | ⟨c, cs⟩
        · simp at hnumber
        · revert hnumber
          cases (c :: cs).length - rest.length <;> simp
      obtain ⟨piece, rfl, hpiece⟩ := inLine_number hend hdigit
      rw [between_append, cutText, String.toList_ofList, cutMargin_line hpiece]
  all_goals exact ⟨.single rfl rfl fun _ ↦ rfl, rfl, hline.suffix⟩

private theorem startsComment_of_docComment? {found : List Char × Bool × List Char}
    (h : docComment? cs = some found) : startsComment cs = true := by
  unfold docComment? at h
  split at h
  case h_5 => cases h
  all_goals rfl

/-- A comment starts no tree. -/
theorem no_tree_of_startsComment {c : Char} (h : startsComment (c :: cs) = true) :
    opens? c = none ∧ closes? c = none ∧ leaf? (c :: cs) = none := by
  unfold startsComment at h
  split at h
  next heq =>
    cases heq
    exact ⟨rfl, rfl, rfl⟩
  next heq =>
    cases heq
    exact ⟨rfl, rfl, rfl⟩
  next => cases h

/-! ### How the trees of a text go on -/

section

variable {fuel : Nat} {stack : List (Delimiter × List Token)} {c : Char} {d : Delimiter}

private theorem trees_ended (hnext : skipBlanks (cs.length + 1) cs = [])
    (h : trees (fuel + 1) stack done cs = some ts) : stack = [] ∧ ts = done.reverse := by
  unfold trees at h
  rw [hnext] at h
  cases stack with
  | nil =>
    cases h
    exact ⟨rfl, rfl⟩
  | cons _ _ => cases h

variable (hnext : skipBlanks (cs.length + 1) cs = c :: rest)
include hnext

/-- A documentation comment without a bare return is read as its tokens; one with such a return
is no token either. -/
theorem trees_comment {text after : List Char} {inner : Bool}
    (hcomment : docComment? (c :: rest) = some (text, inner, after))
    (h : trees (fuel + 1) stack done cs = some ts) :
    trees fuel stack (docTokens text inner ++ done) after = some ts := by
  unfold trees at h
  simp only [hnext, hcomment] at h
  cases hreturn : hasBareReturn text with
  | true =>
    obtain ⟨hopens, hcloses, hleaf⟩ :=
      no_tree_of_startsComment (startsComment_of_docComment? hcomment)
    simp [Option.filter, hreturn, hopens, hcloses, hleaf] at h
  | false => simpa [Option.filter, hreturn] using h

variable (hcomment : docComment? (c :: rest) = none)
include hcomment

private theorem trees_opened (hopens : opens? c = some d)
    (h : trees (fuel + 1) stack done cs = some ts) :
    trees fuel ((d, done) :: stack) [] rest = some ts := by
  unfold trees at h
  simpa only [hnext, hcomment, Option.filter_none, hopens] using h

private theorem trees_closed (hopens : opens? c = none) (hcloses : closes? c = some d)
    (h : trees (fuel + 1) stack done cs = some ts) : ∃ outer below, stack = (d, outer) :: below ∧
      trees fuel below (.group d done.reverse :: outer) rest = some ts := by
  unfold trees at h
  simp only [hnext, hcomment, Option.filter_none, hopens, hcloses] at h
  rcases stack with _ | ⟨⟨opened, outer⟩, below⟩
  · cases h
  · obtain ⟨rfl, h⟩ := Option.ite_none_right_eq_some.1 h
    exact ⟨outer, below, rfl, h⟩

private theorem trees_token (hopens : opens? c = none) (hcloses : closes? c = none)
    (h : trees (fuel + 1) stack done cs = some ts) : ∃ t after,
      leaf? (c :: rest) = some (t, after) ∧ trees fuel stack (t :: done) after = some ts := by
  unfold trees at h
  simp only [hnext, hcomment, Option.filter_none, hopens, hcloses] at h
  split at h
  next t after hleaf => exact ⟨t, after, hleaf, h⟩
  next => cases h

end

/-! ### Twins -/

/-- The groups that are still open, with what came before each of them. -/
inductive StackTwins (m : List Char) :
    List (Delimiter × List Token) → List (Delimiter × List Token) → Prop
  | nil : StackTwins m [] []
  | cons {d : Delimiter} {ts ts' : List Token} {stack stack' : List (Delimiter × List Token)}
    (hts : Twins m ts ts') (hstack : StackTwins m stack stack') :
    StackTwins m ((d, ts) :: stack) ((d, ts') :: stack')

/-- The trees of twin texts are twins. -/
theorem trees_twins {fuel fuel' : Nat} {stack stack' : List (Delimiter × List Token)}
    (h : Indented m cs) (hstack : StackTwins m stack stack') (hdone : Twins m done done')
    (hts : trees fuel stack done cs = some ts)
    (hcut : trees fuel' stack' done' (cutMargin m cs) = some ts') : Twins m ts ts' := by
  induction fuel generalizing fuel' cs stack stack' done done' with
  | zero => cases hts
  | succ fuel ih =>
    obtain _ | fuel' := fuel'
    · cases hcut
    have hskip := skipBlanks_cut h (Nat.lt_succ_self _) (Nat.lt_succ_self _)
    have hindented := h.of_suffix (skipBlanks_suffix (cs.length + 1) cs)
    cases hnext : skipBlanks (cs.length + 1) cs with
    | nil =>
      rw [hnext] at hskip
      obtain ⟨-, rfl⟩ := trees_ended hnext hts
      obtain ⟨-, rfl⟩ := trees_ended hskip hcut
      exact hdone.reverse
    | cons c rest =>
      -- Behind blanks both texts go on with the same character.
      have hc : c ≠ '\n' := by
        rintro rfl
        have hvisible := skipBlanks_head (Nat.lt_succ_self _) (by rw [hnext]; rfl)
        exact absurd hvisible (by decide)
      rw [hnext] at hskip hindented
      have hrest := hindented.of_cons
      have hdoc := docComment?_cut hindented
      rw [cutMargin_cons hc] at hskip hdoc
      cases hcomment : docComment? (c :: rest) with
      | some found =>
        obtain ⟨text, inner, after⟩ := found
        rw [hcomment, Option.map_some] at hdoc
        exact ih (hindented.of_suffix (docComment?_suffix hcomment)) hstack
          ((Twins.doc text inner).append hdone) (trees_comment hnext hcomment hts)
          (trees_comment hskip hdoc hcut)
      | none =>
        rw [hcomment, Option.map_none] at hdoc
        cases hopens : opens? c with
        | some d =>
          exact ih hrest (.cons hdone hstack) .nil (trees_opened hnext hcomment hopens hts)
            (trees_opened hskip hdoc hopens hcut)
        | none =>
          cases hcloses : closes? c with
          | some d =>
            obtain ⟨outer, below, rfl, hmore⟩ := trees_closed hnext hcomment hopens hcloses hts
            obtain ⟨outer', below', rfl, hmoreCut⟩ := trees_closed hskip hdoc hopens hcloses hcut
            cases hstack with
            | cons houter hbelow =>
              exact ih hrest hbelow ((hdone.reverse.group d).append houter) hmore hmoreCut
          | none =>
            obtain ⟨t, after, hleaf, hmore⟩ := trees_token hnext hcomment hopens hcloses hts
            obtain ⟨t', after', hleaf', hmoreCut⟩ := trees_token hskip hdoc hopens hcloses hcut
            rw [← cutMargin_cons hc] at hleaf'
            obtain ⟨htwins, rfl, hsuffix⟩ := leaf?_twins hindented hleaf hleaf'
            exact ih (hindented.of_suffix hsuffix) hstack (htwins.append hdone) hmore hmoreCut

/-! ### Starts of texts -/

/-- A line feed in front of a text makes no difference. -/
theorem trees_newline (fuel : Nat) (stack : List (Delimiter × List Token)) (done : List Token)
    (cs : List Char) : trees fuel stack done ('\n' :: cs) = trees fuel stack done cs := by
  cases fuel with
  | zero => rfl
  | succ fuel =>
    have hskip : skipBlanks (('\n' :: cs).length + 1) ('\n' :: cs) =
        skipBlanks (cs.length + 1) cs := rfl
    rw [trees, trees, hskip]

/-- Where nothing starts behind blanks, a text has no trees. -/
theorem trees_eq_none {b : List Char} {c : Char} (hb : isBlankLine b = true)
    (hskip : skipBlanks (cs.length + 2) (c :: cs) = c :: cs) (hdoc : docComment? (c :: cs) = none)
    (hopens : opens? c = none) (hcloses : closes? c = none) (hleaf : leaf? (c :: cs) = none)
    (fuel : Nat) (stack : List (Delimiter × List Token)) (done : List Token) :
    trees fuel stack done (b ++ c :: cs) = none := by
  cases fuel with
  | zero => rfl
  | succ fuel =>
    have hstart : skipBlanks ((b ++ c :: cs).length + 1) (b ++ c :: cs) = c :: cs := by
      rw [List.length_append, Nat.add_assoc, skipBlanks_append hb, List.length_cons, hskip]
    rw [trees, hstart]
    simp only [hdoc, Option.filter_none, hopens, hcloses, hleaf]

/-- A byte-order mark starts no identifier. -/
theorem isIdentStart_mark : isIdentStart '\ufeff' = false := by
  -- The ranges are searched as a list: the kernel is slow to search an array.
  rw [isIdentStart, if_neg (by decide), RangeTable.mem, ← Array.any_toList]
  decide +kernel

/-- A byte-order mark is no token. -/
theorem leaf?_mark (cs : List Char) : leaf? ('\ufeff' :: cs) = none := by
  have hliteral : literalEnd ('\ufeff' :: cs) = none := rfl
  have hbroken : brokenLiteralStarts.any (·.isPrefixOf ('\ufeff' :: cs)) = false := rfl
  have hword : word? ('\ufeff' :: cs) = none := by
    simp [word?, identEnd, isIdentStart_mark]
  rw [leaf?.eq_def, hliteral]
  simp [hbroken, hword, show isPunctuation '\ufeff' = false by decide]

/-- A text with a byte-order mark behind blanks has no trees. -/
theorem trees_mark {b : List Char} (hb : isBlankLine b = true) (fuel : Nat) (cs : List Char) :
    trees fuel [] [] (b ++ '\ufeff' :: cs) = none :=
  trees_eq_none hb rfl rfl rfl rfl (leaf?_mark cs) fuel [] []

end GuestBridge.Host.Scan

namespace GuestBridge.Host

open GuestBridge.Text Scan

/-- Where a text and its dedented form can both be scanned, their tokens are twins. -/
theorem scan_twins {text : String} {ts ts' : List Token} (hts : scan text = some ts)
    (hcut : scan (dedent text) = some ts') :
    Twins (margin (splitLines text.toList)) ts ts' := by
  have h := indented_margin text.toList
  have hdedent := cutMargin_margin text.toList
  rw [scan, dedent, String.toList_ofList] at hcut
  rw [scan] at hts
  generalize margin (splitLines text.toList) = m at h hdedent ⊢
  -- A byte-order mark is visible: nothing is cut in front of it, and it starts no token.
  obtain ⟨b, rest, hrest, hb, hnewline, -⟩ := h.exists_passed
  have hcutRest : dedentChars text.toList = cutMargin m rest := by
    rw [hdedent, List.cons.injEq] at hnewline
    exact hnewline.2
  by_cases hmark : text.toList.head? = some '\ufeff'
  · obtain ⟨cs, hcs⟩ := List.head?_eq_some_iff.1 hmark
    rw [hcs] at hrest
    rcases b with _ | ⟨c, b⟩
    · rw [List.nil_append] at hrest
      rw [← hrest, cutMargin_cons (by decide)] at hcutRest
      rw [hcutRest] at hcut
      rw [hcs] at hts h
      exact trees_twins h.of_cons.of_cons .nil .nil hts hcut
    · cases hrest
      have hvisible : isBlank '\ufeff' = true := List.all_eq_true.1 hb _ List.mem_cons_self
      exact absurd hvisible (by decide)
  · by_cases hmarkCut : (dedentChars text.toList).head? = some '\ufeff'
    · rw [hcutRest, head?_cutMargin] at hmarkCut
      obtain ⟨cs, rfl⟩ := List.head?_eq_some_iff.1 hmarkCut
      rw [if_neg hmark, hrest, trees_mark hb] at hts
      cases hts
    · simp only [hmark, hmarkCut, if_false] at hts hcut
      rw [← trees_newline] at hts hcut
      rw [← hdedent] at hcut
      exact trees_twins h .nil .nil hts hcut

end GuestBridge.Host
