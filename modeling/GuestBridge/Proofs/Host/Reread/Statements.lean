import GuestBridge.Host.Grammar.Item
import GuestBridge.Proofs.Host.Reread.Expressions

/-!
# Reading statements again

What a statement is shows in the trees ahead of it. Readers that look ahead agree on alike trees,
though they do not read them again. The rules for statements read again what they have read.
-/

namespace GuestBridge.Host

set_option synthInstance.maxSize 100000000

namespace Reader

variable {α β : Type} {p : Place} {t : Test} {r r' : Reader α} {κ : α → Reader β}

/-- A test is firm at every place. -/
class Steady (t : Test) : Prop where
  firm (p : Place) : t.Firm .sealed p

instance [t.Firm .sealed .plain] [t.Firm .sealed .typed] [t.Firm .sealed .arguments]
    [t.Firm .sealed .call] : Steady t :=
  ⟨fun p ↦ by cases p <;> assumption⟩

/-- Two results with the same answer, behind which the trees look alike at some place. -/
def Matching (s s' : α × Cursor) : Prop :=
  s.1 = s'.1 ∧ s.2.embedded = s'.2.embedded ∧ ∃ p, Alike .sealed p s.2.rest s'.2.rest

/-- From alike trees, a reader fails twice or gives the same answer. -/
class Agrees (r : Reader α) : Prop where
  rel {p : Place} {xs ys : List Token} (ts ts' : List Token) (es : List Expr) :
    Alike .sealed p xs ys → Option.Rel Matching (r ⟨xs, ts, es⟩) (r ⟨ys, ts', es⟩)

/-- A reader that agrees with itself on alike trees foresees the same. -/
theorem Agrees.foresees (h : Agrees r) : Foresees .sealed p r := by
  refine ⟨fun ts ts' es halike ↦ ?_⟩
  have hrel := h.rel ts ts' es halike
  generalize r ⟨_, ts, es⟩ = o, r ⟨_, ts', es⟩ = o' at hrel ⊢
  cases hrel with
  | none => rfl
  | some hmatching => simp [hmatching.1]

namespace Agrees

instance (a : α) : Agrees (pure a) :=
  ⟨fun _ _ _ halike ↦ .some ⟨rfl, rfl, _, halike⟩⟩

instance : Agrees (failure : Reader α) := ⟨fun _ _ _ _ ↦ .none⟩

instance [h : Agrees r] [hk : ∀ a, Agrees (κ a)] : Agrees (r >>= κ) := by
  refine ⟨fun {p xs ys} ts ts' es halike ↦ ?_⟩
  rw [bind_apply, bind_apply]
  have hrel := h.rel ts ts' es halike
  generalize r ⟨xs, ts, es⟩ = o, r ⟨ys, ts', es⟩ = o' at hrel ⊢
  cases hrel with
  | none => exact .none
  | @some s s' hmatching =>
    obtain ⟨a, xs, ts, es⟩ := s
    obtain ⟨a', ys, ts', es'⟩ := s'
    obtain ⟨rfl, rfl, q, halike⟩ := hmatching
    exact (hk a).rel ts ts' es halike

instance (q : Prop) [Decidable q] {s : Reader α} [Agrees r] [Agrees s] :
    Agrees (if q then r else s) := by
  split <;> infer_instance

instance [Steady t] : Agrees (peek t) :=
  ⟨fun _ _ _ halike ↦ .some ⟨(Steady.firm _).eq halike, rfl, _, halike⟩⟩

instance [Steady t] : Agrees (require t) := by
  refine ⟨fun {p xs ys} ts ts' es halike ↦ ?_⟩
  have ht : t xs = t ys := (Steady.firm p).eq halike
  cases hxs : t xs with
  | true =>
    rw [hxs] at ht
    simpa [require, hxs, ← ht] using Option.Rel.some ⟨rfl, rfl, _, halike⟩
  | false =>
    rw [hxs] at ht
    simp [require, hxs, ← ht]

end Agrees

/-- A test passes no trees that can be written differently. -/
class Solid (t : Test) : Prop where
  group (d : Delimiter) (is ts : List Token) : t (.group d is :: ts) = false
  punct {c : Char} {joint : Bool} {ts : List Token} : t (.punct c joint :: ts) = true →
    c ≠ ':' ∧ c ≠ '<'

private theorem alike_of_solid [Solid t] {token : Token} {xs ys : List Token}
    (h : Alike .sealed p (token :: xs) ys) (ht : t (token :: xs) = true) :
    ∃ ys', ys = token :: ys' ∧ ∃ q, Alike .sealed q xs ys' := by
  cases h with
  | edge he => cases he.1
  | same _ hrest => exact ⟨_, rfl, _, hrest⟩
  | group _ _ =>
    rw [Solid.group (t := t)] at ht
    cases ht
  | word _ hrest => exact ⟨_, rfl, _, hrest⟩
  | callee _ _ hrest => exact ⟨_, rfl, _, hrest⟩
  | angles => exact absurd rfl (Solid.punct ht).2
  | turbofish => exact absurd rfl (Solid.punct ht).1
  | parens => exact absurd rfl (Solid.punct ht).1

instance [Steady t] [t.Local] [Solid t] : Agrees (takeIf t) := by
  refine ⟨fun {p xs ys} ts ts' es halike ↦ ?_⟩
  have ht : t xs = t ys := (Steady.firm p).eq halike
  cases hxs : t xs with
  | true =>
    rw [hxs] at ht
    rcases xs with _ | ⟨token, xs⟩
    · cases ys with
      | nil => exact .none
      | cons _ _ => cases halike with | edge he => cases he.2
    · obtain ⟨ys, rfl, q, hrest⟩ := alike_of_solid halike hxs
      simpa [takeIf, hxs, ← ht] using Option.Rel.some ⟨rfl, rfl, q, hrest⟩
  | false =>
    have hfails (zs us : List Token) (hzs : t zs = false) : takeIf t ⟨zs, us, es⟩ = none := by
      cases zs <;> simp [takeIf, hzs]
    rw [hxs] at ht
    rw [hfails _ _ hxs, hfails _ _ ht.symm]
    exact .none

instance (w : String) : Solid (Test.word w) := ⟨fun _ _ _ ↦ rfl, nofun⟩
instance : Solid Test.lifetime := ⟨fun _ _ _ ↦ rfl, nofun⟩
instance : Solid Test.string := ⟨fun _ _ _ ↦ rfl, nofun⟩

instance (w : String) : Agrees (word w) := by
  unfold word
  infer_instance

instance : Agrees lifetime := by
  unfold lifetime
  infer_instance

/-- A question is answered by its test and by what it asks for. -/
theorem Decides.apply {q : Reader β} {r : Reader Bool} (h : Decides t q r) (c : Cursor) :
    r c = if t c.rest then (q c).map fun s ↦ (true, s.2) else some (false, c) := by
  cases ht : t c.rest with
  | false => rw [if_neg nofun, h.neg.2 ⟨rfl, ht⟩]
  | true =>
    rw [if_pos rfl]
    refine Option.ext fun ⟨answer, c'⟩ ↦ ?_
    cases answer with
    | false =>
      simp only [h.neg, ht]
      simp
    | true =>
      simp only [h.pos, Option.map_eq_some_iff]
      simp

/-- A question is answered alike if what it asks for is read alike. -/
theorem Decides.agrees {q : Reader β} {r : Reader Bool} (h : Decides t q r) [Steady t]
    [hq : Agrees q] : Agrees r := by
  refine ⟨fun {p xs ys} ts ts' es halike ↦ ?_⟩
  have ht : t xs = t ys := (Steady.firm p).eq halike
  have hrel := hq.rel ts ts' es halike
  rw [h.apply, h.apply, ← ht]
  split
  · generalize q ⟨xs, ts, es⟩ = o, q ⟨ys, ts', es⟩ = o' at hrel ⊢
    cases hrel with
    | none => exact .none
    | some hmatching => exact .some ⟨rfl, hmatching.2⟩
  · exact .some ⟨rfl, rfl, _, halike⟩

instance (w : String) : Agrees (word? w) := (Decides.word? w).agrees
instance : Agrees lifetime? := Decides.lifetime?.agrees

instance (allowed : Bool) {question : Reader Bool} [Agrees question] :
    Agrees (askIf allowed question) := by
  unfold askIf
  infer_instance

end Reader

namespace Grammar

open Reader

variable {g g' : Grammar} {n m : Nat} {A p : Place} {xs ys : List Token}

instance : Agrees abi? := by
  unfold abi? abi
  infer_instance

instance (foreign : Bool) : Foresees .sealed p (signatureAhead foreign) := by
  refine Agrees.foresees ?_
  unfold signatureAhead
  infer_instance

/-! ### Paths in front of an exclamation mark -/

/-- A word of a simple path. -/
def isSegment (w : String) : Bool :=
  !Test.keywords.contains w || ["super", "self", "Self", "crate"].contains w

/-- The trees behind further words of a simple path, each behind double colons. -/
def behindWords : List Token → Option (List Token)
  | .punct ':' true :: .punct ':' _ :: .word w :: ts =>
    if isSegment w then behindWords ts else none
  | .punct ':' true :: .punct ':' _ :: _ => none
  | ts => some ts

/-- The trees behind a simple path without double colons in front. -/
def behindUnrooted : List Token → Option (List Token)
  | .word w :: ts => if isSegment w then behindWords ts else none
  | _ => none

/-- The trees behind a simple path. -/
def behindPath (ts : List Token) : Option (List Token) :=
  if Test.punct "::" ts then behindUnrooted (ts.drop 2) else behindUnrooted ts

/-- The kind of statement that a path and an exclamation mark start. -/
def bangStart (ts : List Token) : PathStart :=
  if Test.second (Test.or Test.ident (Test.word "try")) ts then .definition
  else if Test.butNot (Test.second Test.brace) (Test.third
    (Test.or (Test.butNot (Test.punct ".") (Test.punct "..")) (Test.punct "?"))) ts then .braced
  else .other

private theorem colons_cons (joint : Bool) (ts : List Token) :
    Test.punct "::" (.punct ':' true :: .punct ':' joint :: ts) = true := by
  simp [Test.punct, Test.punctChars]

private theorem punct_colons (joint : Bool) (xs ts : List Token) (es : List Expr) :
    punct "::" ⟨.punct ':' true :: .punct ':' joint :: xs, ts, es⟩ =
      some ((), ⟨xs, .punct ':' joint :: .punct ':' true :: ts, es⟩) := by
  have hmarks : Marks "::".toList [.punct ':' true, .punct ':' joint] := by
    simpa using .cons .single
  exact punct_append hmarks xs ts es

private theorem segment_word (w : String) (xs ts : List Token) (es : List Expr) :
    simplePath.segment ⟨.word w :: xs, ts, es⟩ =
      if isSegment w then some (w, ⟨xs, .word w :: ts, es⟩) else none := by
  have htest : Test.or Test.ident (Test.oneOf ["super", "self", "Self", "crate"]) (.word w :: xs) =
      isSegment w := rfl
  cases hw : isSegment w <;>
    simp [simplePath.segment, require, htest, hw, anyWord, takeIf, Test.anyWord]

private theorem segment_eq_none {c : Cursor} (hc : Test.anyWord c.rest = false) :
    simplePath.segment c = none := by
  obtain ⟨_ | ⟨_ | _ | _ | _ | _, xs⟩, ts, es⟩ := c
  case cons.word => cases hc
  all_goals rfl

private theorem colons_eq_false {xs : List Token}
    (h : ∀ joint ys, xs = .punct ':' true :: .punct ':' joint :: ys → False) :
    Test.punct "::" xs = false := by
  rw [Bool.eq_false_iff]
  intro hcolons
  obtain ⟨joint, ys, rfl⟩ := colons_eq_true hcolons
  exact h joint ys rfl

private theorem whileTest_words {fuel : Nat} {c : Cursor} (h : c.rest.length < fuel) :
    (whileTest (Test.punct "::") (do punct "::"; simplePath.segment) fuel c).map (·.2.rest) =
      behindWords c.rest := by
  induction fuel generalizing c with
  | zero => exact absurd h (Nat.not_lt_zero _)
  | succ fuel ih =>
    obtain ⟨xs, ts, es⟩ := c
    fun_cases behindWords xs with
    | case1 joint w xs hw =>
      have hrest := ih (c := ⟨xs, .word w :: .punct ':' joint :: .punct ':' true :: ts, es⟩)
        (by simp only [List.length_cons] at h ⊢; omega)
      rw [← hrest]
      simp only [whileTest, bind_apply, peek_apply, colons_cons, Option.bind_some, if_true,
        punct_colons, segment_word, hw, Option.map_eq_bind, Option.bind_assoc]
      rfl
    | case2 joint w xs hw =>
      simp [whileTest, peek, colons_cons, punct_colons, segment_word, hw]
    | case3 joint xs hxs =>
      have hword : Test.anyWord xs = false := by
        rcases xs with _ | ⟨w | _ | _ | _ | _, xs⟩
        case cons.word => exact absurd rfl (hxs w xs)
        all_goals rfl
      have hnone := segment_eq_none (c := ⟨xs, .punct ':' joint :: .punct ':' true :: ts, es⟩) hword
      simp [whileTest, peek, colons_cons, punct_colons, hnone]
    | case4 _ _ hother =>
      have hnot : Test.punct "::" xs = false := colons_eq_false hother
      simp [whileTest, peek, hnot]

private theorem behindUnrooted_eq (c : Cursor) :
    ((do
      let first ← simplePath.segment
      let more ← repeatWhile (Test.punct "::") do
        punct "::"
        simplePath.segment
      return (first, more) : Reader (String × List String)) c).map (·.2.rest) =
      behindUnrooted c.rest := by
  obtain ⟨_ | ⟨w | _ | _ | _ | _, xs⟩, ts, es⟩ := c
  case cons.word =>
    have hlength : xs.length < Token.sizeAll xs + 1 :=
      Nat.lt_succ_of_le (Token.length_le_sizeAll xs)
    have hwords := whileTest_words (c := ⟨xs, .word w :: ts, es⟩) hlength
    cases hw : isSegment w with
    | true =>
      rw [bind_apply, segment_word, if_pos hw]
      simp only [Option.bind_some, bind_apply, behindUnrooted, hw, if_true, repeatWhile,
        bounded_apply]
      rw [← hwords, Option.map_eq_bind, Option.map_eq_bind, Option.bind_assoc]
      rfl
    | false => simp [segment_word, behindUnrooted, hw]
  all_goals rfl

private theorem behindPath_eq (c : Cursor) : (simplePath c).map (·.2.rest) = behindPath c.rest := by
  obtain ⟨xs, ts, es⟩ := c
  have hsimple : (simplePath ⟨xs, ts, es⟩).map (·.2.rest) =
      (punct? "::" ⟨xs, ts, es⟩).bind fun s ↦ behindUnrooted s.2.rest := by
    simp only [← behindUnrooted_eq]
    simp only [simplePath, bind_apply, Option.map_eq_bind, Option.bind_assoc]
    rfl
  rw [hsimple, behindPath]
  cases hcolons : Test.punct "::" xs with
  | true =>
    obtain ⟨joint, xs, rfl⟩ := colons_eq_true hcolons
    rw [((Decides.punct? "::").pos (c := ⟨_, ts, es⟩)).2 ⟨(), punct_colons joint xs ts es⟩]
    rfl
  | false =>
    rw [((Decides.punct? "::").neg (c := ⟨_, ts, es⟩)).2 ⟨rfl, hcolons⟩]
    rfl

/-- A path in front of an exclamation mark decides how a statement starts. -/
theorem pathStart_eq (c : Cursor) : (pathStart c).map Prod.fst =
    ((behindPath c.rest).filter (Test.punct "!")).map bangStart := by
  rw [← behindPath_eq]
  cases hpath : simplePath c with
  | none => simp [pathStart, hpath]
  | some s =>
    obtain ⟨_, c⟩ := s
    cases hbang : Test.punct "!" c.rest with
    | false => simp [pathStart, hpath, require, hbang, Option.filter_some_neg hbang]
    | true =>
      simp only [pathStart, bind_apply, hpath, Option.bind_some, Option.map_some, require, hbang,
        Option.filter_some_pos hbang, if_true, peek_apply, bangStart]
      split
      · rfl
      · simp only [bind_apply, peek_apply, Option.bind_some]
        split <;> rfl

private theorem behindWords_self (h : Test.punct "::" xs = false) : behindWords xs = some xs := by
  fun_cases behindWords xs with
  | case1 | case2 | case3 => simp [colons_cons] at h
  | case4 => rfl

private theorem behindWords_colons (joint : Bool) (xs : List Token) :
    behindWords (.punct ':' true :: .punct ':' joint :: xs) = behindUnrooted xs := by
  rcases xs with _ | ⟨_ | _ | _ | _ | _, xs⟩ <;> rfl

/-- Trees behind which an exclamation mark stands, if any. -/
def bangBehind (ts : Option (List Token)) : Option (List Token) :=
  ts.filter (Test.punct "!")

private theorem bangBehind_none_of (h : Test.punct "!" xs = false) : bangBehind (some xs) = none :=
  Option.filter_some_neg h

private theorem bangBehind_behindWords (hcolons : Test.punct "::" xs = false)
    (hbang : Test.punct "!" xs = false) : bangBehind (behindWords xs) = none := by
  rw [behindWords_self hcolons, bangBehind_none_of hbang]

private theorem rel_self (h : Alike .sealed .typed xs ys) :
    Option.Rel (Alike .sealed .typed) (bangBehind (some xs)) (bangBehind (some ys)) := by
  have hbang := Test.Firm.eq (t := Test.punct "!") h
  cases hxs : Test.punct "!" xs with
  | false =>
    rw [bangBehind_none_of hxs, bangBehind_none_of (hbang.symm.trans hxs)]
    exact .none
  | true =>
    rw [bangBehind, bangBehind, Option.filter_some_pos hxs,
      Option.filter_some_pos (hbang.symm.trans hxs)]
    exact .some h

/-- The words of a path look the same, and so does what comes behind them if it is an exclamation
mark. -/
theorem rel_behindUnrooted [p.Hard] (h : Alike .sealed p xs ys)
    (hwords : ∀ {q xs' ys'}, q ≠ .plain → xs'.length < xs.length → Alike .sealed q xs' ys' →
      Option.Rel (Alike .sealed .typed) (bangBehind (behindWords xs'))
        (bangBehind (behindWords ys'))) :
    Option.Rel (Alike .sealed .typed) (bangBehind (behindUnrooted xs))
      (bangBehind (behindUnrooted ys)) := by
  have hword {q : Place} {w : String} {xs' ys' : List Token} (hq : q ≠ .plain)
      (hlength : xs'.length < xs.length) (hrest : Alike .sealed q xs' ys') :
      Option.Rel (Alike .sealed .typed) (bangBehind (behindUnrooted (.word w :: xs')))
        (bangBehind (behindUnrooted (.word w :: ys'))) := by
    cases hw : isSegment w with
    | true => simpa [behindUnrooted, hw] using hwords hq hlength hrest
    | false =>
      simp only [behindUnrooted, hw]
      exact .none
  cases h with
  | edge he =>
    obtain ⟨rfl, rfl⟩ := he
    exact .none
  | @same _ _ t _ _ _ hrest =>
    cases t with
    | word w => exact hword (q := .typed) (by decide) (Nat.lt_succ_self _) hrest
    | _ => exact .none
  | group _ _ => exact .none
  | word _ hrest => exact hword (q := .arguments) (by decide) (Nat.lt_succ_self _) hrest
  | callee _ _ hrest => exact hword (q := .call) (by decide) (Nat.lt_succ_self _) hrest
  | angles => exact .none
  | turbofish => exact .none
  | parens => exact .none

private theorem rel_behindWords (hp : p ≠ .plain) (h : Alike .sealed p xs ys) :
    Option.Rel (Alike .sealed .typed) (bangBehind (behindWords xs))
      (bangBehind (behindWords ys)) := by
  induction hn : xs.length using Nat.strongRecOn generalizing p xs ys with
  | ind n ih =>
    have htyped (halike : Alike .sealed .typed xs ys) : Option.Rel (Alike .sealed .typed)
        (bangBehind (behindWords xs)) (bangBehind (behindWords ys)) := by
      have hsame := Test.Firm.eq (t := Test.punct "::") halike
      cases hcolons : Test.punct "::" xs with
      | false =>
        rw [behindWords_self hcolons, behindWords_self (hsame.symm.trans hcolons)]
        exact rel_self halike
      | true =>
        obtain ⟨joint, xs, ys, rfl, rfl, hrest⟩ := Test.colons_cases halike hcolons
        rw [behindWords_colons, behindWords_colons]
        refine rel_behindUnrooted hrest fun hq hlength halike' ↦ ih _ ?_ hq halike' rfl
        simp only [List.length_cons] at hn
        omega
    cases p with
    | plain => exact absurd rfl hp
    | typed => exact htyped h
    | arguments =>
      obtain ⟨_, _, _, rfl, rfl⟩ | ⟨_, _, _, _, rfl, rfl⟩ | h := h.arguments_cases
      · rw [bangBehind_behindWords (by simp [Test.punct, Test.punctChars])
          (by simp [Test.punct, Test.punctChars]), bangBehind_behindWords
          (by simp [Test.punct, Test.punctChars]) (by simp [Test.punct, Test.punctChars])]
        exact .none
      · exact .none
      · exact htyped h
    | call =>
      obtain ⟨_, _, _, _, _, rfl, rfl⟩ | h := h.call_cases
      · rw [behindWords_colons, bangBehind_behindWords (by simp [Test.punct, Test.punctChars])
          (by simp [Test.punct, Test.punctChars])]
        exact .none
      · exact htyped h

private theorem rel_behindPath (h : Alike .sealed .plain xs ys) :
    Option.Rel (Alike .sealed .typed) (bangBehind (behindPath xs))
      (bangBehind (behindPath ys)) := by
  have hsame := Test.Firm.eq (t := Test.punct "::") h
  unfold behindPath
  rw [← hsame]
  split
  next hcolons =>
    obtain ⟨joint, xs, ys, rfl, rfl, hrest⟩ := Test.colons_cases h hcolons
    exact rel_behindUnrooted hrest fun hq _ ↦ rel_behindWords hq
  next => exact rel_behindUnrooted h fun hq _ ↦ rel_behindWords hq

instance : Test.Unworded (Test.punct "!") := inferInstance

private theorem bangStart_eq (h : Alike .sealed .typed xs ys) (hxs : Test.punct "!" xs = true) :
    bangStart xs = bangStart ys := by
  have hdefinition := Test.Follows.eq (s := Test.punct "!")
    (t := Test.or Test.ident (Test.word "try")) h hxs
  have hbraced := Test.Follows.eq (s := Test.punct "!") (t := Test.butNot Test.brace
    (Test.second (Test.or (Test.butNot (Test.punct ".") (Test.punct "..")) (Test.punct "?")))) h hxs
  simp only [bangStart, Test.third_eq, Test.butNot_second, hdefinition, hbraced]

instance : Foresees .sealed .plain pathStart := by
  refine ⟨fun {xs ys} ts ts' es h ↦ ?_⟩
  have hrel := rel_behindPath h
  rw [pathStart_eq, pathStart_eq]
  change ((bangBehind (behindPath xs)).map bangStart) = (bangBehind (behindPath ys)).map bangStart
  cases hxs : bangBehind (behindPath xs) with
  | none =>
    rw [hxs] at hrel
    cases hys : bangBehind (behindPath ys) with
    | none => rfl
    | some zs =>
      rw [hys] at hrel
      cases hrel
  | some zs =>
    have hbang : Test.punct "!" zs = true := (Option.filter_eq_some_iff.1 hxs).2
    rw [hxs] at hrel
    cases hys : bangBehind (behindPath ys) with
    | none =>
      rw [hys] at hrel
      cases hrel
    | some us =>
      rw [hys] at hrel
      cases hrel with
      | some halike => rw [Option.map_some, Option.map_some, bangStart_eq halike hbang]

section

variable [g.Productive] [hg : Rereading g g' n]

instance [Under n m] : Rereads .sealed m .typed .typed g.bindingValue g'.bindingValue := by
  refine .under (n := n) (.lazily (B := .typed) inferInstance ?_)
  rintro ⟨value, tokens⟩
  infer_instance

instance [Under (n + 1) m] : Rereads .sealed m A .typed g.bindingStmt g'.bindingStmt := by
  refine .under (n := n + 1) (.eagerly (B := .typed) inferInstance ?_)
  rintro ⟨parts, found⟩
  infer_instance

instance : Eager g.bindingStmt := by
  unfold bindingStmt
  infer_instance

instance : startsItem.Firm .sealed .plain := by
  have hconst : (Test.butNot (Test.word "const") (Test.any
      [Test.second (Test.or Test.brace (Test.or (Test.oneOf ["static", "move"]) (Test.punct "|"))),
       Test.butNot (Test.second (Test.word "async"))
        (Test.third (Test.oneOf ["unsafe", "extern", "fn"]))])).Firm .sealed .plain := by
    rw [Test.third_eq]
    exact (inferInstance : (Test.butNot (Test.word "const") (Test.second (Test.any
      [Test.or Test.brace (Test.or (Test.oneOf ["static", "move"]) (Test.punct "|")),
       Test.butNot (Test.word "async")
        (Test.second (Test.oneOf ["unsafe", "extern", "fn"]))]))).Firm .sealed .plain)
  unfold startsItem
  infer_instance

/-- A statement is read again if its expression or item is. -/
theorem stmt_rereads [Under (n + 1) m]
    (hearly : Rereads .sealed m .plain .typed g.early g'.early)
    (hitem : Rereads .sealed m .plain .typed g.item g'.item) :
    Rereads .sealed m .plain .typed g.stmt g'.stmt := by
  have hexpr (values : List Expr) :
      Rereads .sealed m .plain .typed (g.exprStmt values) (g'.exprStmt values) := by
    unfold exprStmt
    infer_instance
  have hdefinition : Rereads .sealed m .plain .typed
      (do
        let item ← collect (capture g.item)
        return Stmt.item item.1.2)
      (do
        let item ← collect (capture g'.item)
        return Stmt.item item.1.2) := .lazily (B := .typed) inferInstance inferInstance
  refine .lazily (B := .plain) inferInstance ?_
  rintro ⟨_, values⟩
  infer_instance

instance : Eager g.stmt := by
  unfold stmt exprStmt
  infer_instance

/-- Statements are read again if their expressions and items are. -/
theorem statementsRule_rereads
    (hearly : Rereads .sealed (n + 1) .plain .typed g.early g'.early)
    (hitem : Rereads .sealed (n + 1) .plain .typed g.item g'.item) :
    Rereads .sealed (n + 1) .typed .typed g.statementsRule g'.statementsRule := by
  refine .repetition (fun _ ↦ rfl) fun m k hk hm _ fuel fuel' ih ↦ ?_
  have hunder : Under (n + 1) m := ⟨hm⟩
  have hstmt : Rereads .sealed m .typed .typed g.stmt g'.stmt :=
    (stmt_rereads (n := n) (hearly.mono hm) (hitem.mono hm)).of_start
  unfold statementList
  infer_instance

end

end Grammar

end GuestBridge.Host
