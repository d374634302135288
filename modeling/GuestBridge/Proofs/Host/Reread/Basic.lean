import GuestBridge.Proofs.Host.Grammar.Literals
import GuestBridge.Proofs.Host.Reread.Readers

/-!
# Reading attributes again

One grammar reads again what another one has read if each of its readers does. The rules for
literals, attributes, visibility and blocks keep this.
-/

namespace GuestBridge.Host

set_option synthInstance.maxSize 1024
set_option synthInstance.maxHeartbeats 200000

open Reader (Rereads Eager Under Below RereadsAs)

/-- What the readers of one grammar read in less than the given number of trees, those of the
other one read again. -/
class Grammar.Rereading (g g' : Grammar) (n : outParam Nat) : Prop where
  type (E : Edges) [E.Closing] (plus : Bool) :
    Rereads E n .typed .typed (g.type plus) (g'.type plus)
  bound (E : Edges) [E.Closing] (capturing constant : Bool) :
    Rereads E n .typed .typed (g.bound capturing constant) (g'.bound capturing constant)
  pattern : Rereads .sealed n .plain .typed g.pattern g'.pattern
  expr (records : Bool) : Rereads .sealed n .plain .typed (g.expr records) (g'.expr records)
  unary (records : Bool) : Rereads .sealed n .plain .typed (g.unary records) (g'.unary records)
  operators (records : Bool) (base : Nat) (left : Expr) : Rereads .sealed n .typed .typed
    (g.operators records base left) (g'.operators records base left)
  early : Rereads .sealed n .plain .typed g.early g'.early
  statements : Rereads .sealed n .typed .typed g.statements g'.statements
  item : Rereads .sealed n .plain .typed g.item g'.item
  useTree (rooted : Bool) :
    Rereads .sealed n .plain .typed (g.useTree rooted) (g'.useTree rooted)

/-- The readers of a grammar read something whenever they answer; operators and statements may be
absent. -/
class Grammar.Productive (g : Grammar) : Prop where
  type (plus : Bool) : Eager (g.type plus)
  bound (capturing constant : Bool) : Eager (g.bound capturing constant)
  pattern : Eager g.pattern
  expr (records : Bool) : Eager (g.expr records)
  unary (records : Bool) : Eager (g.unary records)
  early : Eager g.early
  item : Eager g.item
  useTree (rooted : Bool) : Eager (g.useTree rooted)
  /-- Conditions do not start with a bound. -/
  where_ (capturing constant : Bool) {c : Cursor} :
    Test.word "where" c.rest = true → g.bound capturing constant c = none

namespace Grammar

open Reader

variable {E : Edges} {g g' : Grammar} {n m : Nat} {A p : Place}

section

variable [g.Productive]

instance (plus : Bool) : Eager (g.type plus) := Productive.type plus
instance (capturing constant : Bool) : Eager (g.bound capturing constant) :=
  Productive.bound capturing constant
instance : Eager g.pattern := Productive.pattern
instance (records : Bool) : Eager (g.expr records) := Productive.expr records
instance (records : Bool) : Eager (g.unary records) := Productive.unary records
instance : Eager g.early := Productive.early
instance : Eager g.item := Productive.item
instance (rooted : Bool) : Eager (g.useTree rooted) := Productive.useTree rooted

end

/-- A grammar that reads again up to a size does so up to every smaller one. -/
theorem Rereading.mono (h : Rereading g g' n) (hm : m ≤ n) : Rereading g g' m where
  type E _ plus := (h.type E plus).mono hm
  bound E _ capturing constant := (h.bound E capturing constant).mono hm
  pattern := h.pattern.mono hm
  expr records := (h.expr records).mono hm
  unary records := (h.unary records).mono hm
  operators records base left := (h.operators records base left).mono hm
  early := h.early.mono hm
  statements := h.statements.mono hm
  item := h.item.mono hm
  useTree rooted := (h.useTree rooted).mono hm

section

variable [h : Rereading g g' n] [Under n m]

instance [E.Closing] (plus : Bool) : Rereads E m .typed .typed (g.type plus) (g'.type plus) :=
  (h.type E plus).under
instance [E.Closing] (capturing constant : Bool) :
    Rereads E m .typed .typed (g.bound capturing constant) (g'.bound capturing constant) :=
  (h.bound E capturing constant).under
instance : Rereads .sealed m A .typed g.pattern g'.pattern := h.pattern.under.of_start
instance (records : Bool) : Rereads .sealed m A .typed (g.expr records) (g'.expr records) :=
  (h.expr records).under.of_start
instance (records : Bool) : Rereads .sealed m A .typed (g.unary records) (g'.unary records) :=
  (h.unary records).under.of_start
instance (records : Bool) (base : Nat) (left : Expr) : Rereads .sealed m .typed .typed
    (g.operators records base left) (g'.operators records base left) :=
  (h.operators records base left).under
instance : Rereads .sealed m A .typed g.early g'.early := h.early.under.of_start
instance : Rereads .sealed m .typed .typed g.statements g'.statements := h.statements.under
instance : Rereads .sealed m A .typed g.item g'.item := h.item.under.of_start
instance (rooted : Bool) : Rereads .sealed m A .typed (g.useTree rooted) (g'.useTree rooted) :=
  (h.useTree rooted).under.of_start

end

/-! ### Literals -/

/-- A literal is one tree, or a number behind its sign. -/
theorem literal_eq_some {c c' : Cursor} {e : Expr} (h : literal c = some (e, c')) :
    ∃ front, c.rest = front ++ c'.rest ∧ c'.taken = front.reverse ++ c.taken ∧
      c'.embedded = c.embedded ∧
      (∀ ys ts es, literal ⟨front ++ ys, ts, es⟩ = some (e, ⟨ys, front.reverse ++ ts, es⟩)) ∧
      ((∃ t, front = [t] ∧ ∀ joint, t ≠ .punct '-' joint) ∨
        ∃ joint text, front = [.punct '-' joint, .literal text]) := by
  obtain ⟨rest, taken, embedded⟩ := c
  have htest : Test.literal rest = true := test_of_literal h
  obtain ⟨text, rest, rfl⟩ | ⟨word, rest, rfl, hword⟩ | ⟨joint, text, rest, rfl, hnumber⟩ :=
    Test.literal_cases htest
  · rw [literal_token] at h
    cases h
    exact ⟨[.literal text], rfl, rfl, rfl, fun _ _ _ ↦ literal_token text,
      .inl ⟨_, rfl, fun _ h ↦ by cases h⟩⟩
  · rw [literal_truth hword] at h
    cases h
    exact ⟨[.word word], rfl, rfl, rfl, fun _ _ _ ↦ literal_truth hword,
      .inl ⟨_, rfl, fun _ h ↦ by cases h⟩⟩
  · rw [literal_negated hnumber] at h
    cases h
    exact ⟨[.punct '-' joint, .literal text], rfl, rfl, rfl,
      fun _ _ _ ↦ literal_negated hnumber joint, .inr ⟨_, _, rfl⟩⟩

instance : Eager literal := by
  refine ⟨fun h ↦ ?_⟩
  obtain ⟨front, hrest, -, -, -, ⟨t, rfl, -⟩ | ⟨_, _, rfl⟩⟩ := literal_eq_some h <;>
  · rw [hrest]
    simp only [List.cons_append, List.nil_append, List.length_cons]
    omega

instance : Rereads E n A .typed literal literal := by
  refine ⟨fun {c c'} e h ↦ ?_⟩
  have hlt := Eager.lt h
  obtain ⟨front, hrest, htaken, hembedded, hrun, hfront⟩ := literal_eq_some h
  refine ⟨front.reverse, htaken, ?_, fun _ ys hys ↦ ?_⟩
  · rw [List.reverse_eq_nil_iff, ← List.length_eq_zero_iff]
    rw [hrest, List.length_append] at hlt ⊢
    omega
  · rw [List.reverse_reverse, hrest, hembedded]
    refine ⟨?_, fun ts ↦ hrun ys ts _⟩
    obtain ⟨t, rfl, ht⟩ | ⟨joint, text, rfl⟩ := hfront
    · exact .same (fun joint hsign ↦ absurd hsign (ht joint)) hys
    · exact .same (fun _ _ c ↦ rfl) (.same nofun hys)

/-! ### Words of types -/

instance : Test.Quiet (Test.word "for") := Test.quiet_word (by decide)
instance : Test.Quiet (Test.word "use") := Test.quiet_word (by decide)
instance : Test.Quiet (Test.word "dyn") := Test.quiet_word (by decide)
instance : Test.Quiet (Test.word "impl") := Test.quiet_word (by decide)
instance : Test.Quiet (Test.word "_") := Test.quiet_word (by decide)
instance : Test.Quiet (Test.word "mut") := Test.quiet_word (by decide)
instance : Test.Quiet (Test.word "Self") := Test.quiet_word (by decide)
instance : Test.Quiet (Test.word "as") := Test.quiet_word (by decide)
instance : Test.Quiet (Test.word "const") := Test.quiet_word (by decide)
instance : Test.Quiet (Test.word "unsafe") := Test.quiet_word (by decide)
instance : Test.Quiet (Test.word "extern") := Test.quiet_word (by decide)
instance : Test.Quiet (Test.word "fn") := Test.quiet_word (by decide)
instance : Test.Quiet (Test.word "self") := Test.quiet_word (by decide)

instance : Test.Quiet (Test.oneOf ["super", "self", "Self", "crate"]) :=
  Test.quiet_oneOf (by decide)
instance : Test.Quiet (Test.oneOf ["fn", "unsafe", "extern", "super", "self", "Self", "crate"]) :=
  Test.quiet_oneOf (by decide)
instance : Test.Quiet (Test.oneOf ["fn", "unsafe", "extern"]) :=
  Test.quiet_oneOf (by decide)
instance : Test.Quiet (Test.oneOf ["super", "self", "crate", "try"]) :=
  Test.quiet_oneOf (by decide)

/-! ### Basic -/

instance [E.Closing] [p.Hard] : Rereads E n p .typed simplePath.segment simplePath.segment := by
  unfold simplePath.segment
  infer_instance

instance : Eager simplePath.segment := by
  unfold simplePath.segment
  infer_instance

instance [E.Closing] [p.Hard] : Rereads E n p .typed simplePath simplePath := by
  unfold simplePath
  infer_instance

instance : Eager simplePath := by
  unfold simplePath
  infer_instance

/-- A group of parentheses around one of the usual scopes comes next. -/
def scopeAhead : Test
  | .group .paren [.word w] :: _ => ["crate", "self", "super"].contains w
  | _ => false

/-- A group of parentheses with a path in it comes next. -/
def pathAhead : Test
  | .group .paren (.word w :: _) :: _ => w = "in"
  | _ => false

private theorem isSome_scope (c : Cursor) : ((group .paren do
    require (Test.oneOf ["crate", "self", "super"])
    skip 1) c).isSome = scopeAhead c.rest := by
  obtain ⟨_ | ⟨_ | _ | _ | _ | ⟨d, trees⟩, rest⟩, taken, embedded⟩ := c
  case cons.group =>
    cases d with
    | paren =>
      rcases trees with _ | ⟨w | _ | _ | _ | _, trees⟩
      case cons.word =>
        cases hw : ["crate", "self", "super"].contains w <;> cases trees <;>
          simp only [group, scopeAhead, require, Test.oneOf, skip, takeIf, bind_apply, hw] <;> rfl
      all_goals rfl
    | _ => rfl
  all_goals rfl

private theorem isSome_pathAhead (c : Cursor) : ((group .paren do
    word "in"
    remainder) c).isSome = pathAhead c.rest := by
  obtain ⟨_ | ⟨_ | _ | _ | _ | ⟨d, trees⟩, rest⟩, taken, embedded⟩ := c
  case cons.group =>
    cases d with
    | paren =>
      rcases trees with _ | ⟨w | _ | _ | _ | _, trees⟩
      case cons.word =>
        by_cases hw : w = "in" <;>
          simp [group, pathAhead, word, takeIf, Test.word, remainder, hw]
      all_goals rfl
    | _ => rfl
  all_goals rfl

/-- A test of what stands between parentheses is firm if it is firm in there. -/
theorem firm_inside {t : Test} (inner : Test) [Test.paren.Absent E] [inner.Firm .sealed .typed]
    (ht : ∀ ts, t ts = match ts with
      | .group .paren trees :: _ => inner trees
      | _ => false) : t.Firm E .typed where
  eq {xs ys} h := by
    rw [ht, ht]
    cases h with
    | edge he =>
      have hxs := Test.Absent.left (t := Test.paren) he
      have hys := Test.Absent.right (t := Test.paren) he
      split <;> split <;> simp_all [Test.paren, Test.group]
    | @same _ _ token xs ys _ _ => rcases token with _ | _ | _ | _ | ⟨_ | _ | _, _⟩ <;> rfl
    | @group _ _ d _ _ _ _ hinner _ =>
      cases d with
      | paren => exact Test.Firm.eq (t := inner) hinner
      | _ => rfl
    | word _ _ => rfl
    | callee _ _ _ => rfl

instance [Test.paren.Absent E] : scopeAhead.Firm E .typed := by
  refine firm_inside (Test.and (Test.oneOf ["crate", "self", "super"])
    (Test.second Test.atEnd)) fun ts ↦ ?_
  rcases ts with _ | ⟨_ | _ | _ | _ | ⟨_ | _ | _, _ | ⟨_ | _ | _ | _ | _, _ | _⟩⟩, _⟩ <;>
    simp [scopeAhead, Test.and, Test.oneOf, Test.second, Test.atEnd]

instance [Test.paren.Absent E] : pathAhead.Firm E .typed := by
  refine firm_inside (Test.word "in") fun ts ↦ ?_
  rcases ts with _ | ⟨_ | _ | _ | _ | ⟨_ | _ | _, _ | ⟨_ | _ | _ | _ | _, _⟩⟩, _⟩ <;> rfl

instance [(Test.word "pub").Firm E p] [Test.paren.Absent E] :
    Asks E n p visibility visibility := by
  unfold visibility
  have hscope : Foresees E .typed (group .paren do
      require (Test.oneOf ["crate", "self", "super"])
      skip 1) := .of_test scopeAhead isSome_scope
  have hpath : Foresees E .typed (group .paren do
      word "in"
      remainder) := .of_test pathAhead isSome_pathAhead
  exact .followed inferInstance rfl rfl

instance : Shows visibility := Shows.followed rfl

/-- Nothing but a literal to the end of a group. -/
theorem sole_eq_some {c c' : Cursor} {e : Expr}
    (h : (do let e ← literal; require Test.atEnd; return e : Reader Expr) c = some (e, c')) :
    c'.rest = [] ∧ literal c = some (e, c') := by
  obtain ⟨e, c₁, hliteral, h⟩ := of_bind h
  obtain ⟨_, c₂, hend, h⟩ := of_bind h
  obtain ⟨hempty, hc⟩ := Option.ite_none_right_eq_some.1 hend
  cases hc
  cases h
  exact ⟨by simpa [Test.atEnd] using hempty, hliteral⟩

/-- Where nothing but a literal is written again, nothing but a literal was read. -/
theorem sole_eq_none [p.Hard] {xs ys ts ts' : List Token} {es : List Expr}
    (h : Alike .sealed p xs ys)
    (hxs : (do let e ← literal; require Test.atEnd; return e : Reader Expr) ⟨xs, ts, es⟩ = none) :
    (do let e ← literal; require Test.atEnd; return e : Reader Expr) ⟨ys, ts', es⟩ = none := by
  rw [Option.eq_none_iff_forall_ne_some]
  rintro ⟨e, c'⟩ hys
  obtain ⟨hempty, hliteral⟩ := sole_eq_some hys
  obtain ⟨front, hrest, -, -, hrun, hfront⟩ := literal_eq_some hliteral
  rw [hempty, List.append_nil] at hrest
  have hsame : xs = front := by
    obtain rfl : ys = front := hrest
    have hnil {zs : List Token} (hzs : Alike .sealed .typed zs []) : zs = [] := by
      cases hzs with
      | edge he => exact he.1
    obtain ⟨t, rfl, ht⟩ | ⟨joint, text, rfl⟩ := hfront
    · cases h.typed with
      | edge he => cases he.2
      | same _ hs => rw [hnil hs]
      | group _ hs =>
        have hgroup := hrun [] [] []
        simp [literal, require, Test.literal] at hgroup
      | word _ hs =>
        cases hs with
        | edge he => rw [he.1]
      | callee _ _ hs =>
        cases hs with
        | edge he => rw [he.1]
    · cases h.typed with
      | edge he => cases he.2
      | same _ hs =>
        cases hs with
        | edge he => cases he.2
        | same _ hs => rw [hnil hs]
  have hagain := hrun [] ts es
  rw [List.append_nil] at hagain
  rw [hsame, bind_apply, hagain] at hxs
  simp [require, Test.atEnd] at hxs

/-- What was tried and did not succeed does not succeed where it is tried again. -/
theorem rereads_attempt {α β : Type} {r r' : Reader α} {κ κ' : Option α → Reader β} {C : Place}
    (hr : Rereads E n p .typed r r')
    (hfail : ∀ {xs ys ts ts' : List Token} {es : List Expr}, Alike E p xs ys →
      r ⟨xs, ts, es⟩ = none → r' ⟨ys, ts', es⟩ = none)
    (hsome : ∀ a, Rereads E n .typed C (κ (some a)) (κ' (some a)))
    (hnone : Rereads E n p C (κ none) (κ' none)) :
    Rereads E n p C (attempt r >>= κ) (attempt r' >>= κ') := by
  refine ⟨fun {c c'} b h ↦ ?_⟩
  obtain ⟨o, c₁, hattempt, hk⟩ := of_bind h
  simp only [attempt] at hattempt
  split at hattempt
  next a c₂ hra =>
    cases hattempt
    have hpiece : RereadsAs E n p .typed (attempt r') c (some a) c₁ :=
      (hr.as hra).map fun hra' ↦ by simp only [attempt, hra']
    exact hpiece.bind ((hsome a).as hk) (length_le hk) (length_le hra) (Nat.le_refl _)
      (.inl (Nat.le_refl _))
  next hra =>
    cases hattempt
    have hpiece : RereadsAs E n p p (attempt r') c none c :=
      .refl fun ys hys ts ↦ by simp only [attempt, hfail hys hra]
    exact hpiece.bind (hnone.as hk) (length_le hk) (Nat.le_refl _) (Nat.le_refl _)
      (.inl (Nat.le_refl _))

section

variable [g.Productive] [Rereading g g' n]

instance [Under n m] (path : Option String) :
    Rereads .sealed m .typed .typed (g.attrValue path) (g'.attrValue path) := by
  refine .under (n := n) ?_
  refine .lazily (B := .typed) inferInstance fun grouped ↦ ?_
  cases grouped with
  | true => infer_instance
  | false =>
    refine .asking (k := n) ?_ inferInstance
    refine rereads_attempt inferInstance sole_eq_none (fun e ↦ ?_) ?_
    · infer_instance
    · infer_instance

instance [Under n m] : Rereads .sealed m .typed .typed g.attrContent g'.attrContent := by
  refine .under (n := n) ?_
  unfold attrContent
  infer_instance

instance [Under (n + 1) m] : Rereads E m A .typed g.outerAttribute g'.outerAttribute := by
  refine .under (n := n + 1) (.eagerly (B := .typed) inferInstance ?_)
  rintro ⟨doc, tokens⟩
  infer_instance

instance : Eager g.outerAttribute := by
  unfold outerAttribute
  infer_instance

instance [Under (n + 1) m] : Rereads E m A .typed g.innerAttribute g'.innerAttribute := by
  refine .under (n := n + 1) (.eagerly (B := .typed) inferInstance ?_)
  rintro ⟨doc, tokens⟩
  infer_instance

instance : Eager g.innerAttribute := by
  unfold innerAttribute
  infer_instance

instance [p.Hard] [(Test.punct "#").Firm E p] [Under (n + 1) m] :
    Rereads E m p p g.outerAttributes g'.outerAttributes := by
  refine .under (n := n + 1) ?_
  unfold outerAttributes
  infer_instance

instance [Under (n + 1) m] :
    Rereads .sealed m .typed .typed g.innerAttributes g'.innerAttributes := by
  refine .under (n := n + 1) ?_
  unfold innerAttributes
  infer_instance

instance [Test.string.Firm E .typed] : Rereads E n A .typed abi abi := by
  unfold abi
  infer_instance

instance : Eager abi := by
  unfold abi
  infer_instance

instance [p.Hard] [(Test.word "extern").Firm E p] [Test.string.Firm E .typed] :
    Rereads E n p p abi? abi? := by
  refine .lazily (B := p) inferInstance fun marked ↦ ?_
  cases marked with
  | true => exact (inferInstance : Rereads E n p .typed abi abi).of_end
  | false => infer_instance

instance [Under (n + 1) m] : Rereads E m A .typed g.body g'.body := by
  refine .under (n := n + 1) ?_
  unfold body
  infer_instance

instance : Eager g.body := by
  unfold body
  infer_instance

instance [Under (n + 1) m] : Rereads E m A .typed g.block g'.block := by
  refine .under (n := n + 1) ?_
  unfold block
  infer_instance

instance : Eager g.block := by
  unfold block
  infer_instance

end

end Grammar

end GuestBridge.Host
