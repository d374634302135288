import GuestBridge.Host.Grammar.Statement
import GuestBridge.Proofs.Host.Reread.Types

/-!
# Reading expressions again

The rules for operators, operands and statements read again what they have read. Expressions stand
in groups, so nothing follows them but the rest of the group.
-/

namespace GuestBridge.Host

set_option synthInstance.maxSize 100000000

namespace Grammar

open Reader

variable {g g' : Grammar} {n m : Nat} {A p : Place} {xs ys : List Token}

/-! ### Operators -/

/-- The same operator comes next. -/
theorem binaryOperator?_eq (h : Alike .sealed .typed xs ys) :
    binaryOperator? xs = binaryOperator? ys := by
  simp only [binaryOperator?, Test.Firm.eq (t := Test.punct _) h]

instance : assigns.Firm .sealed .typed := by
  unfold assigns
  infer_instance

private theorem nextStrength_eq (h : Alike .sealed .typed xs ys) :
    nextStrength xs = nextStrength ys := by
  simp only [nextStrength, binaryOperator?_eq h, Test.Firm.eq (t := assigns) h,
    Test.Firm.eq (t := Test.punct "..") h, Test.Firm.eq (t := Test.word "as") h]

private theorem written_of_binaryOperator? {op : String} {strength : Nat}
    (h : binaryOperator? xs = some (op, strength)) : Written op := by
  have hall : ∀ p ∈ binaryOperators, p.1.toList ≠ [] := by
    simp [binaryOperators]
  exact ⟨hall _ (List.mem_of_find?_eq_some h)⟩

/-- An operator extends an operand, or nothing was read. -/
theorem extend_rereads {r r' : Reader Expr} {k : Nat} {κ κ' : Expr → Reader Expr} [Below m k]
    (hr : Rereads .sealed m .typed .typed r r')
    (hk : ∀ e, Rereads .sealed k .typed .typed (κ e) (κ' e)) :
    Rereads .sealed m .typed .typed
      (do
        let before ← ahead
        let e ← r
        if (← ahead).length = before.length then
          return e
        κ e)
      (do
        let before ← ahead
        let e ← r'
        if (← ahead).length = before.length then
          return e
        κ' e) := by
  refine ⟨fun {c c'} e h ↦ ?_⟩
  obtain ⟨before, c₁, hahead, h⟩ := of_bind h
  cases hahead
  obtain ⟨right, c₁, hright, h⟩ := of_bind h
  obtain ⟨after, c₂, hahead, h⟩ := of_bind h
  cases hahead
  have hpiece : RereadsAs .sealed m .typed .typed r' c right c₁ := hr.as hright
  by_cases hlength : c₁.rest.length = c.rest.length
  · rw [if_pos hlength] at h
    cases h
    refine hpiece.transfer fun _ hsame hd ↦ ?_
    simp [hd, hsame.2 hlength]
  · rw [if_neg hlength] at h
    have hmarked : RereadsAs .sealed m .typed .typed (do
        let before ← ahead
        let e ← r'
        return (e, decide ((← ahead).length = before.length))) c (right, false) c₁ :=
      hpiece.transfer fun _ hsame hd ↦ by
        simp [hd, hsame, hlength]
    have hle := length_le hright
    have hall := hmarked.bind (n := m) (κ := fun p ↦ if p.2 then pure p.1 else κ' p.1)
      ((hk right).as h) (length_le h) hle (Nat.le_refl _) (.inr ⟨by omega, Below.le_succ⟩)
    refine hall.map fun {d d'} hd ↦ ?_
    rw [← hd]
    rcases hd : r' d with _ | ⟨e, d₁⟩
    · simp [hd]
    · by_cases hsame : d₁.rest.length = d.rest.length <;> simp [hd, hsame]

/-- The rest of a right operand is read again. -/
theorem extendRight_rereads [g.Productive] [hg : Rereading g g' n] (records : Bool)
    (strength : Nat) (right : Expr) : Rereads .sealed n .typed .typed
      (bounded fun fuel ↦ g.extendRight records strength fuel right)
      (bounded fun fuel ↦ g'.extendRight records strength fuel right) := by
  refine .loop (fun right fuel ↦ g.extendRight records strength fuel right)
    (fun right fuel ↦ g'.extendRight records strength fuel right)
    (fun _ _ _ _ _ ↦ ⟨fun h ↦ by cases h⟩) (fun m k hk hm _ fuel fuel' ih right ↦ ?_) right
  have hg := hg.mono hm
  refine ⟨fun {c c'} e h ↦ ?_⟩
  obtain ⟨before, c₁, hahead, h⟩ := of_bind h
  cases hahead
  rw [ite_reader] at h
  split at h
  next hbinds =>
    have hoperators : Rereads .sealed m .typed .typed
        (g.operators records (nextStrength c.rest) right)
        (g'.operators records (nextStrength c.rest) right) := inferInstance
    have hloop := extend_rereads hoperators ih
    refine (hloop.as h).transfer fun {d d'} halike _ hd ↦ ?_
    rw [extendRight, bind_apply, ahead_apply, Option.bind_some, ← nextStrength_eq halike,
      if_pos hbinds]
    exact hd
  next hbinds =>
    cases h
    refine .refl fun ys hys ts ↦ ?_
    rw [extendRight, bind_apply, ahead_apply, Option.bind_some, ← nextStrength_eq hys,
      if_neg hbinds]
    rfl

section

variable [g.Productive] [hg : Rereading g g' n]

instance [Under n m] (records : Bool) (strength : Nat) : Rereads .sealed m .typed .typed
    (g.rightOperand records strength) (g'.rightOperand records strength) := by
  refine .under (n := n) (.lazily (B := .typed) inferInstance fun right ↦ ?_)
  exact extendRight_rereads records strength right

end

instance [g.Productive] (records : Bool) (strength : Nat) :
    Eager (g.rightOperand records strength) := by
  unfold rightOperand
  infer_instance

instance (records : Bool) [p.Hard] : (endsRange records).Firm .sealed p := by
  unfold endsRange
  infer_instance

instance (records : Bool) : Eager (g.rangeEnd records) := by
  unfold rangeEnd
  infer_instance

instance : appliesToCast.Firm .sealed .typed := by
  unfold appliesToCast
  infer_instance

/-- Read an operator that takes two operands, and what follows it. -/
private def withOperator (g : Grammar) (records : Bool) (base : Nat) (left : Expr) (op : String)
    (strength : Nat) : Reader Expr := do
  if strength < base then
    return left
  if strength = compareStrength && left.form = .comparison then
    failure
  punct op
  let right ← g.rightOperand records strength
  let form := if strength = compareStrength then Form.comparison else .plain
  g.operators records base (.node form [left, right])

/-- Read a cast, and what follows it. -/
private def withCast (g : Grammar) (records : Bool) (base : Nat) (left : Expr) : Reader Expr := do
  let cast ← collect (g.type false)
  if ← peek appliesToCast then
    failure
  g.operators records base (.node .plain (left :: cast.2))

/-- Read what may follow a left operand where no operator with two operands comes next. -/
private def withoutOperator (g : Grammar) (records : Bool) (base : Nat) (left : Expr) :
    Reader Expr := do
  if assignStrength ≥ base && (← peek assigns) then
    punct "="
    let right ← g.rightOperand records assignStrength
    g.operators records base (.node .plain [left, right])
  else if rangeStrength ≥ base && (← peek (Test.punct "..")) then
    let upper ← g.rangeEnd records
    g.operators records base (.node .range (left :: upper))
  else if ← word? "as" then
    g.withCast records base left
  else
    return left

/-- The operator that comes next decides what is read. -/
private theorem operatorsRule_eq {records : Bool} {base : Nat} {left : Expr}
    (hrange : left.form ≠ .range) (c : Cursor) :
    g.operatorsRule records base left c = (match binaryOperator? c.rest with
      | some (op, strength) => g.withOperator records base left op strength
      | none => g.withoutOperator records base left) c := by
  rw [operatorsRule, if_neg hrange]
  rfl

section

variable [g.Productive] [hg : Rereading g g' n]

instance [p.Hard] [Under (n + 1) m] (records : Bool) : Rereads .sealed m p .typed
    (g.rangeEnd records) (g'.rangeEnd records) := by
  refine .under (n := n + 1) ?_
  unfold rangeEnd
  infer_instance

private theorem withOperator_rereads (records : Bool) (base : Nat) (left : Expr) (op : String)
    [Written op] (strength : Nat) : Rereads .sealed (n + 1) .typed .typed
      (g.withOperator records base left op strength)
      (g'.withOperator records base left op strength) := by
  unfold withOperator
  infer_instance

omit [g.Productive] in
private theorem withCast_rereads (records : Bool) (base : Nat) (left : Expr) :
    Rereads .sealed n .typed .typed (g.withCast records base left)
      (g'.withCast records base left) :=
  .lazily (B := .typed) inferInstance inferInstance

private theorem withoutOperator_rereads (records : Bool) (base : Nat) (left : Expr) :
    Rereads .sealed (n + 1) .typed .typed (g.withoutOperator records base left)
      (g'.withoutOperator records base left) := by
  have hcast : Rereads .sealed n .typed .typed (g.withCast records base left)
      (g'.withCast records base left) := withCast_rereads records base left
  unfold withoutOperator
  infer_instance

/-- Operators are read again. -/
theorem operatorsRule_rereads (records : Bool) (base : Nat) (left : Expr) :
    Rereads .sealed (n + 1) .typed .typed (g.operatorsRule records base left)
      (g'.operatorsRule records base left) := by
  by_cases hrange : left.form = .range
  · unfold operatorsRule
    rw [if_pos hrange, if_pos hrange]
    infer_instance
  refine ⟨fun {c c'} e h ↦ ?_⟩
  rw [operatorsRule_eq hrange] at h
  cases hop : binaryOperator? c.rest with
  | some p =>
    obtain ⟨op, strength⟩ := p
    have hwritten := written_of_binaryOperator? hop
    have hbinary : Rereads .sealed (n + 1) .typed .typed
        (g.withOperator records base left op strength)
        (g'.withOperator records base left op strength) :=
      withOperator_rereads records base left op strength
    rw [hop] at h
    refine (hbinary.as h).transfer fun {d d'} halike _ hd ↦ ?_
    rw [operatorsRule_eq hrange, ← binaryOperator?_eq halike, hop]
    exact hd
  | none =>
    have hother : Rereads .sealed (n + 1) .typed .typed
        (g.withoutOperator records base left) (g'.withoutOperator records base left) :=
      withoutOperator_rereads records base left
    rw [hop] at h
    refine (hother.as h).transfer fun {d d'} halike _ hd ↦ ?_
    rw [operatorsRule_eq hrange, ← binaryOperator?_eq halike, hop]
    exact hd

end

/-! ### Operands -/

instance [p.Hard] : startsExpr.Firm .sealed p := by
  unfold startsExpr
  infer_instance

section

variable [g.Productive] [hg : Rereading g g' n]

instance [p.Hard] [Under (n + 1) m] :
    Rereads .sealed m p p g.exprAttributes g'.exprAttributes := by
  refine .under (n := n + 1) (.lazily (B := p) inferInstance ?_)
  rintro ⟨attrs, values⟩
  infer_instance

instance [Under n m] : Rereads .sealed m .typed .typed g.exprList g'.exprList := by
  refine .under (n := n) ?_
  unfold exprList
  infer_instance

instance [Under n m] : Rereads .sealed m .typed .typed g.fieldValue g'.fieldValue := by
  refine .under (n := n) (.lazily (B := .typed) inferInstance ?_)
  rintro ⟨attrs, values⟩
  infer_instance

instance : Eager g.fieldValue := by
  unfold fieldValue
  infer_instance

instance [Under n m] :
    Rereads .sealed m .typed .typed (bounded g.fieldValues) (bounded g'.fieldValues) := by
  refine .under (n := n) (.repetition (fun _ ↦ rfl) fun m k hk hm _ fuel fuel' ih ↦ ?_)
  have hg := hg.mono hm
  unfold fieldValues
  infer_instance

instance [Under (n + 1) m] (records : Bool) : Rereads .sealed m p .typed
    (g.pathExpr records) (g'.pathExpr records) := by
  refine .under (n := n + 1) (.eagerly (B := .typed) inferInstance ?_)
  rintro ⟨shape, found⟩
  infer_instance

instance [Under (n + 1) m] : Rereads .sealed m A .typed g.parenExpr g'.parenExpr := by
  refine .under (n := n + 1) ?_
  unfold parenExpr
  infer_instance

instance [Under (n + 1) m] : Rereads .sealed m A .typed g.bracketExpr g'.bracketExpr := by
  refine .under (n := n + 1) ?_
  unfold bracketExpr
  infer_instance

instance [Under (n + 1) m] (records : Bool) : Rereads .sealed m A .typed
    (g.breakExpr records) (g'.breakExpr records) := by
  refine .under (n := n + 1) ?_
  unfold breakExpr
  infer_instance

instance [Under n m] : Rereads .sealed m .typed .typed g.operand? g'.operand? := by
  refine .under (n := n) ?_
  unfold operand?
  infer_instance

instance [Under (n + 1) m] (records : Bool) : Rereads .sealed m A .typed
    (g.letExpr records) (g'.letExpr records) := by
  refine .under (n := n + 1) (.eagerly (B := .typed) inferInstance ?_)
  rintro ⟨e, found⟩
  infer_instance

instance [Under (n + 1) m] :
    Rereads .sealed m A .typed (bounded g.ifExpr) (bounded g'.ifExpr) := by
  refine .of_start (.under (n := n + 1)
    (.repetition (fun _ ↦ rfl) fun m k hk _ hm fuel fuel' ih ↦ ?_))
  have hg := hg.mono hm
  have hagain : Rereads .sealed k .typed .typed (g.ifExpr fuel) (g'.ifExpr fuel') := ih.of_start
  unfold ifExpr
  infer_instance

end

section

variable [g.Productive] [hg : Rereading g g' n]

instance [Under (n + 1) m] : Rereads .sealed m A .typed g.whileExpr g'.whileExpr := by
  refine .under (n := n + 1) (.eagerly (B := .typed) inferInstance ?_)
  rintro ⟨⟨test, stmts⟩, found⟩
  infer_instance

instance [Under (n + 1) m] : Rereads .sealed m A .typed g.forExpr g'.forExpr := by
  refine .under (n := n + 1) (.eagerly (B := .typed) inferInstance ?_)
  rintro ⟨⟨source, stmts⟩, found⟩
  infer_instance

instance [Under (n + 1) m] (keyword : String) : Rereads .sealed m A .typed
    (g.keywordBlock keyword) (g'.keywordBlock keyword) := by
  refine .under (n := n + 1) (.eagerly (B := .typed) inferInstance ?_)
  rintro ⟨stmts, found⟩
  infer_instance

instance [Under (n + 1) m] (labelled : Bool) : Rereads .sealed m A .typed
    (g.blockExpr labelled) (g'.blockExpr labelled) := by
  refine .under (n := n + 1) (.eagerly (B := .typed) inferInstance ?_)
  rintro ⟨stmts, found⟩
  infer_instance

instance [Under n m] : Rereads .sealed m .typed .typed g.arm g'.arm := by
  refine .under (n := n) (.lazily (B := .typed) inferInstance ?_)
  rintro ⟨parts, found⟩
  infer_instance

instance : Eager g.arm := by
  unfold arm
  infer_instance

instance [Under (n + 1) m] : Rereads .sealed m A .typed g.matchExpr g'.matchExpr := by
  refine .under (n := n + 1) (.eagerly (B := .typed) inferInstance ?_)
  rintro ⟨⟨scrutinee, parts⟩, found⟩
  infer_instance

instance [Under (n + 1) m] : Rereads .sealed m A .typed g.labelledExpr g'.labelledExpr := by
  refine .under (n := n + 1) ?_
  unfold labelledExpr
  infer_instance

instance [Under n m] : Rereads .sealed m .typed .typed g.closureParam g'.closureParam := by
  refine .under (n := n) ?_
  unfold closureParam
  infer_instance

instance : Eager g.closureParam := by
  unfold closureParam
  infer_instance

instance [p.Hard] [Under (n + 1) m] (records : Bool) : Rereads .sealed m p .typed
    (g.closureExpr records) (g'.closureExpr records) := by
  refine .under (n := n + 1) (.eagerly (B := .typed) inferInstance ?_)
  rintro ⟨e, found⟩
  infer_instance

end

/-! ### Words in front of operands -/

instance : Test.Unworded (Test.word "for") := Test.unworded_word (by decide)
instance : Test.Unworded (Test.word "const") := Test.unworded_word (by decide)
instance : Test.Unworded (Test.word "async") := Test.unworded_word (by decide)
instance : Test.Unworded (Test.word "unsafe") := Test.unworded_word (by decide)
instance : Test.Unworded (Test.word "static") := Test.unworded_word (by decide)
instance : Test.Unworded (Test.word "extern") := Test.unworded_word (by decide)

instance [p.Hard] : startsBinder.Firm .sealed p := by
  rw [startsBinder, Test.third_eq, Test.and_second]
  infer_instance

instance [p.Hard] : startsClosure.Firm .sealed p := by
  unfold startsClosure
  infer_instance

instance [p.Hard] : startsAsync.Firm .sealed p := by
  rw [startsAsync, Test.third_eq, Test.and_second, Test.or_second]
  infer_instance

instance : startsTry.Firm .sealed .plain := by
  unfold startsTry
  infer_instance

section

variable [g.Productive] [hg : Rereading g g' n]

private theorem atom_rereads (records : Bool) :
    Rereads .sealed (n + 1) .plain .typed (g.atom records) (g'.atom records) := by
  unfold atom
  infer_instance

end

instance : Eager g.parenExpr := by
  unfold parenExpr
  infer_instance

instance : Eager g.bracketExpr := by
  unfold bracketExpr
  infer_instance

instance (fuel : Nat) : Eager (g.ifExpr fuel) := by
  cases fuel with
  | zero => exact inferInstanceAs (Eager failure)
  | succ fuel =>
    unfold ifExpr
    infer_instance

instance (keyword : String) : Eager (g.keywordBlock keyword) := by
  unfold keywordBlock
  infer_instance

instance : Eager g.labelledExpr := by
  unfold labelledExpr
  infer_instance

instance [g.Productive] (records : Bool) : Eager (g.atom records) := by
  have hpath : Eager (g.pathExpr records) := by
    unfold pathExpr
    infer_instance
  have hclosure : Eager (g.closureExpr records) := by
    unfold closureExpr
    infer_instance
  unfold atom breakExpr letExpr whileExpr forExpr matchExpr blockExpr body
  infer_instance

/-! ### What is applied to operands -/

instance : Test.Local positions.float :=
  ⟨fun a _ _ ↦ by cases a <;> rfl, fun _ _ _ _ _ ↦ rfl, fun _ _ _ _ _ ↦ rfl⟩
instance : Test.Signless positions.float := ⟨fun _ _ ↦ rfl⟩

instance : Rereads .sealed n .typed .typed positions positions := by
  refine .lazily (B := .typed) inferInstance fun comes ↦ ?_
  cases comes with
  | true =>
    refine .lazily (B := .typed) inferInstance fun token ↦ ?_
    cases token with
    | literal text =>
      dsimp only
      split <;> infer_instance
    | _ => infer_instance
  | false => infer_instance

/-- A name may be followed by generic arguments, a position not. -/
theorem member_rereadsAs {c c' : Cursor} {named : Bool} (h : member c = some (named, c')) :
    RereadsAs .sealed n .typed (if named then .arguments else .typed) member c named c' := by
  obtain ⟨rest, taken, embedded⟩ := c
  cases hident : Test.ident rest with
  | true =>
    obtain ⟨w, rest, rfl, hw⟩ : ∃ w rest', rest = .word w :: rest' ∧
        Test.keywords.contains w = false := by
      rcases rest with _ | ⟨w | _ | _ | _ | _, rest⟩
      case cons.word => exact ⟨w, rest, rfl, by simpa [Test.ident] using hident⟩
      all_goals cases hident
    have hrun (ys ts : List Token) : member ⟨.word w :: ys, ts, embedded⟩ =
        some (true, ⟨ys, .word w :: ts, embedded⟩) := by
      have hident (ys : List Token) : Test.ident (.word w :: ys) = true := by
        simpa [Test.ident] using hw
      simp [member, peek, hident, skip, takeIf]
    rw [hrun] at h
    cases h
    refine ⟨[.word w], rfl, by simp, fun _ ys hys ↦ ⟨?_, fun ts ↦ hrun ys ts⟩⟩
    exact .word (by rw [isArgumentWord, hw]; simp) hys
  | false =>
    have hnamed : named = false := by
      obtain ⟨_, c₁, hpeek, h⟩ := of_bind h
      cases hpeek
      simp only [hident, Bool.false_eq_true, if_false] at h
      obtain ⟨_, _, -, h⟩ := of_bind h
      cases h
      rfl
    subst hnamed
    simpa using Rereads.as h

private theorem rereads_member {β : Type} {κ κ' : Bool → Reader β} {C : Place}
    (hname : Rereads .sealed n .arguments C (κ true) (κ' true))
    (hposition : Rereads .sealed n .typed C (κ false) (κ' false)) :
    Rereads .sealed n .typed C (member >>= κ) (member >>= κ') := by
  refine ⟨fun {c c'} b h ↦ ?_⟩
  obtain ⟨named, c₁, hmember, h⟩ := of_bind h
  have hpiece := member_rereadsAs (n := n) hmember
  cases named with
  | true =>
    exact hpiece.bind (hname.as h) (length_le h) (length_le hmember) (Nat.le_refl _)
      (.inl (Nat.le_refl _))
  | false =>
    exact hpiece.bind (hposition.as h) (length_le h) (length_le hmember) (Nat.le_refl _)
      (.inl (Nat.le_refl _))

section

variable [g.Productive] [hg : Rereading g g' n]

private theorem field_rereads (e : Expr) :
    Rereads .sealed n .typed .typed (g.field e) (g'.field e) := by
  refine rereads_member (.lazily (B := .arguments) inferInstance fun colons ↦ ?_)
    (.lazily (B := .typed) inferInstance fun colons ↦ ?_)
  · cases colons with
    | true =>
      simp only [Bool.and_true, if_true]
      refine .lazily (B := .typed) inferInstance ?_
      rintro ⟨_, found⟩
      infer_instance
    | false =>
      simp only [Bool.and_false, Bool.false_eq_true, if_false]
      refine .of_typed (.lazily (B := .typed) inferInstance ?_) nofun
      rintro ⟨_, found⟩
      infer_instance
  · simp only [Bool.false_and, Bool.false_eq_true, if_false]
    refine .lazily (B := .typed) inferInstance ?_
    rintro ⟨_, found⟩
    infer_instance

instance [Under (n + 1) m] (e : Expr) : Rereads .sealed m .typed .typed
    (g.selection e) (g'.selection e) := by
  have hfield : Rereads .sealed n .typed .typed (g.field e) (g'.field e) := field_rereads e
  refine .under (n := n + 1) ?_
  unfold selection
  infer_instance

instance (e : Expr) : Eager (g.selection e) := by
  unfold selection
  infer_instance

instance [Under n m] (e : Expr) : Rereads .sealed m .typed .typed
    (g.applied e) (g'.applied e) := by
  refine .under (n := n) (.loop (fun e fuel ↦ g.applications fuel e)
    (fun e fuel ↦ g'.applications fuel e) (fun _ _ _ _ _ ↦ ⟨fun h ↦ by cases h⟩)
    (fun m k hk hm _ fuel fuel' ih e ↦ ?_) e)
  have hg := hg.mono hm
  unfold applications
  infer_instance

/-- The rule for unary expressions reads again what it has read. -/
theorem unaryRule_rereads (records : Bool) :
    Rereads .sealed (n + 1) .plain .typed (g.unaryRule records) (g'.unaryRule records) := by
  have hatom : Rereads .sealed (n + 1) .plain .typed (g.atom records) (g'.atom records) :=
    atom_rereads records
  refine .lazily (B := .plain) inferInstance ?_
  rintro ⟨hasAttributes, values⟩
  infer_instance

end

instance [g.Productive] (records : Bool) : Eager (g.unaryRule records) := by
  unfold unaryRule
  infer_instance

instance [g.Productive] (records : Bool) : Eager (g.exprRule records) := by
  unfold exprRule
  infer_instance

instance [g.Productive] : Eager g.earlyRule := by
  unfold earlyRule
  infer_instance

section

variable [g.Productive] [hg : Rereading g g' n]

/-- An expression is read again if its first operand is. -/
theorem exprRule_rereads (records : Bool)
    (hunary : Rereads .sealed (n + 1) .plain .typed (g.unary records) (g'.unary records)) :
    Rereads .sealed (n + 1) .plain .typed (g.exprRule records) (g'.exprRule records) := by
  unfold exprRule
  infer_instance

/-- The rule for the expression that starts a statement reads again what it has read. -/
theorem earlyRule_rereads
    (hunary : Rereads .sealed (n + 1) .plain .typed (g.unary true) (g'.unary true)) :
    Rereads .sealed (n + 1) .plain .typed g.earlyRule g'.earlyRule := by
  have hatom : Rereads .sealed (n + 1) .plain .typed (g.atom true) (g'.atom true) :=
    atom_rereads true
  refine .lazily (B := .plain) inferInstance ?_
  rintro ⟨hasAttributes, values⟩
  infer_instance

end

end Grammar

end GuestBridge.Host
