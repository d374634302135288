import GuestBridge.Host.Parse
import GuestBridge.Proofs.Host.Reread.Items

/-!
# How deep a grammar must be to read a piece again

A rule reads a tree before it calls a rule again, or it calls one of a lower rank: bounds, patterns
and operands first, then types and expressions, then statements. So three levels of the grammar are
enough for every tree of the piece.
-/

namespace GuestBridge.Host.Grammar

open Reader

/-- Conditions do not start with a bound. -/
theorem boundRule_where (g : Grammar) (capturing constant : Bool) {c : Cursor}
    (h : Test.word "where" c.rest = true) : g.boundRule capturing constant c = none := by
  obtain ⟨_ | ⟨w | _ | _ | _ | _, xs⟩, ts, es⟩ := c
  case cons.word =>
    obtain rfl : w = "where" := of_decide_eq_true h
    have hpunct (s : String) [Written s] : Test.punct s (.word "where" :: xs) = false := by
      obtain ⟨c, cs, hs⟩ := List.exists_cons_of_ne_nil (Written.ne (s := s))
      rw [Test.punct, hs]
      cases cs <;> rfl
    have hword (w : String) (hw : w ≠ "where") : Test.word w (.word "where" :: xs) = false :=
      decide_eq_false hw.symm
    have hident : Test.ident (.word "where" :: xs) = false := rfl
    have hscope : Test.oneOf ["super", "self", "crate", "try"] (.word "where" :: xs) = false := rfl
    simp only [boundRule, traitBound, traitBound.constMark, binder?, path, pathSegment, punct?,
      word?, ident, peek, require, hpunct, hword, hident, hscope, Test.lifetime, Test.paren,
      Test.bracket, Test.group, bind_apply, ite_reader, pure_apply, failure_apply,
      Option.bind_some, Option.bind_none, reduceIte, Bool.and_eq_true, Bool.not_eq_eq_eq_not,
      Bool.not_true, Bool.not_false, Bool.true_and, Bool.or_eq_true, Bool.false_eq_true, or_false,
      and_true, false_or, and_false, false_and, ne_eq, String.reduceEq, not_false_eq_true]
  all_goals cases h

instance productive_ofDepth (d : Nat) : Productive (.ofDepth d) := by
  induction d with
  | zero =>
    exact ⟨fun _ ↦ inferInstanceAs (Eager failure), fun _ _ ↦ inferInstanceAs (Eager failure),
      inferInstanceAs (Eager failure), fun _ ↦ inferInstanceAs (Eager failure),
      fun _ ↦ inferInstanceAs (Eager failure), inferInstanceAs (Eager failure),
      inferInstanceAs (Eager failure), fun _ ↦ inferInstanceAs (Eager failure), fun _ _ _ _ ↦ rfl⟩
  | succ d ih =>
    exact {
      type := fun plus ↦ inferInstanceAs (Eager (typeRule _ plus))
      bound := fun capturing constant ↦ inferInstanceAs (Eager (boundRule _ capturing constant))
      pattern := inferInstanceAs (Eager (patternRule _))
      expr := fun records ↦ inferInstanceAs (Eager (exprRule _ records))
      unary := fun records ↦ inferInstanceAs (Eager (unaryRule _ records))
      early := inferInstanceAs (Eager (earlyRule _))
      item := inferInstanceAs (Eager (itemRule _))
      useTree := fun rooted ↦ inferInstanceAs (Eager (useTreeRule _ rooted))
      where_ := fun capturing constant _ ↦ boundRule_where _ capturing constant }

variable {d d' n : Nat} {g' : Grammar}

/-- An empty grammar reads nothing that would have to be read again. -/
theorem rereading_empty (g' : Grammar) (n : Nat) : Rereading .empty g' n where
  type _ _ _ := ⟨fun h ↦ by cases h⟩
  bound _ _ _ _ := ⟨fun h ↦ by cases h⟩
  pattern := ⟨fun h ↦ by cases h⟩
  expr _ := ⟨fun h ↦ by cases h⟩
  unary _ := ⟨fun h ↦ by cases h⟩
  operators _ _ _ := ⟨fun h ↦ by cases h⟩
  early := ⟨fun h ↦ by cases h⟩
  statements := ⟨fun h ↦ by cases h⟩
  item := ⟨fun h ↦ by cases h⟩
  useTree _ := ⟨fun h ↦ by cases h⟩

/-- The rules with which other rules may start are read again. -/
structure Leading (g g' : Grammar) (n : Nat) : Prop where
  bound (E : Edges) [E.Closing] (capturing constant : Bool) :
    Rereads E n .typed .typed (g.bound capturing constant) (g'.bound capturing constant)
  unary (records : Bool) : Rereads .sealed n .plain .typed (g.unary records) (g'.unary records)
  early : Rereads .sealed n .plain .typed g.early g'.early
  item : Rereads .sealed n .plain .typed g.item g'.item

/-- The rules over the readers of a grammar. -/
def rules (g : Grammar) : Grammar where
  type := g.typeRule
  bound := g.boundRule
  pattern := g.patternRule
  expr := g.exprRule
  unary := g.unaryRule
  operators := g.operatorsRule
  early := g.earlyRule
  statements := g.statementsRule
  item := g.itemRule
  useTree := g.useTreeRule

/-- Rules read again what is one tree larger. -/
theorem rereading_rules {g : Grammar} [g.Productive] [Rereading g g' n]
    (h : Leading g g' (n + 1)) : Rereading g.rules g'.rules (n + 1) where
  type E _ plus := by
    have hbound := h.bound E
    exact typeRule_rereads plus
  bound E _ capturing constant := inferInstanceAs
    (Rereads E (n + 1) .typed .typed (g.boundRule capturing constant)
      (g'.boundRule capturing constant))
  pattern := patternRule_rereads
  expr records := exprRule_rereads records (h.unary records)
  unary := unaryRule_rereads
  operators := operatorsRule_rereads
  early := earlyRule_rereads (h.unary true)
  statements := statementsRule_rereads h.early h.item
  item := itemRule_rereads
  useTree := useTreeRule_rereads

/-- From a piece without trees, nothing has to be read again if something was read. -/
theorem rereads_one {α : Type} {E : Edges} {A C : Place} {r r' : Reader α} [Eager r]
    (h : Rereads E 0 A C r r') : Rereads E 1 A C r r' := by
  refine ⟨fun hr ↦ ?_⟩
  obtain ⟨piece, htaken, hnil, -⟩ := h.as hr
  refine ⟨piece, htaken, hnil, fun hsize ↦ ?_⟩
  cases piece with
  | nil => exact absurd (hnil.1 rfl) (Nat.ne_of_lt (Eager.lt hr))
  | cons t ts => exact absurd (Token.one_le_sizeAll (List.cons_ne_nil t ts)) (Nat.not_le.2 hsize)

private theorem Rereading.zero {g g' : Grammar} (h : Rereading g g' n) (g'' : Grammar) :
    Rereading g g'' 0 where
  type E _ plus := ((h.type E plus).mono (Nat.zero_le n)).zero _
  bound E _ capturing constant := ((h.bound E capturing constant).mono (Nat.zero_le n)).zero _
  pattern := (h.pattern.mono (Nat.zero_le n)).zero _
  expr records := ((h.expr records).mono (Nat.zero_le n)).zero _
  unary records := ((h.unary records).mono (Nat.zero_le n)).zero _
  operators records base left := ((h.operators records base left).mono (Nat.zero_le n)).zero _
  early := (h.early.mono (Nat.zero_le n)).zero _
  statements := (h.statements.mono (Nat.zero_le n)).zero _
  item := (h.item.mono (Nat.zero_le n)).zero _
  useTree rooted := ((h.useTree rooted).mono (Nat.zero_le n)).zero _

private theorem rereading_zero (d : Nat) (g' : Grammar) : Rereading (ofDepth d) g' 0 := by
  induction d generalizing g' with
  | zero => exact rereading_empty g' 0
  | succ d ih =>
    have hrereading := ih .empty
    have hleading : Leading (ofDepth d) .empty 1 :=
      { bound := fun E _ capturing constant ↦ rereads_one (hrereading.bound E capturing constant)
        unary := fun records ↦ rereads_one (hrereading.unary records)
        early := rereads_one hrereading.early
        item := rereads_one hrereading.item }
    exact (rereading_rules hleading).zero g'

section

variable (h : ∀ {d d' : Nat}, 3 * n ≤ d' → Rereading (ofDepth d) (ofDepth d') n)

include h

private theorem unary_ofDepth (d : Nat) (hd : 3 * n + 1 ≤ d') (records : Bool) :
    Rereads .sealed (n + 1) .plain .typed ((ofDepth d).unary records)
      ((ofDepth d').unary records) := by
  obtain ⟨d', rfl⟩ := Nat.exists_eq_add_of_le' (Nat.le_of_add_left_le hd)
  cases d with
  | zero => exact (rereading_empty _ _).unary records
  | succ d =>
    have hrereading : Rereading (ofDepth d) (ofDepth d') n := h (Nat.le_of_succ_le_succ hd)
    exact unaryRule_rereads records

/-- Operands are read first, then expressions that may end early. -/
theorem leading_ofDepth (d : Nat) (hd : 3 * n + 2 ≤ d') :
    Leading (ofDepth d) (ofDepth d') (n + 1) := by
  obtain ⟨d', rfl⟩ := Nat.exists_eq_add_of_le' (Nat.le_trans (Nat.le_add_left 1 (3 * n + 1)) hd)
  cases d with
  | zero =>
    have hempty := rereading_empty (ofDepth (d' + 1)) (n + 1)
    exact ⟨fun E _ ↦ hempty.bound E, hempty.unary, hempty.early, hempty.item⟩
  | succ d =>
    have hrereading : Rereading (ofDepth d) (ofDepth d') n := h (by omega)
    exact {
      bound := fun E _ capturing constant ↦ inferInstanceAs (Rereads E (n + 1) .typed .typed
        ((ofDepth d).boundRule capturing constant) ((ofDepth d').boundRule capturing constant))
      unary := unaryRule_rereads
      early := earlyRule_rereads (unary_ofDepth h d (Nat.le_of_succ_le_succ hd) true)
      item := itemRule_rereads }

end

/-- Three levels are enough for every tree. -/
theorem rereading_ofDepth (d : Nat) (hd : 3 * n ≤ d') : Rereading (ofDepth d) (ofDepth d') n := by
  induction n generalizing d d' with
  | zero => exact rereading_zero d _
  | succ n ih =>
    cases d with
    | zero => exact rereading_empty _ _
    | succ d =>
      cases d' with
      | zero => omega
      | succ d' =>
        have hrereading : Rereading (ofDepth d) (ofDepth d') n := ih d (by omega)
        exact rereading_rules (leading_ofDepth (fun hd ↦ ih _ hd) d (by omega))

end GuestBridge.Host.Grammar
