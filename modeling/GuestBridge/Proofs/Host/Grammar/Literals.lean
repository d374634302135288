import GuestBridge.Proofs.Host.Relabelling

/-!
# How a literal is read

A literal is one tree, which is a literal token or one of the two truth values, or it is a number
behind its sign. Whatever else comes next is not read as one.
-/

namespace GuestBridge.Host

/-- A literal comes next in one of three ways. -/
theorem Test.literal_cases {ts : List Token} (h : Test.literal ts = true) :
    (∃ text rest, ts = .literal text :: rest) ∨
      (∃ word rest, ts = .word word :: rest ∧ (word = "true" ∨ word = "false")) ∨
        ∃ joint text rest, ts = .punct '-' joint :: .literal text :: rest ∧
          Test.isNumber text = true := by
  unfold Test.literal at h
  split at h
  · exact .inl ⟨_, _, rfl⟩
  · next word rest =>
    rw [Bool.or_eq_true, decide_eq_true_eq, decide_eq_true_eq] at h
    exact .inr (.inl ⟨word, rest, rfl, h⟩)
  · exact .inr (.inr ⟨_, _, _, rfl, h⟩)
  · cases h

namespace Grammar

open Reader

variable {rest taken : List Token} {embedded : List Expr}

/-- A literal token is read. -/
theorem literal_token (text : String) :
    literal ⟨.literal text :: rest, taken, embedded⟩ =
      some (.literal text, ⟨rest, .literal text :: taken, embedded⟩) := rfl

/-- A truth value is read. -/
theorem literal_truth {word : String} (h : word = "true" ∨ word = "false") :
    literal ⟨.word word :: rest, taken, embedded⟩ =
      some (.literal word, ⟨rest, .word word :: taken, embedded⟩) := by
  rcases h with rfl | rfl <;> rfl

/-- A number is read with its sign. -/
theorem literal_negated {text : String} (h : Test.isNumber text = true) (joint : Bool) :
    literal ⟨.punct '-' joint :: .literal text :: rest, taken, embedded⟩ =
      some (.literal ("-" ++ text),
        ⟨rest, .literal text :: .punct '-' joint :: taken, embedded⟩) := by
  have htest : Test.literal (.punct '-' joint :: .literal text :: rest) = true := h
  simp only [literal, bind_apply, require, htest, if_true, Option.bind_some]
  rfl

/-- Nothing else is read as a literal. -/
theorem literal_other {c : Cursor} (h : Test.literal c.rest = false) : literal c = none := by
  simp only [literal, bind_apply, require, h, Bool.false_eq_true, if_false, Option.bind_none]

/-- What is read as a literal begins with one. -/
theorem test_of_literal {c : Cursor} {p : Expr × Cursor} (h : literal c = some p) :
    Test.literal c.rest = true := by
  cases htest : Test.literal c.rest with
  | true => rfl
  | false =>
    rw [literal_other htest] at h
    cases h

end Grammar

end GuestBridge.Host
