import GuestBridge.Host.Parse
import GuestBridge.Proofs.Host.Grammar.Literals
import GuestBridge.Proofs.Host.Twins

/-!
# Where literals come from

The literal that an expression consists of was read from the tokens outside of brackets: an
operand is a literal token or stands in parentheses, and a block in braces. What holds for
all literals that stand there holds for the literals that statements consist of or return. The
documentation line of an attribute is the text of a literal among the attribute's own tokens.
-/

namespace GuestBridge.Host

/-! ### What readers answer -/

namespace Reader

variable {α β : Type} {I : List Token → Prop} {P : α → List Token → Prop}
  {Q : β → List Token → Prop} {r : Reader α}

/-- What holds for trees holds for their ends. -/
class Hereditary (I : List Token → Prop) : Prop where
  of_suffix {ts us : List Token} : us <:+ ts → I ts → I us

/-- What a reader that starts at trees with a property answers, given what it has taken then. -/
def Yields (I : List Token → Prop) (P : α → List Token → Prop) (r : Reader α) : Prop :=
  ∀ c a c', I c.rest → r c = some (a, c') → P a c'.taken

namespace Yields

private theorem any (r : Reader α) : r.Yields I fun _ _ ↦ True :=
  fun _ _ _ _ _ ↦ trivial

private theorem mono {P' : α → List Token → Prop} (h : r.Yields I P)
    (hP : ∀ a ts, P a ts → P' a ts) :
    r.Yields I P' :=
  fun c a c' hc hr ↦ hP a c'.taken (h c a c' hc hr)

private theorem pure {a : α} (h : ∀ ts, P a ts) : Yields I P (Pure.pure a : Reader α) := by
  rintro c a' c' - hr
  cases hr
  exact h _

private theorem failure : Yields I P (Alternative.failure : Reader α) := by
  rintro c a c' - hr
  cases hr

section

variable [Hereditary I]

/-- Of what is read first, the answer matters for what is read behind it. -/
theorem bind {P : α → Prop} {k : α → Reader β} (hr : r.Yields I fun a _ ↦ P a)
    (hk : ∀ a, P a → (k a).Yields I Q) : (r >>= k).Yields I Q := by
  intro c b c' hc h
  rw [bind_apply] at h
  obtain ⟨⟨a, c''⟩, hra, hka⟩ := Option.bind_eq_some_iff.1 h
  exact hk a (hr c a c'' hc hra) c'' b c' (Hereditary.of_suffix (r.suffix hra) hc) hka

/-- What is read first does not matter. -/
theorem bind_any {k : α → Reader β} (hk : ∀ a, (k a).Yields I Q) : (r >>= k).Yields I Q :=
  bind (P := fun _ ↦ True) (any r) fun a _ ↦ hk a

end

/-- What a group is read from stands inside of it. -/
theorem group {d : Delimiter} (hI : ∀ inner rest, I (.group d inner :: rest) → I inner)
    (hr : r.Yields I P) :
    (Reader.group d r).Yields I fun a ts ↦
      ∃ inside rest, ts = .group d inside.reverse :: rest ∧ P a inside := by
  rintro ⟨_ | ⟨_ | _ | _ | _ | ⟨d', inner⟩, rest⟩, taken, embedded⟩ a c' hc h
  case cons.group =>
    simp only [Reader.group] at h
    obtain ⟨rfl, h⟩ := Option.ite_none_right_eq_some.1 h
    rcases hinner : r ⟨inner, [], embedded⟩ with _ | ⟨b, ⟨_ | _, inside, found⟩⟩
    · simp [hinner] at h
    · simp only [hinner] at h
      cases h
      exact ⟨inside, taken, rfl, hr _ _ _ (hI inner rest hc) hinner⟩
    · simp [hinner] at h
  all_goals cases h

/-- A piece is what its reader has taken. -/
theorem capture (hr : r.Yields I P) :
    (Reader.capture r).Yields I fun p _ ↦ P p.1 p.2.reverse := by
  rintro ⟨rest, taken, embedded⟩ ⟨a, piece⟩ c' hc h
  rcases hra : r ⟨rest, [], embedded⟩ with _ | ⟨b, rest', piece', embedded'⟩
  · simp [Reader.capture, hra] at h
  · simp only [Reader.capture, hra] at h
    cases h
    simpa using hr ⟨rest, [], embedded⟩ a _ hc hra

section

variable [Hereditary I]

/-- Something that may be read first does not matter. -/
theorem first {p : Prop} [Decidable p] {r : Reader Unit} {k : Unit → Reader β}
    (hk : (k ()).Yields I Q) : (if p then r >>= k else k ()).Yields I Q := by
  split
  · exact bind_any fun _ ↦ hk
  · exact hk

/-- What a question decides does not matter if both answers are fine. -/
theorem cond {question : Reader Bool} {s : Reader α} (hr : r.Yields I P) (hs : s.Yields I P) :
    (do if ← question then r else s).Yields I P := by
  refine bind_any fun answer ↦ ?_
  cases answer
  · exact hs
  · exact hr

private theorem whileTest {P : α → Prop} (hr : r.Yields I fun a _ ↦ P a) (t : Test) (fuel : Nat) :
    (Reader.whileTest t r fuel).Yields I fun as _ ↦ ∀ a ∈ as, P a := by
  induction fuel with
  | zero => exact .failure
  | succ fuel ih =>
    refine bind_any fun holds ↦ ?_
    cases holds
    · exact .pure fun _ ↦ List.forall_mem_nil _
    · refine hr.bind fun a ha ↦ ih.bind fun as has ↦ ?_
      exact .pure fun _ ↦ List.forall_mem_cons.2 ⟨ha, has⟩

private theorem repeatWhile {P : α → Prop} (hr : r.Yields I fun a _ ↦ P a) (t : Test) :
    (Reader.repeatWhile t r).Yields I fun as _ ↦ ∀ a ∈ as, P a :=
  bind_any fun _ ↦ hr.whileTest t _

end

end Yields

end Reader

/-! ### Literals of trees -/

/-- What holds for all literals. -/
def Token.All (Q : String → Prop) (ts : List Token) : Prop :=
  ∀ t ∈ ts, ∀ l ∈ t.literals, Q l

/-- What holds for all literals outside of brackets. -/
def Token.Outer (Q : String → Prop) (ts : List Token) : Prop :=
  ∀ t ∈ ts, ∀ l ∈ t.outerLiterals, Q l

variable {Q : String → Prop}

instance : Reader.Hereditary (Token.All Q) :=
  ⟨fun hs h t ht ↦ h t (hs.subset ht)⟩

instance : Reader.Hereditary (Token.Outer Q) :=
  ⟨fun hs h t ht ↦ h t (hs.subset ht)⟩

private theorem Token.All.of_group {d : Delimiter} (inner rest : List Token)
    (h : Token.All Q (.group d inner :: rest)) : Token.All Q inner := by
  intro t ht l hl
  refine h _ List.mem_cons_self l ?_
  rw [Token.literals, Token.literalsAll_eq]
  exact List.mem_flatMap_of_mem ht hl

private theorem Token.Outer.of_group {d : Delimiter} (hd : d ≠ .bracket) (inner rest : List Token)
    (h : Token.Outer Q (.group d inner :: rest)) : Token.Outer Q inner := by
  intro t ht l hl
  refine h _ List.mem_cons_self l ?_
  rw [Token.outerLiterals, if_neg hd, Token.outerLiteralsAll_eq]
  exact List.mem_flatMap_of_mem ht hl

namespace Grammar

open Reader

/-- A literal that is read stands for a text only if it is a token as it stands. -/
theorem literal_cases {c c' : Cursor} {e : Expr} (h : Grammar.literal c = some (e, c')) :
    ∃ text, e = .literal text ∧ (StringLiteral.value? text = none ∨
      ∃ rest, c.rest = .literal text :: rest ∧ c'.taken = .literal text :: c.taken) := by
  obtain ⟨rest, taken, embedded⟩ := c
  have htest : Test.literal rest = true := test_of_literal h
  obtain ⟨text, rest, rfl⟩ | ⟨word, rest, rfl, hword⟩ | ⟨joint, text, rest, rfl, hnumber⟩ :=
    Test.literal_cases htest
  · rw [literal_token] at h
    cases h
    exact ⟨text, rfl, .inr ⟨rest, rfl, rfl⟩⟩
  · rw [literal_truth hword] at h
    cases h
    exact ⟨word, rfl, .inl (by rcases hword with rfl | rfl <;> rfl)⟩
  · rw [literal_negated hnumber] at h
    cases h
    exact ⟨"-" ++ text, rfl, .inl (by simp [StringLiteral.value?])⟩

end Grammar

/-! ### Documentation lines -/

/-- A text is what a literal of some trees stands for, and that literal has a property. -/
def Token.Holds (Q : String → Prop) (ts : List Token) (line : String) : Prop :=
  ∃ t ∈ ts, ∃ l ∈ t.literals, StringLiteral.value? l = some line ∧ Q l

namespace Grammar

open Reader

variable {g : Grammar}

/-- The value of an attribute, if it is a literal and nothing else. -/
theorem attemptLiteral_holds {c c' : Cursor} {e : Expr} {line : String}
    (hc : Token.All Q c.rest)
    (h : attempt (do let e ← Grammar.literal; require Test.atEnd; return e) c = some (some e, c'))
    (hline : e.stringValue? = some line) : Token.Holds Q c'.taken line := by
  obtain ⟨c'', hread⟩ : ∃ c'', Grammar.literal c = some (e, c'') ∧ c' = c'' := by
    cases hread : Grammar.literal c with
    | none => simp [attempt, hread] at h
    | some p =>
      by_cases hend : Test.atEnd p.2.rest = true
      · simp only [attempt, bind_apply, hread, Option.bind_some, require, hend, if_true,
          pure_apply] at h
        cases h
        exact ⟨_, rfl, rfl⟩
      · simp [attempt, hread, require, hend] at h
  obtain ⟨hread, rfl⟩ := hread
  obtain ⟨text, rfl, hvalue | ⟨rest, hrest, htaken⟩⟩ := literal_cases hread
  · rw [Expr.stringValue?, hvalue] at hline
    cases hline
  · rw [htaken]
    refine ⟨.literal text, List.mem_cons_self, text, by simp [Token.literals], hline, ?_⟩
    exact hc (.literal text) (hrest ▸ List.mem_cons_self) text (by simp [Token.literals])

private theorem attrValue_holds (path : Option String) : (g.attrValue path).Yields (Token.All Q)
    fun doc ts ↦ ∀ line ∈ doc, Token.Holds Q ts line := by
  refine .bind_any fun grouped ↦ ?_
  cases grouped
  · refine .bind_any fun equals ↦ ?_
    cases equals
    · exact .pure fun _ ↦ by simp
    · intro c doc c' hc h
      rw [if_pos rfl, bind_apply] at h
      obtain ⟨⟨o, c''⟩, hattempt, h⟩ := Option.bind_eq_some_iff.1 h
      cases o with
      | some e =>
        cases h
        intro line hline
        obtain ⟨-, hline⟩ := Option.ite_none_right_eq_some.1 hline
        exact attemptLiteral_holds hc hattempt hline
      | none =>
        -- Any other value is read as an expression, and holds no documentation.
        have hnone : Yields (Token.All Q) (fun doc ts ↦ ∀ line ∈ doc, Token.Holds Q ts line)
            (do embed (← g.expr true); return none) :=
          .bind_any fun _ ↦ .bind_any fun _ ↦ .pure fun _ ↦ by simp
        have hrest := Hereditary.of_suffix ((attempt _).suffix hattempt) hc
        refine Yields.bind_any (Q := fun doc ts ↦ ∀ line ∈ doc, Token.Holds Q ts line)
          (fun marked ↦ ?_) c'' doc c' hrest h
        cases marked
        · exact hnone
        · exact .bind_any fun _ ↦ hnone
  · exact .bind_any fun _ ↦ .pure fun _ ↦ by simp

private theorem attrContent_holds : g.attrContent.Yields (Token.All Q)
    fun doc ts ↦ ∀ line ∈ doc, Token.Holds Q ts line := by
  refine .bind_any fun marked ↦ ?_
  cases marked <;> exact .bind_any fun path ↦ attrValue_holds path

end Grammar

/-- A documentation line of an attribute is what a literal among its tokens stands for, and that
literal has a property. -/
def Attr.Holds (Q : String → Prop) (a : Attr) : Prop :=
  ∀ line ∈ a.doc, Token.Holds Q a.tokens line

namespace Grammar

open Reader

variable {g : Grammar}

/-- What an attribute holds stands between its brackets. -/
theorem bracketed_holds : (group .bracket g.attrContent).Yields (Token.All Q)
    fun doc ts ↦ ∀ line ∈ doc, Token.Holds Q ts.reverse line := by
  refine Yields.mono (.group Token.All.of_group attrContent_holds) ?_
  rintro doc _ ⟨inside, rest, rfl, h⟩ line hline
  obtain ⟨t, ht, l, hl, hvalue, hQ⟩ := h line hline
  refine ⟨.group .bracket inside.reverse, by simp, l, ?_, hvalue, hQ⟩
  rw [Token.literals, Token.literalsAll_eq]
  exact List.mem_flatMap_of_mem (List.mem_reverse.2 ht) hl

private theorem outerAttribute_holds : g.outerAttribute.Yields (Token.All Q) fun a _ ↦ a.Holds Q :=
  Yields.bind (Yields.capture (.bind_any fun _ ↦ bracketed_holds)) fun p h ↦
    .pure fun _ ↦ by rwa [List.reverse_reverse] at h

private theorem innerAttribute_holds : g.innerAttribute.Yields (Token.All Q) fun a _ ↦ a.Holds Q :=
  Yields.bind (Yields.capture (.bind_any fun _ ↦ .bind_any fun _ ↦ bracketed_holds))
    fun p h ↦ .pure fun _ ↦ by rwa [List.reverse_reverse] at h

/-- The documentation of an item stands in literals. -/
theorem fnItem_holds : g.fnItem.Yields (Token.All Q) fun item _ ↦
    ∀ a ∈ item.attributes, a.Holds Q := by
  refine Yields.bind (outerAttribute_holds.repeatWhile _) fun outer houter ↦ ?_
  refine .bind_any fun _ ↦ .bind_any fun s ↦ ?_
  have hinner : (group .brace do
      let inner ← g.innerAttributes
      return (inner, ← g.statements)).Yields (Token.All Q)
      fun p _ ↦ ∀ a ∈ p.1, a.Holds Q := by
    refine Yields.mono (.group (P := fun p _ ↦ ∀ a ∈ p.1, a.Holds Q) Token.All.of_group ?_) ?_
    · refine Yields.bind (innerAttribute_holds.repeatWhile _) fun inner hinner ↦ ?_
      exact .bind_any fun _ ↦ .pure fun _ ↦ hinner
    · rintro p _ ⟨_, _, -, h⟩
      exact h
  exact hinner.bind fun p hp ↦ .pure fun _ ↦ List.forall_mem_append.2 ⟨houter, hp⟩

end Grammar

/-! ### Literals of expressions -/

/-- The literals that an expression consists of or returns. -/
def Expr.carried : Expr → List String
  | .literal text => [text]
  | .paren inner => inner.carried
  | .attributed _ inner => inner.carried
  | .ret (some operand) => operand.carried
  | _ => []

/-- The literals that a statement consists of or returns. -/
def Stmt.carried : Stmt → List String
  | .expr e _ => e.carried
  | _ => []

@[simp] private theorem Expr.carried_withAttributes (values : List Expr) (e : Expr) :
    (Expr.withAttributes values e).carried = e.carried := by
  cases e <;> simp only [Expr.withAttributes] <;> split <;> rfl

/-- What holds for the string literals that an expression consists of or returns. -/
def Expr.Carries (Q : String → Prop) (e : Expr) : Prop :=
  ∀ l ∈ e.carried, (StringLiteral.value? l).isSome = true → Q l

/-- What holds for the string literals that a statement consists of or returns. -/
def Stmt.Carries (Q : String → Prop) (s : Stmt) : Prop :=
  ∀ l ∈ s.carried, (StringLiteral.value? l).isSome = true → Q l

private theorem Expr.Carries.of_nil {e : Expr} (h : e.carried = []) : e.Carries Q := by
  simp [Expr.Carries, h]

private theorem Expr.Carries.withAttributes {e : Expr} (h : e.Carries Q) (values : List Expr) :
    (Expr.withAttributes values e).Carries Q := by
  rwa [Expr.Carries, Expr.carried_withAttributes]

/-! ### Expressions without a literal of their own -/

/-- An expression consists of no literal and returns none. -/
class Expr.Bare (e : Expr) : Prop where
  carried_eq : e.carried = []

namespace Expr

variable {e : Expr}

instance : Bare .verbatim := ⟨rfl⟩
instance : Bare (.closure e) := ⟨rfl⟩
instance (argument : Token) : Bare (.invocation argument) := ⟨rfl⟩
instance (form : Form) (parts : List Expr) : Bare (.node form parts) := ⟨rfl⟩
instance (labelled : Bool) (body : List Stmt) : Bare (.block labelled body) := ⟨rfl⟩

instance [e.Bare] (values : List Expr) : Bare (e.withAttributes values) :=
  ⟨(carried_withAttributes values e).trans Bare.carried_eq⟩

end Expr

namespace Reader

variable {α : Type} {r s : Reader Expr}

/-- The answers of a reader consist of no literal and return none. -/
class Bare (r : Reader Expr) : Prop where
  of_run {c c' : Cursor} {e : Expr} : r c = some (e, c') → e.Bare

instance {e : Expr} [he : e.Bare] : Bare (pure e) :=
  ⟨fun h ↦ by cases h; exact he⟩

instance : Bare failure :=
  ⟨fun h ↦ by cases h⟩

instance {r : Reader α} {k : α → Reader Expr} [∀ a, Bare (k a)] : Bare (r >>= k) where
  of_run h := by
    obtain ⟨p, -, hk⟩ := Option.bind_eq_some_iff.1 h
    exact Bare.of_run hk

instance (p : Prop) [Decidable p] [hr : Bare r] [hs : Bare s] : Bare (if p then r else s) := by
  split <;> assumption

instance (d : Delimiter) [Bare r] : Bare (group d r) where
  of_run h := by
    obtain ⟨_, _, -, he⟩ := Yields.group (I := fun _ ↦ True) (P := fun e _ ↦ e.Bare)
      (fun _ _ _ ↦ trivial) (fun _ _ _ _ hr ↦ Bare.of_run hr) _ _ _ trivial h
    exact he

private theorem Bare.carries [Bare r] {I : List Token → Prop} : r.Yields I fun e _ ↦ e.Carries Q :=
  fun _ _ _ _ h ↦ .of_nil (Bare.of_run h).carried_eq

end Reader

namespace Grammar

open Reader

variable {g : Grammar}

section

-- A rule's instance grows with the rule.
set_option synthInstance.maxSize 256

instance (records : Bool) : Bare (g.pathExpr records) := by
  simp only [pathExpr]
  infer_instance

instance : Bare g.bracketExpr := by
  simp only [bracketExpr]
  infer_instance

instance (records : Bool) : Bare (g.breakExpr records) := by
  simp only [breakExpr]
  infer_instance

instance (records : Bool) : Bare (g.letExpr records) := by
  simp only [letExpr]
  infer_instance

instance (fuel : Nat) : Bare (g.ifExpr fuel) := by
  cases fuel <;>
  · simp only [ifExpr]
    infer_instance

instance : Bare g.whileExpr := by
  simp only [whileExpr]
  infer_instance

instance : Bare g.forExpr := by
  simp only [forExpr]
  infer_instance

instance (keyword : String) : Bare (g.keywordBlock keyword) := by
  simp only [keywordBlock]
  infer_instance

instance (labelled : Bool) : Bare (g.blockExpr labelled) := by
  simp only [blockExpr]
  infer_instance

instance : Bare g.matchExpr := by
  simp only [matchExpr]
  infer_instance

instance : Bare g.labelledExpr := by
  simp only [labelledExpr]
  infer_instance

instance (records : Bool) : Bare (g.closureExpr records) := by
  simp only [closureExpr]
  infer_instance

instance (e : Expr) : Bare (g.selection e) := by
  simp only [selection, field]
  infer_instance

end

/-- The rules of a grammar answer with literals from outside of brackets. -/
class Carries (Q : String → Prop) (g : Grammar) : Prop where
  expr (records : Bool) : (g.expr records).Yields (Token.Outer Q) fun e _ ↦ e.Carries Q
  unary (records : Bool) : (g.unary records).Yields (Token.Outer Q) fun e _ ↦ e.Carries Q
  operators (records : Bool) (base : Nat) {left : Expr} (h : left.Carries Q) :
    (g.operators records base left).Yields (Token.Outer Q) fun e _ ↦ e.Carries Q
  early : g.early.Yields (Token.Outer Q) fun e _ ↦ e.Carries Q
  statements : g.statements.Yields (Token.Outer Q) fun body _ ↦ ∀ s ∈ body, s.Carries Q

private theorem literal_carries :
    Grammar.literal.Yields (Token.Outer Q) fun e _ ↦ e.Carries Q := by
  intro c e c' hc h
  obtain ⟨text, rfl, hvalue | ⟨rest, hrest, -⟩⟩ := literal_cases h
  · intro l hl hsome
    obtain rfl := List.mem_singleton.1 hl
    simp [hvalue] at hsome
  · intro l hl _
    obtain rfl := List.mem_singleton.1 hl
    exact hc (.literal l) (hrest ▸ List.mem_cons_self) l (by simp [Token.outerLiterals])

private theorem applications_carries {e : Expr} (fuel : Nat) (h : e.Carries Q) :
    (g.applications fuel e).Yields (Token.Outer Q) fun e _ ↦ e.Carries Q := by
  induction fuel generalizing e with
  | zero => exact .failure
  | succ fuel ih =>
    unfold applications
    refine .cond (.bind_any fun args ↦ ih (.of_nil rfl)) (.bind_any fun point ↦ ?_)
    split
    · exact Yields.bind Bare.carries fun e he ↦ ih he
    · refine .cond (.bind_any fun index ↦ ih (.of_nil rfl)) (.bind_any fun mark ↦ ?_)
      split
      · exact ih (.of_nil rfl)
      · exact .pure fun _ ↦ h

private theorem applied_carries {e : Expr} (h : e.Carries Q) :
    (g.applied e).Yields (Token.Outer Q) fun e _ ↦ e.Carries Q :=
  .bind_any fun _ ↦ applications_carries _ h

section

variable [g.Carries Q]

private theorem parenExpr_carries : g.parenExpr.Yields (Token.Outer Q) fun e _ ↦ e.Carries Q := by
  refine Yields.mono (.group (P := fun e _ ↦ e.Carries Q) (Token.Outer.of_group (by decide))
    (.bind_any fun ended ↦ ?_)) fun e _ ⟨_, _, _, h⟩ ↦ h
  cases ended
  · refine Yields.bind (Carries.expr true) fun first hfirst ↦ .bind_any fun alone ↦ ?_
    cases alone
    · exact .bind_any fun _ ↦ .bind_any fun _ ↦ .pure fun _ ↦ .of_nil rfl
    · exact .pure fun _ ↦ hfirst
  · exact .pure fun _ ↦ .of_nil rfl

private theorem operand?_carries :
    g.operand?.Yields (Token.Outer Q) fun operand _ ↦ ∀ e ∈ operand, e.Carries Q := by
  refine .bind_any fun starts ↦ ?_
  cases starts
  · exact .pure fun _ ↦ by simp
  · exact Yields.bind (Carries.expr true) fun e he ↦ .pure fun _ ↦ by simpa using he

/-- Of all operands only literals, expressions in parentheses and returns show a literal. -/
theorem atom_carries (records : Bool) :
    (g.atom records).Yields (Token.Outer Q) fun e _ ↦ e.Carries Q := by
  have hreturn : Yields (Token.Outer Q) (fun e _ ↦ Expr.Carries Q e)
      (do return Expr.ret (← g.operand?)) := by
    refine Yields.bind operand?_carries fun operand h ↦ .pure fun _ ↦ ?_
    cases operand with
    | none => exact .of_nil rfl
    | some e => exact h e rfl
  have hcondition : Yields (Token.Outer Q) (fun e _ ↦ Expr.Carries Q e)
      (bounded g.ifExpr) :=
    .bind_any fun _ ↦ Bare.carries
  unfold atom
  refine .cond literal_carries (.cond Bare.carries (.cond Bare.carries (.cond Bare.carries
    (.cond Bare.carries (.cond Bare.carries (.cond parenExpr_carries ?_))))))
  refine .cond Bare.carries (.cond Bare.carries (.cond hreturn (.cond Bare.carries
    (.cond Bare.carries (.cond Bare.carries (.cond hcondition ?_))))))
  refine .cond Bare.carries (.cond Bare.carries (.cond Bare.carries (.cond Bare.carries
    (.cond Bare.carries (.cond Bare.carries (.cond Bare.carries ?_))))))
  exact .cond Bare.carries (.cond Bare.carries (.cond Bare.carries Bare.carries))

private theorem unaryRule_carries (records : Bool) :
    (g.unaryRule records).Yields (Token.Outer Q) fun e _ ↦ e.Carries Q := by
  refine .bind_any fun (hasAttributes, values) ↦ .cond ?reference (.cond ?sign ?operand)
  case reference =>
    exact .bind_any fun raw ↦ .first (.bind_any fun mutable ↦ .first Bare.carries)
  case sign => exact .bind_any fun _ ↦ Bare.carries
  case operand =>
    refine Yields.bind (atom_carries records) fun e he ↦ Yields.bind (applied_carries he) ?_
    exact fun e he ↦ .first (.pure fun _ ↦ he.withAttributes values)

private theorem exprRule_carries (records : Bool) :
    (g.exprRule records).Yields (Token.Outer Q) fun e _ ↦ e.Carries Q :=
  Yields.bind (Carries.unary records) fun _ h ↦ Carries.operators records 0 h

private theorem earlyRule_carries : g.earlyRule.Yields (Token.Outer Q) fun e _ ↦ e.Carries Q := by
  refine .bind_any fun (_, values) ↦ ?_
  have hbehind (e : Expr) (he : e.Carries Q) : Yields (Token.Outer Q) (fun e _ ↦ Expr.Carries Q e)
      (if e.form ≠ .control then g.operators true 0 (Expr.withAttributes values e)
      else do
        if ← peek (Test.or (Test.butNot (Test.punct ".") (Test.punct "..")) (Test.punct "?")) then
          let e ← g.applied e
          g.operators true 0 (Expr.withAttributes values e)
        else
          return Expr.withAttributes values e) := by
    split
    · exact Carries.operators true 0 (he.withAttributes values)
    · refine .cond ?_ (.pure fun _ ↦ he.withAttributes values)
      refine Yields.bind (applied_carries he) fun e he ↦ ?_
      exact Carries.operators true 0 (he.withAttributes values)
  exact .cond (Yields.bind (atom_carries true) hbehind) (Yields.bind (Carries.unary true) hbehind)

private theorem operatorsRule_carries (records : Bool) (base : Nat) {left : Expr}
    (h : left.Carries Q) :
    (g.operatorsRule records base left).Yields (Token.Outer Q) fun e _ ↦ e.Carries Q := by
  have hnode (form : Form) (parts : List Expr) :
      (g.operators records base (.node form parts)).Yields (Token.Outer Q)
        fun e _ ↦ e.Carries Q :=
    Carries.operators records base (.of_nil rfl)
  unfold operatorsRule
  split
  · exact .pure fun _ ↦ h
  · refine .bind_any fun ts ↦ ?_
    split
    next op strength _ =>
      split
      · exact .pure fun _ ↦ h
      · exact .first (.bind_any fun _ ↦ .bind_any fun _ ↦ hnode _ _)
    next =>
      refine .bind_any fun assigned ↦ ?_
      split
      · exact .bind_any fun _ ↦ .bind_any fun _ ↦ hnode _ _
      · refine .bind_any fun ranged ↦ ?_
        split
        · exact .bind_any fun _ ↦ hnode _ _
        · refine .cond (.bind_any fun (_, found) ↦ .bind_any fun applied ↦ ?_) (.pure fun _ ↦ h)
          exact .first (hnode _ _)

private theorem stmtOf_carries {e : Expr} (h : e.Carries Q) (values : List Expr)
    (semicolon : Bool) :
    (stmtOf values e semicolon).Carries Q := by
  unfold stmtOf
  split
  · split
    · exact List.forall_mem_nil _
    · exact h.withAttributes values
  · exact h.withAttributes values

private theorem exprStmt_carries (values : List Expr) :
    (g.exprStmt values).Yields (Token.Outer Q) fun s _ ↦ s.Carries Q :=
  Yields.bind Carries.early fun _ he ↦ .bind_any fun _ ↦ .pure fun _ ↦ stmtOf_carries he _ _

private theorem stmt_carries : g.stmt.Yields (Token.Outer Q) fun s _ ↦ s.Carries Q := by
  have hother {s : Stmt} (h : s.carried = []) : s.Carries Q := by simp [Stmt.Carries, h]
  refine .bind_any fun (_, values) ↦ .bind_any fun start ↦ ?_
  dsimp only
  split
  · exact .bind_any fun _ ↦ .bind_any fun _ ↦ .bind_any fun _ ↦ .bind_any fun _ ↦
      .pure fun _ ↦ hother rfl
  · refine .cond (.bind_any fun _ ↦ .pure fun _ ↦ hother rfl) (.bind_any fun item ↦ ?_)
    split
    · exact .bind_any fun ((_, tokens), _) ↦ .pure fun _ ↦ hother rfl
    · exact exprStmt_carries values

private theorem statementList_carries (fuel : Nat) :
    (g.statementList fuel).Yields (Token.Outer Q) fun body _ ↦ ∀ s ∈ body, s.Carries Q := by
  induction fuel with
  | zero => exact .failure
  | succ fuel ih =>
    have hmore {s : Stmt} (hs : s.Carries Q) :
        (do return s :: (← g.statementList fuel)).Yields (Token.Outer Q)
          fun (body : List Stmt) _ ↦ ∀ s ∈ body, s.Carries Q :=
      ih.bind fun _ h ↦ .pure fun _ ↦ List.forall_mem_cons.2 ⟨hs, h⟩
    refine .cond (hmore (List.forall_mem_nil _)) (.cond (.pure fun _ ↦ List.forall_mem_nil _) ?_)
    refine stmt_carries.bind fun s hs ↦ .cond (.pure fun _ ↦ by simpa using hs) ?_
    exact .first (hmore hs)

private theorem statementsRule_carries :
    g.statementsRule.Yields (Token.Outer Q) fun body _ ↦ ∀ s ∈ body, s.Carries Q :=
  .bind_any fun _ ↦ statementList_carries _

end

instance : Carries Q empty where
  expr _ := .failure
  unary _ := .failure
  operators _ _ _ _ := .failure
  early := .failure
  statements := .failure

instance (depth : Nat) : Carries Q (ofDepth depth) := by
  induction depth with
  | zero => exact inferInstanceAs (Carries Q empty)
  | succ depth ih =>
    exact {
      expr := exprRule_carries
      unary := unaryRule_carries
      operators := operatorsRule_carries
      early := earlyRule_carries
      statements := statementsRule_carries }

/-- The literals of a body stand outside of brackets. -/
theorem fnItem_carries [g.Carries Q] : g.fnItem.Yields (Token.Outer Q) fun item _ ↦
    ∀ s ∈ item.body, s.Carries Q := by
  refine .bind_any fun outer ↦ .bind_any fun _ ↦ .bind_any fun s ↦ ?_
  have hbody : (group .brace do
      let inner ← g.innerAttributes
      return (inner, ← g.statements)).Yields (Token.Outer Q)
      fun p _ ↦ ∀ s ∈ p.2, s.Carries Q := by
    refine Yields.mono (.group (P := fun p _ ↦ ∀ s ∈ p.2, s.Carries Q)
      (Token.Outer.of_group (by decide)) (.bind_any fun inner ↦ ?_)) fun p _ ⟨_, _, _, h⟩ ↦ h
    exact Yields.bind Carries.statements fun _ h ↦ .pure fun _ ↦ h
  exact hbody.bind fun p hp ↦ .pure fun _ ↦ hp

end Grammar

/-! ### Items -/

instance (ts : List Token) : (Grammar.forTokens ts).Carries Q :=
  inferInstanceAs ((Grammar.ofDepth _).Carries Q)

private theorem Reader.Yields.all? {α : Type} {I : List Token → Prop} {P : α → Prop} {r : Reader α}
    {ts : List Token} {a : α} (hr : r.Yields I fun a _ ↦ P a) (hts : I ts)
    (h : r.all? ts = some a) : P a := by
  unfold Reader.all? at h
  split at h
  next hra =>
    cases h
    exact hr _ _ _ hts hra
  next => cases h

variable {ts : List Token} {item : FnItem}

/-- What holds for all literals of a text outside of brackets holds for those that the body of its
function carries. -/
theorem FnItem.carries_of_ofTokens? (h : ofTokens? ts = some item) (hts : Token.Outer Q ts) :
    ∀ s ∈ item.body, s.Carries Q :=
  Grammar.fnItem_carries.all? hts h

/-- What holds for all literals of a text holds for those that document its function. -/
theorem FnItem.holds_of_ofTokens? (h : ofTokens? ts = some item) (hts : Token.All Q ts) :
    ∀ a ∈ item.attributes, a.Holds Q :=
  Grammar.fnItem_holds.all? hts h

end GuestBridge.Host
