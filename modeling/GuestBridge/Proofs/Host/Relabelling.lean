import GuestBridge.Host.Grammar.Basic

/-!
# Relabelling literals

The grammar looks at a literal only to tell what kind of literal it is: a string literal, a
number, or anything else. Other literals of the same kinds therefore make up the same tree with
other literals in it. A relabelling exchanges literals; here it acts on token trees, on the trees
of host functions and on cursors, and all tests and all combinators of readers respect it.
-/

namespace GuestBridge.Host

/-- An exchange of literals that keeps their kinds. Numbers stay, also behind a sign, and so do
the truth values. What a string literal stands for depends on what it stood for before. -/
structure Relabelling where
  /-- The new text of a literal. -/
  text : String → String
  /-- The new value of a string literal. -/
  value : String → String
  value? (t : String) : StringLiteral.value? (text t) = (StringLiteral.value? t).map value
  number (t : String) : Test.isNumber t = true → text t = t
  negative (t : String) : Test.isNumber t = true → text ("-" ++ t) = "-" ++ t
  truth (t : String) : t = "true" ∨ t = "false" → text t = t
  isNumber (t : String) : Test.isNumber (text t) = Test.isNumber t

/-- Relabellings act on a type. -/
class Relabels (α : Type) where
  relabel : Relabelling → α → α

namespace Relabelling

variable {α β : Type} [Relabels α] [Relabels β] {φ : Relabelling}

/-- What a relabelling makes of something. -/
def on (φ : Relabelling) (a : α) : α :=
  Relabels.relabel φ a

/-- Relabellings leave a type alone: there are no literals in it. -/
class Inert (α : Type) [Relabels α] : Prop where
  on_eq (φ : Relabelling) (a : α) : φ.on a = a

/-- A relabelling changes nothing that has no literals. -/
@[simp] theorem on_inert [Inert α] (a : α) : φ.on a = a :=
  Inert.on_eq φ a

/-! ### Words and shapes -/

instance : Relabels Unit := ⟨fun _ a ↦ a⟩
instance : Relabels Bool := ⟨fun _ a ↦ a⟩
instance : Relabels String := ⟨fun _ a ↦ a⟩
instance : Relabels PatternShape := ⟨fun _ a ↦ a⟩
instance : Relabels TypeShape := ⟨fun _ a ↦ a⟩
instance : Relabels BoundKind := ⟨fun _ a ↦ a⟩
instance : Inert Unit := ⟨fun _ _ ↦ rfl⟩
instance : Inert Bool := ⟨fun _ _ ↦ rfl⟩
instance : Inert String := ⟨fun _ _ ↦ rfl⟩
instance : Inert PatternShape := ⟨fun _ _ ↦ rfl⟩
instance : Inert TypeShape := ⟨fun _ _ ↦ rfl⟩
instance : Inert BoundKind := ⟨fun _ _ ↦ rfl⟩

/-! ### Options, lists and pairs -/

instance : Relabels (Option α) := ⟨fun φ o ↦ o.map φ.on⟩
instance : Relabels (List α) := ⟨fun φ l ↦ l.map φ.on⟩
instance : Relabels (α × β) := ⟨fun φ p ↦ (φ.on p.1, φ.on p.2)⟩

/-- A relabelling acts on what an option holds. -/
theorem on_option (o : Option α) : φ.on o = o.map φ.on := rfl

/-- A relabelling acts on a list's elements. -/
theorem on_list (l : List α) : φ.on l = l.map φ.on := rfl

/-- A relabelling acts on both parts of a pair. -/
@[simp] theorem on_pair (a : α) (b : β) : φ.on (a, b) = (φ.on a, φ.on b) := rfl

/-- A relabelling makes nothing of nothing. -/
@[simp] theorem on_none : φ.on (none : Option α) = none := rfl

/-- A relabelling acts on the value there is. -/
@[simp] theorem on_some (a : α) : φ.on (some a) = some (φ.on a) := rfl

/-- A relabelling of no elements has no elements. -/
@[simp] theorem on_nil : φ.on ([] : List α) = [] := rfl

/-- A relabelling acts on the head of a list and on its tail. -/
@[simp] theorem on_cons (a : α) (l : List α) : φ.on (a :: l) = φ.on a :: φ.on l := rfl

/-- The first part of a relabelled pair. -/
@[simp] theorem fst_on (p : α × β) : (φ.on p).1 = φ.on p.1 := rfl

/-- The second part of a relabelled pair. -/
@[simp] theorem snd_on (p : α × β) : (φ.on p).2 = φ.on p.2 := rfl

instance [Inert α] : Inert (Option α) := ⟨fun φ o ↦ by cases o <;> simp⟩
instance [Inert α] : Inert (List α) := ⟨fun φ l ↦ by induction l <;> simp_all⟩
instance [Inert α] [Inert β] : Inert (α × β) := ⟨fun φ p ↦ by cases p; simp⟩

/-- Joining lists commutes with relabelling. -/
@[simp] theorem on_append (l m : List α) : φ.on (l ++ m) = φ.on l ++ φ.on m := by
  simp [on_list]

/-- Reversing a list commutes with relabelling. -/
@[simp] theorem on_reverse (l : List α) : φ.on l.reverse = (φ.on l).reverse := by
  simp [on_list]

/-- A relabelling keeps the length of a list. -/
@[simp] theorem length_on (l : List α) : (φ.on l).length = l.length := by
  simp [on_list]

/-- Taking an option for a list commutes with relabelling. -/
@[simp] theorem toList_on (o : Option α) : (φ.on o).toList = φ.on o.toList := by
  cases o <;> rfl

/-- A relabelling makes no list empty. -/
@[simp] theorem isEmpty_on (l : List α) : (φ.on l).isEmpty = l.isEmpty := by
  simp [on_list]

/-- Joining a list of lists commutes with relabelling. -/
@[simp] theorem on_flatten (ls : List (List α)) : φ.on ls.flatten = (φ.on ls).flatten := by
  induction ls <;> simp_all

@[simp] private theorem on_drop (l : List α) (n : Nat) : φ.on (l.drop n) = (φ.on l).drop n := by
  simp [on_list]

end Relabelling

/-! ### Tokens -/

mutual

/-- A tree with other literals. -/
def Token.relabel (φ : Relabelling) : Token → Token
  | .literal text => .literal (φ.text text)
  | .group d inner => .group d (Token.relabelAll φ inner)
  | t => t

/-- Trees with other literals. -/
def Token.relabelAll (φ : Relabelling) : List Token → List Token
  | [] => []
  | t :: ts => t.relabel φ :: Token.relabelAll φ ts

end

instance : Relabels Token := ⟨Token.relabel⟩

variable {α β : Type} {φ : Relabelling}

private theorem Token.relabelAll_eq (ts : List Token) : Token.relabelAll φ ts = φ.on ts := by
  induction ts with
  | nil => rfl
  | cons t ts ih =>
    rw [Token.relabelAll, ih]
    rfl

namespace Relabelling

/-- A relabelling exchanges a literal's text. -/
@[simp] theorem on_literal (t : String) :
    φ.on (Token.literal t) = .literal (φ.text t) := rfl

/-- Words are no literals. -/
@[simp] theorem on_word (t : String) : φ.on (Token.word t) = .word t := rfl

/-- Punctuation characters are no literals. -/
@[simp] theorem on_punct (c : Char) (joint : Bool) :
    φ.on (Token.punct c joint) = .punct c joint := rfl

/-- Lifetimes are no literals. -/
@[simp] theorem on_lifetime (t : String) : φ.on (Token.lifetime t) = .lifetime t := rfl

/-- A relabelling reaches the trees inside a group. -/
@[simp] theorem on_group (d : Delimiter) (ts : List Token) :
    φ.on (Token.group d ts) = .group d (φ.on ts) := by
  rw [← Token.relabelAll_eq]
  rfl

end Relabelling

mutual

@[simp] private theorem Token.size_on : (t : Token) → (φ.on t).size = t.size
  | .word _ | .punct _ _ | .lifetime _ | .literal _ => rfl
  | .group d inner => by simp [Token.size, Token.sizeAll_on inner]

/-- A relabelling keeps the size of a list of trees. -/
@[simp] theorem Token.sizeAll_on : (ts : List Token) → Token.sizeAll (φ.on ts) = Token.sizeAll ts
  | [] => rfl
  | t :: ts => by simp [Token.sizeAll, Token.size_on t, Token.sizeAll_on ts]

end

/-! ### Expressions -/

mutual

/-- An expression with other literals. -/
def Expr.relabel (φ : Relabelling) : Expr → Expr
  | .literal text => .literal (φ.text text)
  | .paren inner => .paren (inner.relabel φ)
  | .unit => .unit
  | .block labelled body => .block labelled (Stmt.relabelAll φ body)
  | .ret operand => .ret (Expr.relabelOption φ operand)
  | .closure body => .closure (body.relabel φ)
  | .invocation argument => .invocation (φ.on argument)
  | .verbatim => .verbatim
  | .attributed values inner => .attributed (Expr.relabelAll φ values) (inner.relabel φ)
  | .node form parts => .node form (Expr.relabelAll φ parts)

/-- Expressions with other literals. -/
def Expr.relabelAll (φ : Relabelling) : List Expr → List Expr
  | [] => []
  | e :: es => e.relabel φ :: Expr.relabelAll φ es

/-- An expression that may be absent, with other literals. -/
def Expr.relabelOption (φ : Relabelling) : Option Expr → Option Expr
  | none => none
  | some e => some (e.relabel φ)

/-- A statement with other literals. -/
def Stmt.relabel (φ : Relabelling) : Stmt → Stmt
  | .expr e semicolon => .expr (e.relabel φ) semicolon
  | .binding parts => .binding (Expr.relabelAll φ parts)
  | .item tokens => .item (φ.on tokens)
  | .invocation values argument semicolon =>
    .invocation (Expr.relabelAll φ values) (φ.on argument) semicolon

/-- Statements with other literals. -/
def Stmt.relabelAll (φ : Relabelling) : List Stmt → List Stmt
  | [] => []
  | s :: ss => s.relabel φ :: Stmt.relabelAll φ ss

end

instance : Relabels Expr := ⟨Expr.relabel⟩
instance : Relabels Stmt := ⟨Stmt.relabel⟩

private theorem Expr.relabelAll_eq (es : List Expr) : Expr.relabelAll φ es = φ.on es := by
  induction es with
  | nil => rfl
  | cons e es ih =>
    rw [Expr.relabelAll, ih]
    rfl

private theorem Stmt.relabelAll_eq (ss : List Stmt) : Stmt.relabelAll φ ss = φ.on ss := by
  induction ss with
  | nil => rfl
  | cons s ss ih =>
    rw [Stmt.relabelAll, ih]
    rfl

namespace Relabelling

/-- A relabelling exchanges the text of a literal expression. -/
@[simp] theorem on_exprLiteral (t : String) :
    φ.on (Expr.literal t) = .literal (φ.text t) := rfl

/-- A relabelling reaches what stands in parentheses. -/
@[simp] theorem on_paren (e : Expr) : φ.on (Expr.paren e) = .paren (φ.on e) := rfl

/-- A unit has no literals. -/
@[simp] theorem on_unit : φ.on Expr.unit = .unit := rfl

/-- Tokens that are accepted without a tree show no literals. -/
@[simp] theorem on_verbatim : φ.on Expr.verbatim = .verbatim := rfl

/-- A relabelling reaches the body of a closure. -/
@[simp] theorem on_closure (e : Expr) : φ.on (Expr.closure e) = .closure (φ.on e) := rfl

/-- A relabelling reaches the statements of a block. -/
@[simp] theorem on_block (labelled : Bool) (body : List Stmt) :
    φ.on (Expr.block labelled body) = .block labelled (φ.on body) := by
  rw [← Stmt.relabelAll_eq]
  rfl

/-- A relabelling reaches the operand of a return. -/
@[simp] theorem on_ret (operand : Option Expr) : φ.on (Expr.ret operand) = .ret (φ.on operand) := by
  cases operand <;> rfl

/-- A relabelling reaches the argument of a macro call. -/
@[simp] theorem on_invocation (t : Token) :
    φ.on (Expr.invocation t) = .invocation (φ.on t) := rfl

/-- A relabelling reaches the values in attributes and the expression behind them. -/
@[simp] theorem on_attributed (values : List Expr) (e : Expr) :
    φ.on (Expr.attributed values e) = .attributed (φ.on values) (φ.on e) := by
  rw [← Expr.relabelAll_eq]
  rfl

/-- A relabelling reaches the parts of an expression and keeps its form. -/
@[simp] theorem on_node (form : Form) (parts : List Expr) :
    φ.on (Expr.node form parts) = .node form (φ.on parts) := by
  rw [← Expr.relabelAll_eq]
  rfl

/-- A relabelling reaches the expression of a statement. -/
@[simp] theorem on_exprStmt (e : Expr) (semicolon : Bool) :
    φ.on (Stmt.expr e semicolon) = .expr (φ.on e) semicolon := rfl

/-- A relabelling reaches the expressions of a binding. -/
@[simp] theorem on_binding (parts : List Expr) :
    φ.on (Stmt.binding parts) = .binding (φ.on parts) := by
  rw [← Expr.relabelAll_eq]
  rfl

/-- A relabelling reaches the tokens of an item. -/
@[simp] theorem on_item (tokens : List Token) :
    φ.on (Stmt.item tokens) = .item (φ.on tokens) := rfl

/-- A relabelling reaches the attributes and the argument of a macro call that is a statement. -/
@[simp] theorem on_invocationStmt (values : List Expr) (argument : Token) (semicolon : Bool) :
    φ.on (Stmt.invocation values argument semicolon) =
      .invocation (φ.on values) (φ.on argument) semicolon := by
  rw [← Expr.relabelAll_eq]
  rfl

end Relabelling

/-! ### Cursors and tests -/

instance : Relabels Cursor := ⟨fun φ c ↦ ⟨φ.on c.rest, φ.on c.taken, φ.on c.embedded⟩⟩

namespace Relabelling

/-- A relabelling acts on all of a cursor: what is left, what was taken and what was embedded. -/
@[simp] theorem on_cursor (rest taken : List Token) (embedded : List Expr) :
    φ.on (⟨rest, taken, embedded⟩ : Cursor) = ⟨φ.on rest, φ.on taken, φ.on embedded⟩ := rfl

/-- What is left at a relabelled cursor. -/
@[simp] theorem rest_on (c : Cursor) : (φ.on c).rest = φ.on c.rest := rfl

/-- What was taken up to a relabelled cursor. -/
@[simp] theorem taken_on (c : Cursor) : (φ.on c).taken = φ.on c.taken := rfl

/-- What was embedded up to a relabelled cursor. -/
@[simp] theorem embedded_on (c : Cursor) : (φ.on c).embedded = φ.on c.embedded := rfl

end Relabelling

/-- A test looks at the kinds of literals alone. -/
class Test.Natural (t : Test) : Prop where
  on_eq (φ : Relabelling) (ts : List Token) : t (φ.on ts) = t ts

namespace Test

variable {s t : Test}

/-- Punctuation is left as it is. -/
theorem punctChars_on (cs : List Char) (ts : List Token) :
    punctChars cs (φ.on ts) = punctChars cs ts := by
  induction cs generalizing ts with
  | nil => rfl
  | cons c cs ih =>
    cases ts with
    | nil => rfl
    | cons t ts => cases t <;> cases cs <;> simp [punctChars, ih]

instance : Natural atEnd := ⟨fun φ ts ↦ by simp [atEnd]⟩

instance (s : String) : Natural (punct s) := ⟨fun _ ts ↦ punctChars_on _ ts⟩

instance (w : String) : Natural (word w) :=
  ⟨fun φ ts ↦ by rcases ts with _ | ⟨_ | _ | _ | _ | _, ts⟩ <;> simp [word]⟩

instance (ws : List String) : Natural (oneOf ws) :=
  ⟨fun φ ts ↦ by rcases ts with _ | ⟨_ | _ | _ | _ | _, ts⟩ <;> simp [oneOf]⟩

instance : Natural anyWord :=
  ⟨fun φ ts ↦ by rcases ts with _ | ⟨_ | _ | _ | _ | _, ts⟩ <;> simp [anyWord]⟩

instance : Natural ident :=
  ⟨fun φ ts ↦ by rcases ts with _ | ⟨_ | _ | _ | _ | _, ts⟩ <;> simp [ident]⟩

instance : Natural lifetime :=
  ⟨fun φ ts ↦ by rcases ts with _ | ⟨_ | _ | _ | _ | _, ts⟩ <;> simp [lifetime]⟩

instance (d : Delimiter) : Natural (group d) :=
  ⟨fun φ ts ↦ by rcases ts with _ | ⟨_ | _ | _ | _ | _, ts⟩ <;> simp [group]⟩

instance : Natural paren := inferInstanceAs (Natural (group .paren))
instance : Natural bracket := inferInstanceAs (Natural (group .bracket))
instance : Natural brace := inferInstanceAs (Natural (group .brace))

instance : Natural literal where
  on_eq φ ts := by
    rcases ts with _ | ⟨text | ⟨c, joint⟩ | text | text | ⟨d, inner⟩, ts⟩
    case cons.punct =>
      by_cases hc : c = '-'
      · rcases ts with _ | ⟨_ | _ | _ | _ | _, ts⟩ <;> simp [literal, hc, φ.isNumber]
      · simp [literal, hc]
    all_goals simp [literal]

instance : Natural string where
  on_eq φ ts := by
    rcases ts with _ | ⟨_ | _ | _ | _ | _, ts⟩ <;> simp [string, φ.value?]

instance [t.Natural] : Natural (second t) :=
  ⟨fun φ ts ↦ by simp [second, ← Relabelling.on_drop, Natural.on_eq]⟩

instance [t.Natural] : Natural (third t) :=
  ⟨fun φ ts ↦ by simp [third, ← Relabelling.on_drop, Natural.on_eq]⟩

instance [s.Natural] [t.Natural] : Natural (or s t) :=
  ⟨fun φ ts ↦ by simp [or, Natural.on_eq]⟩

instance [s.Natural] [t.Natural] : Natural (and s t) :=
  ⟨fun φ ts ↦ by simp [and, Natural.on_eq]⟩

instance [s.Natural] [t.Natural] : Natural (butNot s t) :=
  ⟨fun φ ts ↦ by simp [butNot, Natural.on_eq]⟩

instance : Natural (any []) := ⟨fun _ _ ↦ rfl⟩

instance {tests : List Test} [t.Natural] [Natural (any tests)] : Natural (any (t :: tests)) where
  on_eq φ ts := by
    have htests := Natural.on_eq (t := any tests) φ ts
    simp only [any] at htests
    simp [any, Natural.on_eq, htests]

instance [t.Natural] : Natural (fun ts ↦ !t ts) := ⟨fun φ ts ↦ by simp [Natural.on_eq]⟩

instance (b : Bool) [t.Natural] : Natural (fun ts ↦ b && t ts) :=
  ⟨fun φ ts ↦ by simp [Natural.on_eq]⟩

instance : Natural (fun _ ↦ true) := ⟨fun _ _ ↦ rfl⟩

end Test

/-! ### Readers -/

namespace Reader

open Relabelling

section

variable {r : Reader α}

/-- A reader made of two succeeds where the second does behind the first. -/
theorem of_bind {r : Reader α} {k : α → Reader β} {c c' : Cursor} {b : β}
    (h : (r >>= k) c = some (b, c')) : ∃ a c₁, r c = some (a, c₁) ∧ k a c₁ = some (b, c') := by
  obtain ⟨⟨a, c₁⟩, hr, hk⟩ := Option.bind_eq_some_iff.1 h
  exact ⟨a, c₁, hr, hk⟩

/-- Two readers in a row run from cursor to cursor. -/
@[simp] theorem bind_apply (r : Reader α) (k : α → Reader β) (c : Cursor) :
    (r >>= k) c = (r c).bind fun p ↦ k p.1 p.2 := (rfl)

/-- A mapped reader maps what it gives and stays where it is. -/
@[simp] theorem map_apply (f : α → β) (r : Reader α) (c : Cursor) :
    (f <$> r) c = (r c).bind fun p ↦ some (f p.1, p.2) := (rfl)

/-- A pure reader gives its value and stays where it is. -/
@[simp] theorem pure_apply (a : α) (c : Cursor) : (pure a : Reader α) c = some (a, c) := (rfl)

/-- A failing reader gives nothing anywhere. -/
@[simp] theorem failure_apply (c : Cursor) : (failure : Reader α) c = none := (rfl)

/-- Looking ahead shows what is left and stays where it is. -/
@[simp] theorem ahead_apply (c : Cursor) : ahead c = some (c.rest, c) := (rfl)

/-- A choice between readers is a choice between their results. -/
@[simp] theorem ite_reader (p : Prop) [Decidable p] (r s : Reader α) (c : Cursor) :
    (if p then r else s) c = if p then r c else s c := by
  split <;> rfl

end

section

variable [Relabels α]

/-- A relabelling acts at the end of a computation that may fail. -/
@[simp] theorem on_bind (o : Option β) (k : β → Option α) :
    φ.on (o.bind k) = o.bind fun b ↦ φ.on (k b) := by
  cases o <;> rfl

/-- What follows a relabelled option sees relabelled values. -/
@[simp] theorem bind_on (o : Option α) (k : α → Option β) :
    (φ.on o).bind k = o.bind fun a ↦ k (φ.on a) := by
  cases o <;> rfl

/-- A relabelling acts on both branches of a choice. -/
@[simp] theorem on_ite (p : Prop) [Decidable p] (a b : α) :
    φ.on (if p then a else b) = if p then φ.on a else φ.on b := by
  split <;> rfl

end

variable [Relabels α] [Relabels β] {t : Test}

/-- Looking at what comes next commutes with relabelling. -/
@[simp] theorem peek_on [t.Natural] (c : Cursor) : peek t (φ.on c) = φ.on (peek t c) := by
  simp [peek, Test.Natural.on_eq]

/-- Taking a token that passes a test commutes with relabelling. -/
@[simp] theorem takeIf_on [t.Natural] (c : Cursor) :
    takeIf t (φ.on c) = φ.on (takeIf t c) := by
  obtain ⟨_ | ⟨token, rest⟩, taken, embedded⟩ := c
  · rfl
  · have ht := Test.Natural.on_eq (t := t) φ (token :: rest)
    rw [on_cons] at ht
    simp [takeIf, ht]

/-- Requiring what comes next commutes with relabelling. -/
@[simp] theorem require_on [t.Natural] (c : Cursor) :
    require t (φ.on c) = φ.on (require t c) := by
  simp [require, Test.Natural.on_eq]

/-- Skipping tokens commutes with relabelling. -/
@[simp] theorem skip_on (n : Nat) (c : Cursor) : skip n (φ.on c) = φ.on (skip n c) := by
  induction n generalizing c with
  | zero => simp [skip]
  | succ n ih => simp [skip, ih]

/-- Reading punctuation commutes with relabelling. -/
@[simp] theorem punct_on (s : String) (c : Cursor) : punct s (φ.on c) = φ.on (punct s c) := by
  simp [punct]

/-- Reading punctuation that may be missing commutes with relabelling. -/
@[simp] theorem punct?_on (s : String) (c : Cursor) : punct? s (φ.on c) = φ.on (punct? s c) := by
  simp [punct?]

/-- Reading a given word commutes with relabelling. -/
@[simp] theorem word_on (w : String) (c : Cursor) : word w (φ.on c) = φ.on (word w c) := by
  simp [word]

/-- Reading a given word that may be missing commutes with relabelling. -/
@[simp] theorem word?_on (w : String) (c : Cursor) : word? w (φ.on c) = φ.on (word? w c) := by
  simp [word?]

/-- A question that may be ruled out commutes with relabelling if the question does. -/
@[simp] theorem askIf_on {question : Reader Bool} (h : ∀ c, question (φ.on c) = φ.on (question c))
    (allowed : Bool) (c : Cursor) :
    askIf allowed question (φ.on c) = φ.on (askIf allowed question c) := by
  cases allowed with
  | true => exact h c
  | false => rfl

/-- Reading any word commutes with relabelling. -/
@[simp] theorem anyWord_on (c : Cursor) : anyWord (φ.on c) = φ.on (anyWord c) := by
  simp only [anyWord, bind_apply, takeIf_on, bind_on, on_bind]
  congr 1
  funext ⟨token, c⟩
  cases token <;> simp

/-- Reading an identifier commutes with relabelling. -/
@[simp] theorem ident_on (c : Cursor) : ident (φ.on c) = φ.on (ident c) := by
  simp [ident]

/-- Reading a lifetime commutes with relabelling. -/
@[simp] theorem lifetime_on (c : Cursor) : lifetime (φ.on c) = φ.on (lifetime c) := by
  simp [lifetime]

/-- Reading a lifetime that may be missing commutes with relabelling. -/
@[simp] theorem lifetime?_on (c : Cursor) : lifetime? (φ.on c) = φ.on (lifetime? c) := by
  simp [lifetime?]

section

variable {r : Reader α}

/-- A group is read in the same way if its inside is. -/
@[simp] theorem group_on (hr : ∀ c, r (φ.on c) = φ.on (r c)) (d : Delimiter) (c : Cursor) :
    group d r (φ.on c) = φ.on (group d r c) := by
  obtain ⟨_ | ⟨_ | _ | _ | _ | ⟨d', trees⟩, rest⟩, taken, embedded⟩ := c
  case cons.group =>
    simp only [on_cursor, on_cons, on_group, group, on_ite]
    split
    · have htrees := hr ⟨trees, [], embedded⟩
      rw [on_cursor, on_nil] at htrees
      rw [htrees]
      rcases r ⟨trees, [], embedded⟩ with _ | ⟨a, ⟨_ | _, inside, embedded⟩⟩ <;> simp
    · rfl
  all_goals rfl

/-- Reading any group commutes with relabelling. -/
@[simp] theorem anyGroup_on (c : Cursor) : anyGroup (φ.on c) = φ.on (anyGroup c) := by
  simp [anyGroup]

/-- Reading a whole group commutes with relabelling. -/
@[simp] theorem wholeGroup_on (d : Delimiter) (c : Cursor) :
    wholeGroup d (φ.on c) = φ.on (wholeGroup d c) := by
  simp [wholeGroup]

/-- Attempting a reader commutes with relabelling if the reader does. -/
@[simp] theorem attempt_on (hr : ∀ c, r (φ.on c) = φ.on (r c)) (c : Cursor) :
    attempt r (φ.on c) = φ.on (attempt r c) := by
  simp only [attempt, hr]
  rcases r c with _ | ⟨a, c'⟩ <;> simp

/-- Looking ahead with a reader commutes with relabelling if the reader does. -/
@[simp] theorem lookahead_on (hr : ∀ c, r (φ.on c) = φ.on (r c)) (c : Cursor) :
    lookahead r (φ.on c) = φ.on (lookahead r c) := by
  simp only [lookahead, hr]
  rcases r c with _ | ⟨a, c'⟩ <;> simp

/-- Capturing a reader's tokens commutes with relabelling if the reader does. -/
@[simp] theorem capture_on (hr : ∀ c, r (φ.on c) = φ.on (r c)) (c : Cursor) :
    capture r (φ.on c) = φ.on (capture r c) := by
  obtain ⟨rest, taken, embedded⟩ := c
  have h := hr ⟨rest, [], embedded⟩
  rw [on_cursor, on_nil] at h
  simp only [capture, on_cursor, h]
  rcases r ⟨rest, [], embedded⟩ with _ | ⟨a, c'⟩ <;> simp

/-- Substituting a reader's tokens commutes with relabelling if the reader does. -/
@[simp] theorem substituting_on {r : Reader (α × List Token)}
    (hr : ∀ c, r (φ.on c) = φ.on (r c)) (c : Cursor) :
    substituting r (φ.on c) = φ.on (substituting r c) := by
  obtain ⟨rest, taken, embedded⟩ := c
  have h := hr ⟨rest, [], embedded⟩
  rw [on_cursor, on_nil] at h
  simp only [substituting, on_cursor, h]
  rcases r ⟨rest, [], embedded⟩ with _ | ⟨a, c'⟩ <;> simp

/-- Embedding puts an expression in front of those embedded before. -/
@[simp] theorem embed_apply (e : Expr) (c : Cursor) :
    embed e c = some ((), ⟨c.rest, c.taken, e :: c.embedded⟩) := (rfl)

/-- Collecting a reader's expressions commutes with relabelling if the reader does. -/
@[simp] theorem collect_on (hr : ∀ c, r (φ.on c) = φ.on (r c)) (c : Cursor) :
    collect r (φ.on c) = φ.on (collect r c) := by
  obtain ⟨rest, taken, embedded⟩ := c
  have h := hr ⟨rest, taken, []⟩
  rw [on_cursor, on_nil] at h
  simp only [collect, on_cursor, h]
  rcases r ⟨rest, taken, []⟩ with _ | ⟨a, c'⟩ <;> simp

/-- What one repetition is to another relabelled, it stays with fuel for all that is left. -/
theorem bounded_on_eq {repetition repetition' : Nat → Reader α}
    (hr : ∀ fuel c, repetition' fuel (φ.on c) = φ.on (repetition fuel c)) (c : Cursor) :
    bounded repetition' (φ.on c) = φ.on (bounded repetition c) := by
  simp [bounded, hr]

/-- A repetition with fuel for what is left commutes with relabelling if each fuel's does. -/
@[simp] theorem bounded_on {repetition : Nat → Reader α}
    (hr : ∀ fuel c, repetition fuel (φ.on c) = φ.on (repetition fuel c)) (c : Cursor) :
    bounded repetition (φ.on c) = φ.on (bounded repetition c) :=
  bounded_on_eq hr c

private theorem whileTest_on (hr : ∀ c, r (φ.on c) = φ.on (r c)) (t : Test) [t.Natural] (fuel : Nat)
    (c : Cursor) : whileTest t r fuel (φ.on c) = φ.on (whileTest t r fuel c) := by
  induction fuel generalizing c with
  | zero => simp [whileTest]
  | succ fuel ih => simp [whileTest, hr, ih]

/-- Repeating a reader while a test passes commutes with relabelling if the reader does. -/
@[simp] theorem repeatWhile_on (hr : ∀ c, r (φ.on c) = φ.on (r c)) (t : Test) [t.Natural]
    (c : Cursor) : repeatWhile t r (φ.on c) = φ.on (repeatWhile t r c) := by
  simp [repeatWhile, whileTest_on hr]

/-- Repeating a reader until a test passes commutes with relabelling if the reader does. -/
@[simp] theorem repeatUntil_on (hr : ∀ c, r (φ.on c) = φ.on (r c)) (t : Test) [t.Natural]
    (c : Cursor) : repeatUntil t r (φ.on c) = φ.on (repeatUntil t r c) :=
  repeatWhile_on hr _ c

/-- A list with separators commutes with relabelling if the reader of its elements does. -/
@[simp] theorem separatedBy_on (hr : ∀ c, r (φ.on c) = φ.on (r c)) (sep : String) (done : Test)
    [done.Natural] (fuel : Nat) (c : Cursor) :
    separatedBy sep done r fuel (φ.on c) = φ.on (separatedBy sep done r fuel c) := by
  induction fuel generalizing c with
  | zero => simp [separatedBy]
  | succ fuel ih => simp [separatedBy, hr, ih]

/-- A list with commas commutes with relabelling if the reader of its elements does. -/
@[simp] theorem commas_on (hr : ∀ c, r (φ.on c) = φ.on (r c)) (done : Test) [done.Natural]
    (c : Cursor) : commas done r (φ.on c) = φ.on (commas done r c) := by
  simp [commas, hr]

/-- A whole list with commas commutes with relabelling if the reader of its elements does. -/
@[simp] theorem commaList_on (hr : ∀ c, r (φ.on c) = φ.on (r c)) (c : Cursor) :
    commaList r (φ.on c) = φ.on (commaList r c) :=
  commas_on hr _ c

private theorem summands_on (hr : ∀ c, r (φ.on c) = φ.on (r c)) (done : Test) [done.Natural]
    (fuel : Nat)
    (c : Cursor) : summands done r fuel (φ.on c) = φ.on (summands done r fuel c) := by
  induction fuel generalizing c with
  | zero => simp [summands]
  | succ fuel ih => simp [summands, hr, ih]

/-- A list with plus signs commutes with relabelling if the reader of its elements does. -/
@[simp] theorem plusList_on (hr : ∀ c, r (φ.on c) = φ.on (r c)) (done : Test) [done.Natural]
    (c : Cursor) : plusList done r (φ.on c) = φ.on (plusList done r c) := by
  simp [plusList, summands_on hr]

/-- Taking all that is left commutes with relabelling. -/
@[simp] theorem remainder_on (c : Cursor) : remainder (φ.on c) = φ.on (remainder c) := by
  simp [remainder]

end

end Reader

end GuestBridge.Host
