import Mathlib.Control.Monad.Basic
import GuestBridge.Proofs.Host.Styles

/-!
# Returns that belong to someone else

What a closure or a nested item returns does not leave the function. In a body that ends with a
return, the insides of closures and items may be exchanged for any others without a change to the
guest code, wherever they stand. This fails for asynchronous blocks, whose returns count as if
they were the function's own: without them, a rejected function may be accepted.
-/

namespace GuestBridge.Host

variable {e e' c c' : Expr} {x x' y y' : List (Option String)} {ss ss' : List Stmt}

/-! ### One place in a tree -/

/-- A statement around one of its expressions. -/
inductive StmtLayer where
  | expr (semicolon : Bool)
  | binding (before after : List Expr)
  | invocation (before after : List Expr) (argument : Token) (semicolon : Bool)

/-- The statement with the given expression in its place. -/
def StmtLayer.around : StmtLayer → Expr → Stmt
  | .expr semicolon, e => .expr e semicolon
  | .binding before after, e => .binding (before ++ e :: after)
  | .invocation before after argument semicolon, e =>
    .invocation (before ++ e :: after) argument semicolon

/-- An expression around one that it holds directly. -/
inductive Layer where
  | paren
  | block (labelled : Bool) (before : List Stmt) (layer : StmtLayer) (after : List Stmt)
  | operand
  | closure
  | value (before after : List Expr) (inner : Expr)
  | attributed (values : List Expr)
  | part (form : Form) (before after : List Expr)

/-- The expression with the given one in its place. -/
def Layer.around : Layer → Expr → Expr
  | .paren, e => .paren e
  | .block labelled before layer after, e => .block labelled (before ++ layer.around e :: after)
  | .operand, e => .ret (some e)
  | .closure, e => .closure e
  | .value before after inner, e => .attributed (before ++ e :: after) inner
  | .attributed values, e => .attributed values e
  | .part form before after, e => .node form (before ++ e :: after)

/-- An expression within layers of syntax, the outermost one first. -/
def Expr.within (layers : List Layer) (e : Expr) : Expr :=
  layers.foldr Layer.around e

/-- Statements that differ in one place, however deep: these hold one expression there, those
another. -/
def DifferIn (c c' : Expr) (ss ss' : List Stmt) : Prop :=
  ∃ layers, Expr.ofBody ss = c.within layers ∧ Expr.ofBody ss' = c'.within layers

/-! ### What two such trees return -/

/-- Two lists are the same, or they differ at most in that one holds `x` where the other holds
`x'`. -/
def SameBut (x x' y y' : List (Option String)) : Prop :=
  y = y' ∨ ∃ before after, y = before ++ x ++ after ∧ y' = before ++ x' ++ after

private theorem SameBut.append (h : SameBut x x' y y') (before after : List (Option String)) :
    SameBut x x' (before ++ y ++ after) (before ++ y' ++ after) := by
  rcases h with rfl | ⟨before', after', rfl, rfl⟩
  · exact .inl rfl
  · exact .inr ⟨before ++ before', after' ++ after, by simp, by simp⟩

/-- Two expressions around `c` and `c'` that are the same text or none, and that return the same
but for what `c` and `c'` return. -/
structure Expr.Parallel (c c' e e' : Expr) : Prop where
  text : e.stringValue? = e'.stringValue?
  returns : SameBut c.returns c'.returns e.returns e'.returns

private theorem returnsAll_append_cons (before after : List Expr) (e : Expr) :
    Expr.returnsAll (before ++ e :: after) =
      Expr.returnsAll before ++ e.returns ++ Expr.returnsAll after := by
  simp [Expr.returnsAll_eq]

/-- A statement returns what is returned in one of its expressions, between what else it returns. -/
theorem StmtLayer.exists_returns (layer : StmtLayer) :
    ∃ before after, ∀ e, (layer.around e).returns = before ++ e.returns ++ after := by
  cases layer with
  | expr semicolon => exact ⟨[], [], fun e ↦ by simp [around, Stmt.returns]⟩
  | binding before after => exact ⟨_, _, fun e ↦ returnsAll_append_cons before after e⟩
  | invocation before after argument semicolon =>
    exact ⟨_, _, fun e ↦ returnsAll_append_cons before after e⟩

/-- Another layer around both sides changes nothing. -/
theorem Expr.Parallel.around (h : Parallel c c' e e') (layer : Layer) :
    Parallel c c' (layer.around e) (layer.around e') := by
  obtain ⟨htext, hreturns⟩ := h
  cases layer with
  | paren => exact ⟨htext, hreturns⟩
  | block labelled before layer after =>
    obtain ⟨front, back, hlayer⟩ := layer.exists_returns
    refine ⟨rfl, ?_⟩
    simpa [Layer.around, Expr.returns, Stmt.returnsAll_eq, hlayer] using
      hreturns.append (before.flatMap Stmt.returns ++ front) (back ++ after.flatMap Stmt.returns)
  | operand =>
    refine ⟨rfl, .inl ?_⟩
    simp [Layer.around, Expr.returns, htext]
  | closure => exact ⟨rfl, .inl rfl⟩
  | value before after inner =>
    refine ⟨rfl, ?_⟩
    simpa [Layer.around, Expr.returns, returnsAll_append_cons] using
      hreturns.append (Expr.returnsAll before) (Expr.returnsAll after ++ inner.returns)
  | attributed values =>
    refine ⟨htext, ?_⟩
    simpa [Layer.around, Expr.returns] using hreturns.append (Expr.returnsAll values) []
  | part form before after =>
    refine ⟨rfl, ?_⟩
    simpa [Layer.around, Expr.returns, returnsAll_append_cons] using
      hreturns.append (Expr.returnsAll before) (Expr.returnsAll after)

/-- Layers around both sides change nothing. -/
theorem Expr.Parallel.within (h : Parallel c c' e e') (layers : List Layer) :
    Parallel c c' (e.within layers) (e'.within layers) := by
  induction layers with
  | nil => exact h
  | cons layer layers ih => exact ih.around layer

/-- Statements that differ in one place return the same but for what is returned there. -/
theorem DifferIn.returnsAll (h : DifferIn c c' ss ss') (htext : c.stringValue? = c'.stringValue?) :
    SameBut c.returns c'.returns (Stmt.returnsAll ss) (Stmt.returnsAll ss') := by
  obtain ⟨layers, hleft, hright⟩ := h
  have hsame : Expr.Parallel c c' c c' := ⟨htext, .inr ⟨[], [], by simp, by simp⟩⟩
  have hreturns := (hsame.within layers).returns
  rwa [← hleft, ← hright] at hreturns

/-! ### Constructs with returns of their own -/

/-- Two expressions that differ only inside a closure, or inside an item of a block. -/
inductive Rewritten : Expr → Expr → Prop
  | closure (body body' : Expr) : Rewritten (.closure body) (.closure body')
  | item (labelled : Bool) (before after : List Stmt) (tokens tokens' : List Token) :
    Rewritten (.block labelled (before ++ .item tokens :: after))
      (.block labelled (before ++ .item tokens' :: after))

/-- What closures and items hold does not count. -/
theorem Rewritten.parallel (h : Rewritten c c') :
    c.stringValue? = c'.stringValue? ∧ c.returns = c'.returns := by
  cases h with
  | closure body body' => exact ⟨rfl, rfl⟩
  | item labelled before after tokens tokens' =>
    refine ⟨rfl, ?_⟩
    simp [Expr.returns, Stmt.returnsAll_eq, Stmt.returns]

/-- An asynchronous block. -/
def Expr.asyncBlock (body : List Stmt) : Expr :=
  .node .async [.ofBody body]

/-- What an asynchronous block returns counts. -/
theorem Expr.returns_asyncBlock (body : List Stmt) :
    (asyncBlock body).returns = Stmt.returnsAll body := by
  simp [asyncBlock, ofBody, returns, returnsAll]

/-! ### What a function carries -/

section Source

variable {item : FnItem} {earlier earlier' : List Stmt} {last : Stmt} {text : String}

/-- The function whose body has other statements before its last one. -/
def FnItem.concluding (item : FnItem) (earlier : List Stmt) (last : Stmt) : FnItem :=
  { item with body := earlier ++ [last] }

/-- A function that ends with a return of a text carries this text, unless something else is
returned before. -/
theorem FnItem.source_concluding (hlast : last.returned? = some (some text)) :
    (item.concluding earlier last).source =
      if ∀ returned ∈ Stmt.returnsAll earlier, returned = some text then .ok (Text.settle text)
      else .error (.body item.hostName .otherReturn) := by
  have hbody : (item.concluding earlier last).body = earlier ++ [last] := rfl
  rw [source, hbody, carriedText_concat hlast, concluded]
  by_cases hall : ∀ returned ∈ Stmt.returnsAll earlier, returned = some text
  · rw [if_pos hall, if_pos (by simpa using hall)]
  · rw [if_neg hall, if_neg (by simpa using hall)]
    rfl

/-- Where something else is returned before the end, a part that returns nothing in its place
either changes nothing, or it was the part that returned something else, and the function is
accepted. -/
theorem FnItem.source_concluding_of_sameBut (hlast : last.returned? = some (some text))
    (h : SameBut x [] (Stmt.returnsAll earlier) (Stmt.returnsAll earlier')) :
    (item.concluding earlier' last).source = (item.concluding earlier last).source ∨
      (item.concluding earlier' last).source = .ok (Text.settle text) ∧
      (item.concluding earlier last).source = .error (.body item.hostName .otherReturn) ∧
      ∃ returned ∈ x, returned ≠ some text := by
  rw [source_concluding hlast, source_concluding hlast]
  rcases h with heq | ⟨before, after, hleft, hright⟩
  · rw [heq]
    exact .inl rfl
  rw [hleft, hright]
  simp only [List.append_nil, List.forall_mem_append]
  by_cases hforeign : ∀ returned ∈ x, returned = some text
  · left
    simp only [iff_true_intro hforeign, and_true]
  · by_cases hown : (∀ returned ∈ before, returned = some text) ∧
        ∀ returned ∈ after, returned = some text
    · refine .inr ⟨if_pos hown, if_neg fun hall ↦ hforeign hall.1.2, ?_⟩
      simpa only [Classical.not_forall, exists_prop] using hforeign
    · exact .inl (by rw [if_neg hown, if_neg fun hall ↦ hown ⟨hall.1.1, hall.2⟩])

/-- In a function that ends with a return of a text, closures and nested items may hold anything,
at any depth of what stands before. An asynchronous block may not: without its returns, the
guest code is the same only where the block returned no other text. -/
theorem FnItem.source_rewritten (hlast : last.returned? = some (some text))
    (hdiffer : DifferIn c c' earlier earlier') :
    (Rewritten c c' →
      (item.concluding earlier' last).source = (item.concluding earlier last).source) ∧
    ∀ body body', c = .asyncBlock body → c' = .asyncBlock body' → Stmt.returnsAll body' = [] →
      (item.concluding earlier' last).source = (item.concluding earlier last).source ∨
        (item.concluding earlier' last).source = .ok (Text.settle text) ∧
        (item.concluding earlier last).source = .error (.body item.hostName .otherReturn) ∧
        ∃ returned ∈ Stmt.returnsAll body, returned ≠ some text := by
  constructor
  · intro hrewritten
    obtain ⟨htext, hreturns⟩ := hrewritten.parallel
    have hsame : Stmt.returnsAll earlier = Stmt.returnsAll earlier' := by
      rcases hdiffer.returnsAll htext with heq | ⟨before, after, hleft, hright⟩
      · exact heq
      · rw [hleft, hright, hreturns]
    rw [source_concluding hlast, source_concluding hlast, hsame]
  · rintro body body' rfl rfl hnone
    have hreturns := hdiffer.returnsAll rfl
    rw [Expr.returns_asyncBlock, Expr.returns_asyncBlock, hnone] at hreturns
    exact source_concluding_of_sameBut hlast hreturns

/-- A closure may return another text. An asynchronous block may not, though its returns are no
more the function's own. -/
theorem FnItem.source_rewritten_let :
    let closure (body : Expr) : Expr := .closure body
    let bound (e : Expr) : List Stmt := [.binding [e]]
    let other : Expr := .ret (some (.literal "\"a\""))
    let last : Stmt := .expr (.ret (some (.literal "\"b\""))) true
    let item : FnItem := { (default : FnItem) with name := "f" }
    (item.concluding (bound (closure .unit)) last).source =
        (item.concluding (bound (closure other)) last).source ∧
      (item.concluding (bound (.asyncBlock [])) last).source = .ok "b" ∧
      (item.concluding (bound (.asyncBlock [.expr other true])) last).source =
        .error (.body "f" .otherReturn) := by
  intro closure bound other last item
  have hlast : last.returned? = some (some "b") := by decide +kernel
  have hdiffer (c c' : Expr) : DifferIn c c' (bound c) (bound c') :=
    ⟨[.block false [] (.binding [] []) []], rfl, rfl⟩
  have hasync := (@source_rewritten _ _ item _ _ _ "b" hlast
    (hdiffer (.asyncBlock [.expr other true]) (.asyncBlock []))).2 _ _ rfl rfl rfl
  refine ⟨(@source_rewritten _ _ item _ _ _ "b" hlast (hdiffer _ _)).1 (.closure other .unit), ?_⟩
  rcases hasync with hsame | ⟨haccepted, hrejected, -⟩
  · exact absurd hsame (by decide +kernel)
  · rw [haccepted, hrejected]
    decide +kernel

/-- A function is rejected for what an asynchronous block in it returns, and accepted when the
block returns nothing. -/
theorem FnItem.source_asyncBlock :
    (HostFunction.parse
        "fn f() \x7b let _g = async \x7b return \"a\"; \x7d; return \"b\" \x7d" >>=
      HostFunction.source) = .error (.body "f" .otherReturn) ∧
    (HostFunction.parse "fn f() \x7b let _g = async \x7b \x7d; return \"b\" \x7d" >>=
      HostFunction.source) = .ok "b" := by
  decide +kernel

end Source

end GuestBridge.Host
