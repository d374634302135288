import GuestBridge.Proofs.Host.GuestLiteral

/-!
# The styles of carrying guest code

A body carries guest code in one of three styles: as a string literal alone, as one in front of a
statement that does nothing, or in a final return. In the last style every other return of the
function, however deep it stands, returns the same text. No other body carries guest code.
-/

namespace GuestBridge.Host

variable {e whole : Expr} {s : Stmt} {body : List Stmt} {operand : Option Expr} {text : String}

/-! ### Returned texts -/

/-- An expression that is a string literal for a text, possibly in parentheses. -/
inductive Expr.IsText (text : String) : Expr → Prop
  | literal {written : String} (h : StringLiteral.value? written = some text) :
    IsText text (.literal written)
  | paren {inner : Expr} (h : IsText text inner) : IsText text (.paren inner)
  | attributed {values : List Expr} {inner : Expr} (h : IsText text inner) :
    IsText text (.attributed values inner)

private theorem Expr.isText_iff : e.IsText text ↔ e.stringValue? = some text := by
  constructor
  · intro h
    induction h with
    | literal h => exact h
    | paren _ ih => exact ih
    | attributed _ ih => exact ih
  · intro h
    fun_induction Expr.stringValue? e with
    | case1 written => exact .literal h
    | case2 inner ih => exact .paren (ih h)
    | case3 values inner ih => exact .attributed (ih h)
    | case4 e _ _ _ => cases h

private theorem Expr.stringLiteral?_bare (e : Expr) : e.bare.stringLiteral? = e.stringLiteral? := by
  fun_induction Expr.bare e with
  | case1 values e ih => simpa [stringLiteral?] using ih
  | case2 e _ => rfl

/-- A return of a string literal for a text. -/
def ReturnsText (text : String) (operand : Option Expr) : Prop :=
  ∃ e, operand = some e ∧ e.IsText text

private theorem returnsText_iff : ReturnsText text operand ↔
    operand.bind Expr.stringValue? = some text := by
  simp [ReturnsText, Expr.isText_iff, Option.bind_eq_some_iff]

/-! ### The returns of a function -/

/-- The expressions that a statement holds directly. Items and the arguments of macros hold none. -/
def Stmt.exprs : Stmt → List Expr
  | .expr e _ => [e]
  | .binding parts => parts
  | .item _ => []
  | .invocation values _ _ => values

/-- An expression occurs in another one, at any depth. What a closure holds belongs to the closure,
and a literal that is returned is taken as a whole. -/
inductive Expr.Occurs (e : Expr) : Expr → Prop
  | here : Occurs e e
  | paren {inner : Expr} (h : Occurs e inner) : Occurs e (.paren inner)
  | block {labelled : Bool} {body : List Stmt} {s : Stmt} {part : Expr} (hs : s ∈ body)
    (hpart : part ∈ s.exprs) (h : Occurs e part) : Occurs e (.block labelled body)
  | operand {operand : Expr} (hother : ∀ text, ¬operand.IsText text) (h : Occurs e operand) :
    Occurs e (.ret (some operand))
  | value {values : List Expr} {inner value : Expr} (hvalue : value ∈ values)
    (h : Occurs e value) : Occurs e (.attributed values inner)
  | attributed {values : List Expr} {inner : Expr} (h : Occurs e inner) :
    Occurs e (.attributed values inner)
  | part {form : Form} {parts : List Expr} {part : Expr} (hpart : part ∈ parts)
    (h : Occurs e part) : Occurs e (.node form parts)

/-- A return that occurs in a statement, given by its operand. -/
def Stmt.Holds (s : Stmt) (operand : Option Expr) : Prop :=
  ∃ part ∈ s.exprs, Expr.Occurs (.ret operand) part

/-- The returns of several expressions are those of each in turn. -/
theorem Expr.returnsAll_eq (es : List Expr) : Expr.returnsAll es = es.flatMap Expr.returns := by
  induction es with
  | nil => rfl
  | cons e es ih => rw [Expr.returnsAll, ih, List.flatMap_cons]

/-- The returns of several statements are those of each in turn. -/
theorem Stmt.returnsAll_eq (ss : List Stmt) : Stmt.returnsAll ss = ss.flatMap Stmt.returns := by
  induction ss with
  | nil => rfl
  | cons s ss ih => rw [Stmt.returnsAll, ih, List.flatMap_cons]

private theorem Stmt.returns_eq (s : Stmt) : s.returns = s.exprs.flatMap Expr.returns := by
  cases s with
  | expr e semicolon => exact (List.append_nil _).symm
  | binding parts => exact Expr.returnsAll_eq parts
  | item tokens => rfl
  | invocation values argument semicolon => exact Expr.returnsAll_eq values

/-- All returns that count in an expression return a text. -/
def Expr.Agrees (text : String) (e : Expr) : Prop :=
  ∀ returned ∈ e.returns, returned = some text

/-- What occurs in an expression agrees on a text if the expression does. -/
theorem Expr.Agrees.of_occurs (h : whole.Agrees text) (hocc : Occurs e whole) : e.Agrees text := by
  induction hocc with
  | here => exact h
  | paren _ ih => exact ih h
  | @block labelled body s part hs hpart _ ih =>
    apply ih
    intro returned hreturned
    apply h
    rw [returns, Stmt.returnsAll_eq, List.mem_flatMap]
    refine ⟨s, hs, ?_⟩
    rw [Stmt.returns_eq]
    exact List.mem_flatMap.2 ⟨part, hpart, hreturned⟩
  | @operand operand hother _ _ =>
    -- An operand that is no literal would have been returned as no text.
    exact absurd (isText_iff.2 (h _ (List.mem_singleton_self _))) (hother text)
  | @value values inner value hvalue _ ih =>
    apply ih
    intro returned hreturned
    apply h
    rw [returns, Expr.returnsAll_eq]
    exact List.mem_append_left _ (List.mem_flatMap.2 ⟨value, hvalue, hreturned⟩)
  | @attributed values inner _ ih =>
    apply ih
    intro returned hreturned
    apply h
    rw [returns]
    exact List.mem_append_right _ hreturned
  | @part form parts part hpart _ ih =>
    apply ih
    intro returned hreturned
    apply h
    rw [returns, Expr.returnsAll_eq]
    exact List.mem_flatMap.2 ⟨part, hpart, hreturned⟩

mutual

/-- Everything that counts as returned in an expression is what a return in it returns. -/
theorem Expr.exists_occurs {returned : Option String} : (e : Expr) → returned ∈ e.returns →
    ∃ operand, Expr.Occurs (.ret operand) e ∧ returned = operand.bind Expr.stringValue?
  | .literal _, h | .unit, h | .invocation _, h | .verbatim, h | .closure _, h => by
    cases h
  | .ret operand, h => ⟨operand, .here, List.mem_singleton.1 h⟩
  | .paren inner, h => by
    obtain ⟨operand, hocc, heq⟩ := Expr.exists_occurs inner h
    exact ⟨operand, .paren hocc, heq⟩
  | .block labelled body, h => by
    obtain ⟨s, hs, operand, ⟨part, hpart, hocc⟩, heq⟩ := Stmt.exists_holds_of_mem body h
    exact ⟨operand, .block hs hpart hocc, heq⟩
  | .attributed values inner, h => by
    rcases List.mem_append.1 h with h | h
    · obtain ⟨value, hvalue, operand, hocc, heq⟩ := Expr.exists_occurs_of_mem values h
      exact ⟨operand, .value hvalue hocc, heq⟩
    · obtain ⟨operand, hocc, heq⟩ := Expr.exists_occurs inner h
      exact ⟨operand, .attributed hocc, heq⟩
  | .node form parts, h => by
    obtain ⟨part, hpart, operand, hocc, heq⟩ := Expr.exists_occurs_of_mem parts h
    exact ⟨operand, .part hpart hocc, heq⟩

/-- Everything that counts as returned in expressions is what a return in one of them returns. -/
theorem Expr.exists_occurs_of_mem {returned : Option String} : (es : List Expr) →
    returned ∈ Expr.returnsAll es →
    ∃ e ∈ es, ∃ operand, Expr.Occurs (.ret operand) e ∧ returned = operand.bind Expr.stringValue?
  | [], h => by cases h
  | e :: es, h => by
    rcases List.mem_append.1 h with h | h
    · exact ⟨e, List.mem_cons_self, Expr.exists_occurs e h⟩
    · obtain ⟨e', he', hocc⟩ := Expr.exists_occurs_of_mem es h
      exact ⟨e', List.mem_cons_of_mem e he', hocc⟩

/-- Everything that counts as returned in a statement is what a return in it returns. -/
theorem Stmt.exists_holds {returned : Option String} : (s : Stmt) → returned ∈ s.returns →
    ∃ operand, s.Holds operand ∧ returned = operand.bind Expr.stringValue?
  | .expr e _, h => by
    obtain ⟨operand, hocc, heq⟩ := Expr.exists_occurs e h
    exact ⟨operand, ⟨e, List.mem_singleton_self e, hocc⟩, heq⟩
  | .binding parts, h => by
    obtain ⟨part, hpart, operand, hocc, heq⟩ := Expr.exists_occurs_of_mem parts h
    exact ⟨operand, ⟨part, hpart, hocc⟩, heq⟩
  | .item _, h => by cases h
  | .invocation values _ _, h => by
    obtain ⟨value, hvalue, operand, hocc, heq⟩ := Expr.exists_occurs_of_mem values h
    exact ⟨operand, ⟨value, hvalue, hocc⟩, heq⟩

/-- Everything that counts as returned in statements is what a return in one of them returns. -/
theorem Stmt.exists_holds_of_mem {returned : Option String} : (ss : List Stmt) →
    returned ∈ Stmt.returnsAll ss →
    ∃ s ∈ ss, ∃ operand, s.Holds operand ∧ returned = operand.bind Expr.stringValue?
  | [], h => by cases h
  | s :: ss, h => by
    rcases List.mem_append.1 h with h | h
    · exact ⟨s, List.mem_cons_self, Stmt.exists_holds s h⟩
    · obtain ⟨s', hs', hholds⟩ := Stmt.exists_holds_of_mem ss h
      exact ⟨s', List.mem_cons_of_mem s hs', hholds⟩

end

/-- All that counts as returned is a text exactly if every return that occurs returns it. -/
theorem Stmt.forall_returns_iff (ss : List Stmt) (text : String) :
    (∀ returned ∈ Stmt.returnsAll ss, returned = some text) ↔
      ∀ s ∈ ss, ∀ operand, s.Holds operand → ReturnsText text operand := by
  constructor
  · rintro h s hs operand ⟨part, hpart, hocc⟩
    have hagrees : part.Agrees text := by
      intro returned hreturned
      apply h
      rw [Stmt.returnsAll_eq, List.mem_flatMap]
      refine ⟨s, hs, ?_⟩
      rw [Stmt.returns_eq]
      exact List.mem_flatMap.2 ⟨part, hpart, hreturned⟩
    exact returnsText_iff.2 (hagrees.of_occurs hocc _ (List.mem_singleton_self _))
  · intro h returned hreturned
    obtain ⟨s, hs, operand, hholds, rfl⟩ := Stmt.exists_holds_of_mem ss hreturned
    exact returnsText_iff.1 (h s hs operand hholds)

/-! ### Bodies -/

/-- A statement that does nothing: the unit value, or an empty block without a label. -/
inductive Stmt.DoesNothing : Stmt → Prop
  | unit {e : Expr} {semicolon : Bool} (h : e.bare = .unit) : DoesNothing (.expr e semicolon)
  | block {e : Expr} {semicolon : Bool} (h : e.bare = .block false []) :
    DoesNothing (.expr e semicolon)

private theorem Stmt.doesNothing_iff : s.DoesNothing ↔ s.isNoop = true := by
  constructor
  · rintro (h | h) <;> simp [isNoop, h]
  · intro h
    cases s with
    | expr e semicolon =>
      simp only [isNoop] at h
      split at h
      next hbare => exact .unit hbare
      next hbare => exact .block hbare
      next => cases h
    | _ => cases h

/-- A body whose first statement is a string literal for a text, with nothing behind it or one
statement that does nothing. -/
def Leads (text : String) (body : List Stmt) : Prop :=
  ∃ e semicolon rest, body = .expr e semicolon :: rest ∧ e.IsText text ∧
    (rest = [] ∨ ∃ second, rest = [second] ∧ second.DoesNothing)

/-- A body whose last statement returns a string literal for a text, and where every return that
occurs in the statements before it returns one for the same text. -/
def Concludes (text : String) (body : List Stmt) : Prop :=
  ∃ earlier e semicolon operand, body = earlier ++ [.expr e semicolon] ∧
    e.bare = .ret operand ∧ ReturnsText text operand ∧
    ∀ s ∈ earlier, ∀ operand, s.Holds operand → ReturnsText text operand

private theorem standsAlone_iff {rest : List Stmt} : standsAlone rest = true ↔
    rest = [] ∨ ∃ second, rest = [second] ∧ second.DoesNothing := by
  rcases rest with _ | ⟨second, _ | ⟨third, rest⟩⟩
  · simp [standsAlone]
  · simp [standsAlone, Stmt.doesNothing_iff]
  · simp [standsAlone]

/-- A body that starts with a text that stands alone carries this text. -/
theorem Leads.carriedText (h : Leads text body) : carriedText body = .ok text := by
  obtain ⟨e, semicolon, rest, rfl, htext, hrest⟩ := h
  have hvalue : (Stmt.expr e semicolon).stringLiteral?.bind StringLiteral.value? = some text := by
    rw [← Stmt.stringValue?_eq]
    exact Expr.isText_iff.1 htext
  obtain ⟨written, hwritten, hvalue⟩ := Option.bind_eq_some_iff.1 hvalue
  rw [carriedText_cons, hwritten, standsAlone_iff.2 hrest, Option.filter_some_pos rfl,
    Option.bind_some, hvalue]

/-- What a statement that is a return returns. -/
theorem Stmt.returned?_iff {returned : Option String} : s.returned? = some returned ↔
    ∃ e semicolon operand, s = .expr e semicolon ∧ e.bare = .ret operand ∧
      operand.bind Expr.stringValue? = returned := by
  constructor
  · intro h
    cases s with
    | expr e semicolon =>
      simp only [returned?] at h
      split at h
      next operand hbare => exact ⟨e, semicolon, operand, rfl, hbare, Option.some.inj h⟩
      next => cases h
    | _ => cases h
  · rintro ⟨e, semicolon, operand, rfl, hbare, rfl⟩
    simp [returned?, hbare]

/-- A return is no literal and does something. -/
theorem Stmt.of_returned? {returned : Option String} (h : s.returned? = some returned) :
    s.stringLiteral? = none ∧ s.isNoop = false := by
  obtain ⟨e, semicolon, operand, rfl, hbare, -⟩ := returned?_iff.1 h
  constructor
  · change e.stringLiteral? = none
    rw [← Expr.stringLiteral?_bare, hbare]
    rfl
  · simp [isNoop, hbare]

/-- What a body carries that ends with a return, by what is returned there. -/
def concluded (earlier : List Stmt) : Option String → Except BodyFault String
  | some text =>
    if (Stmt.returnsAll earlier).all (· = some text) then .ok text else .error .otherReturn
  | none => .error .finalReturn

/-- A leading literal does not count in a body that ends with a return. -/
theorem carriedText_concat {earlier : List Stmt} {last : Stmt} {returned : Option String}
    (hlast : last.returned? = some returned) :
    carriedText (earlier ++ [last]) = concluded earlier returned := by
  obtain ⟨hliteral, hnoop⟩ := Stmt.of_returned? hlast
  have hleading : ∀ first rest, earlier ++ [last] = first :: rest →
      (first.stringLiteral?.filter fun _ ↦ standsAlone rest) = none := by
    intro first rest hbody
    rcases earlier with _ | ⟨_, _ | ⟨second, _ | ⟨third, earlier⟩⟩⟩
    · cases hbody
      rw [hliteral, Option.filter_none]
    all_goals
      cases hbody
      cases first.stringLiteral? <;> simp [standsAlone, hnoop]
  cases hbody : earlier ++ [last] with
  | nil => simp at hbody
  | cons first rest =>
    rw [carriedText_cons, hleading first rest hbody, ← hbody, List.getLast?_concat,
      List.dropLast_concat, Option.bind_none, Option.bind_some, hlast]
    cases returned <;> rfl

/-- A body whose final return agrees with all others carries what it returns. -/
theorem Concludes.carriedText (h : Concludes text body) : carriedText body = .ok text := by
  obtain ⟨earlier, e, semicolon, operand, rfl, hbare, htext, hearlier⟩ := h
  have hlast : (Stmt.expr e semicolon).returned? = some (some text) :=
    Stmt.returned?_iff.2 ⟨e, semicolon, operand, rfl, hbare, returnsText_iff.1 htext⟩
  have hall : (Stmt.returnsAll earlier).all (· = some text) = true := by
    rw [List.all_eq_true]
    intro returned hreturned
    exact decide_eq_true ((Stmt.forall_returns_iff earlier text).2 hearlier returned hreturned)
  rw [carriedText_concat hlast, concluded, if_pos hall]

/-- A body that carries a text but does not end with a return starts with the text. -/
theorem Leads.of_carriedText (h : Host.carriedText body = .ok text)
    (hlast : body.getLast?.bind Stmt.returned? = none) : Leads text body := by
  rcases body with _ | ⟨first, rest⟩
  · cases h
  rw [carriedText_cons, hlast] at h
  split at h
  next leading hleading =>
    cases h
    obtain ⟨written, hwritten, hvalue⟩ := Option.bind_eq_some_iff.1 hleading
    obtain ⟨hliteral, halone⟩ := Option.filter_eq_some_iff.1 hwritten
    cases first with
    | expr e semicolon =>
      refine ⟨e, semicolon, rest, rfl, ?_, standsAlone_iff.1 halone⟩
      rw [Expr.isText_iff, Expr.stringValue?_eq]
      exact Option.bind_eq_some_iff.2 ⟨written, hliteral, hvalue⟩
    | _ => cases hliteral
  next => cases h

/-- A body that carries a text and ends with a return returns the text there and everywhere. -/
theorem Concludes.of_carriedText {returned : Option String}
    (h : Host.carriedText body = .ok text)
    (hfinal : body.getLast?.bind Stmt.returned? = some returned) : Concludes text body := by
  obtain ⟨last, hbody, hlast⟩ := Option.bind_eq_some_iff.1 hfinal
  obtain ⟨earlier, rfl⟩ := List.getLast?_eq_some_iff.1 hbody
  rw [carriedText_concat hlast] at h
  cases returned with
  | none => cases h
  | some returned =>
    rw [concluded] at h
    split at h
    next hall =>
      cases h
      obtain ⟨e, semicolon, operand, rfl, hbare, htext⟩ := Stmt.returned?_iff.1 hlast
      refine ⟨earlier, e, semicolon, operand, rfl, hbare, returnsText_iff.2 htext, ?_⟩
      rw [← Stmt.forall_returns_iff]
      intro returned hreturned
      exact of_decide_eq_true (List.all_eq_true.1 hall returned hreturned)
    next => cases h

/-- A body carries a text exactly in one of the three styles. -/
theorem carriedText_eq_ok_iff :
    carriedText body = .ok text ↔ Leads text body ∨ Concludes text body := by
  constructor
  · intro h
    cases hlast : body.getLast?.bind Stmt.returned? with
    | none => exact .inl (.of_carriedText h hlast)
    | some returned => exact .inr (.of_carriedText h hlast)
  · rintro (h | h)
    · exact h.carriedText
    · exact h.carriedText

/-- A function has guest code exactly if its body carries a text in one of the three styles, and
then the code is this text, without its margin and outer blanks. For every other body the error
names the function. -/
theorem FnItem.source_styles (item : FnItem) :
    (∀ code, item.source = .ok code ↔
      ∃ text, code = Text.settle text ∧ (Leads text item.body ∨ Concludes text item.body)) ∧
    ((∃ fault, item.source = .error (.body item.hostName fault)) ↔
      ¬∃ text, Leads text item.body ∨ Concludes text item.body) := by
  simp only [← carriedText_eq_ok_iff, FnItem.source]
  cases carriedText item.body with
  | ok text =>
    constructor
    · intro code
      constructor
      · intro h
        exact ⟨text, (Except.ok.inj h).symm, rfl⟩
      · rintro ⟨_, rfl, ⟨⟩⟩
        rfl
    · simp
  | error fault =>
    constructor
    · simp
    · simp

end GuestBridge.Host
