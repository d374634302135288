import GuestBridge.Host.Extraction
import GuestBridge.Proofs.Host.Grammar.Items
import GuestBridge.Proofs.Host.Grammar.Provenance

/-!
# The literal that carries the guest code

The guest code of a function is what one literal of its body stands for. Which literal that is
does not depend on what literals stand for: where literals are exchanged for others, the one in
its place carries the code. Names and parameters are the same whatever the literals are.
-/

namespace GuestBridge.Host

open Relabelling

variable {φ : Relabelling}

/-! ### Literals of statements -/

/-- The string literal that an expression consists of, as it is written. -/
def Expr.stringLiteral? : Expr → Option String
  | .literal text => if (StringLiteral.value? text).isSome then some text else none
  | .paren inner => inner.stringLiteral?
  | .attributed _ inner => inner.stringLiteral?
  | _ => none

/-- The string literal that a statement consists of, as it is written. -/
def Stmt.stringLiteral? : Stmt → Option String
  | .expr e _ => e.stringLiteral?
  | _ => none

/-- The string literal that a statement returns, as it is written. -/
def Stmt.returnedLiteral? : Stmt → Option String
  | .expr e _ =>
    match e.bare with
    | .ret operand => operand.bind Expr.stringLiteral?
    | _ => none
  | _ => none

/-- Nothing that does something follows the first statement. -/
def standsAlone : (rest : List Stmt) → Bool
  | [] => true
  | [second] => second.isNoop
  | _ => false

/-- The literal that carries the guest code of a body. -/
def guestLiteral? : List Stmt → Option String
  | [] => none
  | first :: rest =>
    (first.stringLiteral?.filter fun _ ↦ standsAlone rest).or
      ((first :: rest).getLast?.bind Stmt.returnedLiteral?)

/-- An expression that is a text consists of a literal for it. -/
theorem Expr.stringValue?_eq (e : Expr) :
    e.stringValue? = e.stringLiteral?.bind StringLiteral.value? := by
  fun_induction Expr.stringValue? e with
  | case1 text =>
    rw [stringLiteral?]
    split
    · rfl
    next h => simpa using h
  | case2 inner ih => simpa [stringLiteral?] using ih
  | case3 values inner ih => simpa [stringLiteral?] using ih
  | case4 e _ _ _ => cases e <;> simp_all [stringLiteral?]

/-- The string literal that an expression consists of is one that it carries. -/
theorem Expr.mem_carried_of_stringLiteral? {e : Expr} {t : String}
    (h : e.stringLiteral? = some t) :
    t ∈ e.carried ∧ (StringLiteral.value? t).isSome = true := by
  fun_induction Expr.stringLiteral? e with
  | case1 text hsome =>
    cases h
    exact ⟨List.mem_singleton_self t, hsome⟩
  | case2 text hnone => cases h
  | case3 inner ih => exact ih h
  | case4 values inner ih => exact ih h
  | case5 e _ _ _ => cases h

private theorem Expr.carried_bare (e : Expr) : e.bare.carried = e.carried := by
  fun_induction Expr.bare e with
  | case1 values e ih => simpa [carried] using ih
  | case2 e _ => rfl

private theorem Stmt.mem_carried_of_stringLiteral? {s : Stmt} {t : String}
    (h : s.stringLiteral? = some t) :
    t ∈ s.carried ∧ (StringLiteral.value? t).isSome = true := by
  cases s with
  | expr e semicolon => exact Expr.mem_carried_of_stringLiteral? h
  | _ => cases h

private theorem Stmt.mem_carried_of_returnedLiteral? {s : Stmt} {t : String}
    (h : s.returnedLiteral? = some t) :
    t ∈ s.carried ∧ (StringLiteral.value? t).isSome = true := by
  cases s with
  | expr e semicolon =>
    simp only [returnedLiteral?] at h
    split at h
    next operand hbare =>
      obtain ⟨operand, rfl, h⟩ := Option.bind_eq_some_iff.1 h
      rw [carried, ← Expr.carried_bare, hbare, Expr.carried]
      exact Expr.mem_carried_of_stringLiteral? h
    next => cases h
  | _ => cases h

/-- The literal that carries the guest code of a body is one that a statement of it carries. -/
theorem mem_carried_of_guestLiteral? {body : List Stmt} {t : String}
    (h : guestLiteral? body = some t) :
    ∃ s ∈ body, t ∈ s.carried ∧ (StringLiteral.value? t).isSome = true := by
  rcases body with _ | ⟨first, rest⟩
  · cases h
  · rcases Option.or_eq_some_iff.1 h with h | ⟨-, h⟩
    · exact ⟨first, List.mem_cons_self,
        Stmt.mem_carried_of_stringLiteral? (Option.filter_eq_some_iff.1 h).1⟩
    · obtain ⟨last, hlast, h⟩ := Option.bind_eq_some_iff.1 h
      exact ⟨last, List.mem_of_getLast? hlast, Stmt.mem_carried_of_returnedLiteral? h⟩

/-! ### Guest code -/

/-- The value of a statement is the value of its string literal. -/
theorem Stmt.stringValue?_eq (s : Stmt) :
    s.stringValue? = s.stringLiteral?.bind StringLiteral.value? := by
  cases s with
  | expr e semicolon => exact e.stringValue?_eq
  | _ => rfl

/-- A statement that returns a text returns a literal for it. -/
theorem Stmt.returned?_eq_some {s : Stmt} {text : String} :
    s.returned? = some (some text) ↔
      ∃ t, s.returnedLiteral? = some t ∧ StringLiteral.value? t = some text := by
  cases s with
  | expr e semicolon =>
    simp only [returned?, returnedLiteral?]
    cases e.bare with
    | ret operand =>
      cases operand with
      | none => simp
      | some operand => simp [Expr.stringValue?_eq, Option.bind_eq_some_iff]
    | _ => simp
  | _ => simp [returned?, returnedLiteral?]

/-- How a body carries its text: by a leading literal that stands alone, or by a final return. -/
theorem carriedText_cons (first : Stmt) (rest : List Stmt) : carriedText (first :: rest) =
    match (first.stringLiteral?.filter fun _ ↦ standsAlone rest).bind StringLiteral.value? with
    | some text => .ok text
    | none =>
      match (first :: rest).getLast?.bind Stmt.returned? with
      | some (some text) =>
        if (Stmt.returnsAll (first :: rest).dropLast).all (· = some text) then .ok text
        else .error .otherReturn
      | some none => .error .finalReturn
      | none => .error (if first.stringValue?.isSome then .trailing else .noStyle) := by
  have hleading (alone : Bool) : (first.stringLiteral?.filter fun _ ↦ alone).bind
      StringLiteral.value? = first.stringValue?.filter fun _ ↦ alone := by
    rw [Stmt.stringValue?_eq]
    rcases first.stringLiteral? with _ | t
    · rfl
    · cases hvalue : StringLiteral.value? t <;> cases alone <;> simp [Option.filter_some, hvalue]
  rw [hleading]
  rcases rest with _ | ⟨second, _ | _⟩ <;> rfl

/-- What a body carries is what the literal in its place stands for. -/
theorem guestLiteral?_of_carriedText {body : List Stmt} {s : String}
    (h : carriedText body = .ok s) :
    ∃ t, guestLiteral? body = some t ∧ StringLiteral.value? t = some s := by
  rcases body with _ | ⟨first, rest⟩
  · cases h
  · rw [carriedText_cons] at h
    rw [guestLiteral?]
    cases hleading : first.stringLiteral?.filter fun _ ↦ standsAlone rest with
    | some t =>
      have hsome :=
        (Stmt.mem_carried_of_stringLiteral? (Option.filter_eq_some_iff.1 hleading).1).2
      obtain ⟨text, hvalue⟩ := Option.isSome_iff_exists.1 hsome
      rw [hleading, Option.bind_some, hvalue] at h
      cases h
      exact ⟨t, rfl, hvalue⟩
    | none =>
      rw [hleading, Option.bind_none] at h
      dsimp only at h
      split at h
      next text hfinal =>
        obtain ⟨last, hlast, hreturned⟩ := Option.bind_eq_some_iff.1 hfinal
        obtain ⟨t, ht, hvalue⟩ := Stmt.returned?_eq_some.1 hreturned
        split at h
        · cases h
          exact ⟨t, by rw [Option.none_or, hlast, Option.bind_some, ht], hvalue⟩
        · cases h
      · cases h
      · cases h

/-- The literal in its place makes up what a body carries if everything that is returned early is
what it stands for. -/
theorem carriedText_of_guestLiteral? {body : List Stmt} {t s : String}
    (h : guestLiteral? body = some t) (hvalue : StringLiteral.value? t = some s)
    (hreturns : ∀ r ∈ Stmt.returnsAll body.dropLast, r = some s) : carriedText body = .ok s := by
  rcases body with _ | ⟨first, rest⟩
  · cases h
  · rw [carriedText_cons]
    rcases Option.or_eq_some_iff.1 h with h | ⟨hleading, h⟩
    · rw [h, Option.bind_some, hvalue]
    · obtain ⟨last, hlast, h⟩ := Option.bind_eq_some_iff.1 h
      have hreturned : last.returned? = some (some s) :=
        Stmt.returned?_eq_some.2 ⟨t, h, hvalue⟩
      have hall : (Stmt.returnsAll (first :: rest).dropLast).all (· = some s) = true :=
        List.all_eq_true.2 fun r hr ↦ decide_eq_true (hreturns r hr)
      rw [hleading, hlast, Option.bind_none, Option.bind_some, hreturned]
      exact if_pos hall

/-! ### Other literals -/

@[simp] private theorem Expr.stringLiteral?_on (e : Expr) :
    (φ.on e).stringLiteral? = e.stringLiteral?.map φ.text := by
  fun_induction Expr.stringLiteral? e with
  | case1 text hsome =>
    have hon : (StringLiteral.value? (φ.text text)).isSome = true := by
      rw [φ.value?, Option.isSome_map, hsome]
    simp [stringLiteral?, hon]
  | case2 text hnone =>
    have hon : ¬(StringLiteral.value? (φ.text text)).isSome = true := by
      rwa [φ.value?, Option.isSome_map]
    simp [stringLiteral?, hon]
  | case3 inner ih => simpa [stringLiteral?] using ih
  | case4 values inner ih => simpa [stringLiteral?] using ih
  | case5 e _ _ _ => cases e <;> simp_all [stringLiteral?]

@[simp] private theorem Stmt.stringLiteral?_on (s : Stmt) :
    (φ.on s).stringLiteral? = s.stringLiteral?.map φ.text := by
  cases s <;> simp [stringLiteral?]

@[simp] private theorem Stmt.returnedLiteral?_on (s : Stmt) :
    (φ.on s).returnedLiteral? = s.returnedLiteral?.map φ.text := by
  cases s with
  | expr e semicolon =>
    simp only [on_exprStmt, returnedLiteral?, Expr.bare_on]
    rcases e.bare with _ | _ | _ | _ | operand | _ | _ | _ | _ | _
    case ret => cases operand <;> simp
    all_goals simp
  | _ => simp [returnedLiteral?]

@[simp] private theorem Stmt.isNoop_on (s : Stmt) : (φ.on s).isNoop = s.isNoop := by
  cases s with
  | expr e semicolon =>
    simp only [on_exprStmt, isNoop, Expr.bare_on]
    rcases e.bare with _ | _ | _ | ⟨_ | _, _ | _⟩ | _ | _ | _ | _ | _ | _ <;> simp
  | _ => simp [isNoop]

/-- The literal of a relabelled body is the literal of the body, relabelled. -/
theorem guestLiteral?_on (body : List Stmt) :
    guestLiteral? (φ.on body) = (guestLiteral? body).map φ.text := by
  rcases body with _ | ⟨first, rest⟩
  · rfl
  · have halone : standsAlone (φ.on rest) = standsAlone rest := by
      rcases rest with _ | ⟨second, _ | _⟩ <;> simp [standsAlone]
    have hleading (o : Option String) (alone : Bool) :
        ((o.map φ.text).filter fun _ ↦ alone) = (o.filter fun _ ↦ alone).map φ.text := by
      cases o <;> cases alone <;> rfl
    have hlast : (φ.on (first :: rest)).getLast? = (first :: rest).getLast?.map φ.on :=
      List.getLast?_map
    rw [on_cons, guestLiteral?, guestLiteral?, Stmt.stringLiteral?_on, halone, hleading, ← on_cons,
      hlast]
    cases first.stringLiteral?.filter fun _ ↦ standsAlone rest with
    | some t => rfl
    | none => cases (first :: rest).getLast? <;> simp

mutual

/-- The returns in an expression return the new texts. -/
theorem Expr.returns_on : (e : Expr) →
    (φ.on e).returns = e.returns.map (Option.map φ.value)
  | .literal _ | .unit | .invocation _ | .verbatim => rfl
  | .closure _ => rfl
  | .ret operand => by cases operand <;> simp [Expr.returns]
  | .paren inner => by simpa [Expr.returns] using Expr.returns_on inner
  | .block _ body => by simpa [Expr.returns] using Stmt.returnsAll_on body
  | .attributed values inner => by
    simp [Expr.returns, Expr.returnsAll_on values, Expr.returns_on inner]
  | .node _ parts => by simpa [Expr.returns] using Expr.returnsAll_on parts

/-- The returns in expressions return the new texts. -/
theorem Expr.returnsAll_on : (es : List Expr) →
    Expr.returnsAll (φ.on es) = (Expr.returnsAll es).map (Option.map φ.value)
  | [] => rfl
  | e :: es => by simp [Expr.returnsAll, Expr.returns_on e, Expr.returnsAll_on es]

/-- The returns in a statement return the new texts. -/
theorem Stmt.returns_on : (s : Stmt) →
    (φ.on s).returns = s.returns.map (Option.map φ.value)
  | .expr e _ => by simpa [Stmt.returns] using Expr.returns_on e
  | .binding parts => by simpa [Stmt.returns] using Expr.returnsAll_on parts
  | .item _ => rfl
  | .invocation values _ _ => by simpa [Stmt.returns] using Expr.returnsAll_on values

/-- The returns in statements return the new texts. -/
theorem Stmt.returnsAll_on : (ss : List Stmt) →
    Stmt.returnsAll (φ.on ss) = (Stmt.returnsAll ss).map (Option.map φ.value)
  | [] => rfl
  | s :: ss => by simp [Stmt.returnsAll, Stmt.returns_on s, Stmt.returnsAll_on ss]

end

/-! ### Names -/

/-- A relabelling keeps the name of a function. -/
theorem FnItem.hostName_on (item : FnItem) : (φ.on item).hostName = item.hostName := rfl

/-- Parameters are taken up by their names alone. -/
theorem FnItem.paramNames_on (item : FnItem) : (φ.on item).paramNames = item.paramNames := by
  have hname (p : Param) : paramName (φ.on p) = paramName p := by
    rcases p with _ | ⟨_ | _ | _ | _ | _ | _ | _ | _ | _, type⟩
    case typed.name word refined => cases refined <;> rfl
    all_goals rfl
  have hparams : (φ.on item).params = item.params.map φ.on := rfl
  rw [paramNames, paramNames, hostName_on, hparams, List.mapM_map]
  simp only [Function.comp_def, hname]

end GuestBridge.Host
