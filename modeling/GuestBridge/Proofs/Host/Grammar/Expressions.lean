import GuestBridge.Host.Grammar.Statement
import GuestBridge.Proofs.Host.Grammar.Types

/-!
# Expressions and statements with other literals

The rules for operators, operands and statements go the same way when literals are exchanged
for others of the same kinds.
-/

namespace GuestBridge.Host

instance : Relabels Grammar.PathStart := ⟨fun _ a ↦ a⟩
instance : Relabelling.Inert Grammar.PathStart := ⟨fun _ _ ↦ rfl⟩

namespace Expr

variable {φ : Relabelling}

/-- Taking the attributes off an expression commutes with relabelling. -/
@[simp] theorem bare_on (e : Expr) : (φ.on e).bare = φ.on e.bare := by
  fun_induction Expr.bare e with
  | case1 values e ih => simpa [Expr.bare] using ih
  | case2 e _ => cases e <;> simp_all [Expr.bare]

@[simp] private theorem form_on (e : Expr) : (φ.on e).form = e.form := by
  simp only [form, bare_on]
  cases e.bare <;> simp

@[simp] private theorem withAttributes_on (values : List Expr) (e : Expr) :
    withAttributes (φ.on values) (φ.on e) = φ.on (withAttributes values e) := by
  cases e <;> simp [withAttributes]

@[simp] private theorem withAttributes_node_on (values : List Expr) (form : Form) (e : Expr) :
    withAttributes (φ.on values) (.node form [φ.on e]) =
      φ.on (withAttributes values (.node form [e])) :=
  withAttributes_on values (.node form [e])

@[simp] private theorem withAttributes_block_on (values : List Expr) (labelled : Bool)
    (body : List Stmt) :
    withAttributes (φ.on values) (.block labelled (φ.on body)) =
      φ.on (withAttributes values (.block labelled body)) := by
  rw [← Relabelling.on_block, withAttributes_on]

end Expr

namespace Grammar

open Reader Relabelling

variable {φ : Relabelling} {g : Grammar}

/-! ### Operator -/

instance : Test.Natural assigns := by
  unfold assigns
  infer_instance

@[simp] private theorem binaryOperator?_on (ts : List Token) :
    binaryOperator? (φ.on ts) = binaryOperator? ts := by
  simp [binaryOperator?, Test.Natural.on_eq]

@[simp] private theorem nextStrength_on (ts : List Token) :
    nextStrength (φ.on ts) = nextStrength ts := by
  simp [nextStrength, Test.Natural.on_eq]

@[simp] private theorem extendRight_on [g.Natural] (records : Bool) (strength fuel : Nat) (e : Expr)
    (c : Cursor) : g.extendRight records strength fuel (φ.on e) (φ.on c) =
      φ.on (g.extendRight records strength fuel e c) := by
  induction fuel generalizing e c with
  | zero => simp [extendRight]
  | succ fuel ih => simp [extendRight, ih]

@[simp] private theorem rightOperand_on [g.Natural] (records : Bool) (strength : Nat) (c : Cursor) :
    g.rightOperand records strength (φ.on c) = φ.on (g.rightOperand records strength c) := by
  have hextend (e : Expr) := bounded_on_eq fun fuel c ↦
    extendRight_on (φ := φ) (g := g) records strength fuel e c
  simp [rightOperand, hextend]

instance (records : Bool) : Test.Natural (endsRange records) := by
  unfold endsRange
  infer_instance

@[simp] private theorem rangeEnd_on [g.Natural] (records : Bool) (c : Cursor) :
    g.rangeEnd records (φ.on c) = φ.on (g.rangeEnd records c) := by
  simp [rangeEnd]

instance : Test.Natural appliesToCast := by
  unfold appliesToCast
  infer_instance

/-- The rule for operators commutes with relabelling. -/
@[simp] theorem operatorsRule_on [g.Natural] (records : Bool) (base : Nat) (left : Expr)
    (c : Cursor) : g.operatorsRule records base (φ.on left) (φ.on c) =
      φ.on (g.operatorsRule records base left c) := by
  have hnode (form : Form) (e : Expr) (es : List Expr) (c : Cursor) :
      g.operators records base (.node form (φ.on e :: φ.on es)) (φ.on c) =
        φ.on (g.operators records base (.node form (e :: es)) c) := by
    rw [← on_cons, ← on_node, Natural.operators]
  have hpair (form : Form) (e e' : Expr) (c : Cursor) :
      g.operators records base (.node form [φ.on e, φ.on e']) (φ.on c) =
        φ.on (g.operators records base (.node form [e, e']) c) :=
    hnode form e [e'] c
  simp only [operatorsRule, Expr.form_on, ite_reader, bind_apply, ahead_apply, Option.bind_some,
    rest_on, binaryOperator?_on, on_ite]
  congr 1
  rcases binaryOperator? c.rest with _ | ⟨op, strength⟩
  · simp [hnode, hpair]
  · simp [hpair]

/-! ### Operand -/

instance : Test.Natural startsExpr := by
  unfold startsExpr
  infer_instance

@[simp] private theorem exprAttributes_on [g.Natural] (c : Cursor) :
    g.exprAttributes (φ.on c) = φ.on (g.exprAttributes c) := by
  simp [exprAttributes]

@[simp] private theorem exprList_on [g.Natural] (c : Cursor) :
    g.exprList (φ.on c) = φ.on (g.exprList c) := by
  simp [exprList]

@[simp] private theorem fieldValue_on [g.Natural] (c : Cursor) :
    g.fieldValue (φ.on c) = φ.on (g.fieldValue c) := by
  simp [fieldValue]

@[simp] private theorem fieldValues_on [g.Natural] (fuel : Nat) (c : Cursor) :
    g.fieldValues fuel (φ.on c) = φ.on (g.fieldValues fuel c) := by
  induction fuel generalizing c with
  | zero => simp [fieldValues]
  | succ fuel ih => simp [fieldValues, ih]

@[simp] private theorem pathExpr_on [g.Natural] (records : Bool) (c : Cursor) :
    g.pathExpr records (φ.on c) = φ.on (g.pathExpr records c) := by
  simp [pathExpr]

@[simp] private theorem parenExpr_on [g.Natural] (c : Cursor) :
    g.parenExpr (φ.on c) = φ.on (g.parenExpr c) := by
  simp [parenExpr]

@[simp] private theorem bracketExpr_on [g.Natural] (c : Cursor) :
    g.bracketExpr (φ.on c) = φ.on (g.bracketExpr c) := by
  simp [bracketExpr]

@[simp] private theorem breakExpr_on [g.Natural] (records : Bool) (c : Cursor) :
    g.breakExpr records (φ.on c) = φ.on (g.breakExpr records c) := by
  simp [breakExpr]

@[simp] private theorem operand?_on [g.Natural] (c : Cursor) :
    g.operand? (φ.on c) = φ.on (g.operand? c) := by
  simp [operand?]

@[simp] private theorem letExpr_on [g.Natural] (records : Bool) (c : Cursor) :
    g.letExpr records (φ.on c) = φ.on (g.letExpr records c) := by
  simp [letExpr]

@[simp] private theorem ifExpr_on [g.Natural] (fuel : Nat) (c : Cursor) :
    g.ifExpr fuel (φ.on c) = φ.on (g.ifExpr fuel c) := by
  induction fuel generalizing c with
  | zero => simp [ifExpr]
  | succ fuel ih => simp [ifExpr, ih]

@[simp] private theorem whileExpr_on [g.Natural] (c : Cursor) :
    g.whileExpr (φ.on c) = φ.on (g.whileExpr c) := by
  simp [whileExpr]

@[simp] private theorem forExpr_on [g.Natural] (c : Cursor) :
    g.forExpr (φ.on c) = φ.on (g.forExpr c) := by
  simp [forExpr]

@[simp] private theorem keywordBlock_on [g.Natural] (keyword : String) (c : Cursor) :
    g.keywordBlock keyword (φ.on c) = φ.on (g.keywordBlock keyword c) := by
  simp [keywordBlock]

@[simp] private theorem blockExpr_on [g.Natural] (labelled : Bool) (c : Cursor) :
    g.blockExpr labelled (φ.on c) = φ.on (g.blockExpr labelled c) := by
  simp [blockExpr]

@[simp] private theorem arm_on [g.Natural] (c : Cursor) : g.arm (φ.on c) = φ.on (g.arm c) := by
  simp [arm]

@[simp] private theorem matchExpr_on [g.Natural] (c : Cursor) :
    g.matchExpr (φ.on c) = φ.on (g.matchExpr c) := by
  have harms := group_on (φ := φ)
    (r := do let _ ← g.innerAttributes; repeatUntil Test.atEnd g.arm) (by simp) .brace
  simp [matchExpr, harms]

@[simp] private theorem labelledExpr_on [g.Natural] (c : Cursor) :
    g.labelledExpr (φ.on c) = φ.on (g.labelledExpr c) := by
  simp [labelledExpr]

@[simp] private theorem closureParam_on [g.Natural] (c : Cursor) :
    g.closureParam (φ.on c) = φ.on (g.closureParam c) := by
  simp [closureParam]

@[simp] private theorem closureExpr_on [g.Natural] (records : Bool) (c : Cursor) :
    g.closureExpr records (φ.on c) = φ.on (g.closureExpr records c) := by
  simp [closureExpr]

instance : Test.Natural startsBinder := by
  unfold startsBinder
  infer_instance

instance : Test.Natural startsClosure := by
  unfold startsClosure
  infer_instance

instance : Test.Natural startsAsync := by
  unfold startsAsync
  infer_instance

instance : Test.Natural startsTry := by
  unfold startsTry
  infer_instance

@[simp] private theorem atom_on [g.Natural] (records : Bool) (c : Cursor) :
    g.atom records (φ.on c) = φ.on (g.atom records c) := by
  simp [atom]

instance : Test.Natural positions.float :=
  natural_of_number NumberLiteral.isFloat (fun _ h ↦ (Bool.and_eq_true_iff.1 h).1) rfl

@[simp] private theorem positions_on (c : Cursor) : positions (φ.on c) = φ.on (positions c) := by
  have hfloat := Test.Natural.on_eq (t := positions.float) φ c.rest
  by_cases h : positions.float c.rest = true
  · obtain ⟨_ | ⟨_ | _ | _ | text | _, rest⟩, taken, embedded⟩ := c
    case cons.literal =>
      have hfix := φ.number text (Bool.and_eq_true_iff.1 h).1
      have hrest (ts : List Token) : positions.float (.literal text :: ts) = true := h
      cases hindices : NumberLiteral.indices? text <;>
        simp [positions, peek, takeIf, hrest, hfix, hindices]
    all_goals cases h
  · simp [positions, peek, hfloat, h]

@[simp] private theorem field_on [g.Natural] (e : Expr) (c : Cursor) :
    g.field (φ.on e) (φ.on c) = φ.on (g.field e c) := by
  simp [field]

@[simp] private theorem selection_on [g.Natural] (e : Expr) (c : Cursor) :
    g.selection (φ.on e) (φ.on c) = φ.on (g.selection e c) := by
  simp [selection]

@[simp] private theorem applications_on [g.Natural] (fuel : Nat) (e : Expr) (c : Cursor) :
    g.applications fuel (φ.on e) (φ.on c) = φ.on (g.applications fuel e c) := by
  induction fuel generalizing e c with
  | zero => simp [applications]
  | succ fuel ih =>
    have hnode (es : List Expr) (c : Cursor) :
        g.applications fuel (.node .plain (φ.on e :: φ.on es)) (φ.on c) =
          φ.on (g.applications fuel (.node .plain (e :: es)) c) := by
      rw [← on_cons, ← on_node, ih]
    have hsingle (c : Cursor) : g.applications fuel (.node .plain [φ.on e]) (φ.on c) =
        φ.on (g.applications fuel (.node .plain [e]) c) :=
      hnode [] c
    have hpair (e' : Expr) (c : Cursor) :
        g.applications fuel (.node .plain [φ.on e, φ.on e']) (φ.on c) =
          φ.on (g.applications fuel (.node .plain [e, e']) c) :=
      hnode [e'] c
    simp [applications, ih, hnode, hsingle, hpair]

@[simp] private theorem applied_on [g.Natural] (e : Expr) (c : Cursor) :
    g.applied (φ.on e) (φ.on c) = φ.on (g.applied e c) :=
  bounded_on_eq (fun fuel ↦ applications_on fuel e) c

/-- The rule for unary expressions commutes with relabelling. -/
@[simp] theorem unaryRule_on [g.Natural] (records : Bool) (c : Cursor) :
    g.unaryRule records (φ.on c) = φ.on (g.unaryRule records c) := by
  simp [unaryRule]

/-- The rule for expressions commutes with relabelling. -/
@[simp] theorem exprRule_on [g.Natural] (records : Bool) (c : Cursor) :
    g.exprRule records (φ.on c) = φ.on (g.exprRule records c) := by
  simp [exprRule]

/-- The rule for expressions that may end with their block commutes with relabelling. -/
@[simp] theorem earlyRule_on [g.Natural] (c : Cursor) :
    g.earlyRule (φ.on c) = φ.on (g.earlyRule c) := by
  simp [earlyRule]

/-! ### Statement -/

@[simp] private theorem endsBraced_on (ts : List Token) : endsBraced (φ.on ts) = endsBraced ts := by
  have hlast : (φ.on ts).getLast? = φ.on ts.getLast? := by
    simp [on_list, on_option]
  simp only [endsBraced, hlast]
  rcases ts.getLast? with _ | _ | _ | _ | _ | ⟨_ | _ | _, inner⟩ <;> simp

@[simp] private theorem bindingValue_on [g.Natural] (c : Cursor) :
    g.bindingValue (φ.on c) = φ.on (g.bindingValue c) := by
  simp [bindingValue]

@[simp] private theorem bindingStmt_on [g.Natural] (c : Cursor) :
    g.bindingStmt (φ.on c) = φ.on (g.bindingStmt c) := by
  simp [bindingStmt]

instance : Test.Natural startsItem := by
  unfold startsItem
  infer_instance

@[simp] private theorem pathStart_on (c : Cursor) : pathStart (φ.on c) = φ.on (pathStart c) := by
  simp [pathStart]

/-- Whether a macro's argument stands in braces does not depend on its literals. -/
@[simp] theorem brace_on (argument : Token) : Test.brace [φ.on argument] = Test.brace [argument] :=
  Test.Natural.on_eq (t := Test.brace) φ [argument]

@[simp] private theorem stmtOf_on (values : List Expr) (e : Expr) (semicolon : Bool) :
    stmtOf (φ.on values) (φ.on e) semicolon = φ.on (stmtOf values e semicolon) := by
  simp only [stmtOf, Expr.bare_on]
  rcases e.bare with _ | _ | _ | _ | _ | _ | argument | _ | _ | _ <;> simp

@[simp] private theorem exprStmt_on [g.Natural] (values : List Expr) (c : Cursor) :
    g.exprStmt (φ.on values) (φ.on c) = φ.on (g.exprStmt values c) := by
  simp [exprStmt]

@[simp] private theorem stmt_on [g.Natural] (c : Cursor) : g.stmt (φ.on c) = φ.on (g.stmt c) := by
  simp [stmt]

@[simp] private theorem lacksSemicolon_on (s : Stmt) :
    lacksSemicolon (φ.on s) = lacksSemicolon s := by
  cases s <;> simp [lacksSemicolon]

@[simp] private theorem statementList_on [g.Natural] (fuel : Nat) (c : Cursor) :
    g.statementList fuel (φ.on c) = φ.on (g.statementList fuel c) := by
  induction fuel generalizing c with
  | zero => simp [statementList]
  | succ fuel ih => simp [statementList, ih]

/-- The rule for statements commutes with relabelling. -/
@[simp] theorem statementsRule_on [g.Natural] (c : Cursor) :
    g.statementsRule (φ.on c) = φ.on (g.statementsRule c) := by
  simp [statementsRule]

end Grammar

end GuestBridge.Host
