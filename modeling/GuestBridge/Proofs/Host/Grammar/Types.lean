import GuestBridge.Host.Grammar.Pattern
import GuestBridge.Proofs.Host.Grammar.Literals

/-!
# Types and patterns with other literals

The rules for attributes, paths, bounds, types and patterns go the same way when literals are
exchanged for others of the same kinds.
-/

namespace GuestBridge.Host

/-- The readers of a grammar go the same way for other literals. -/
class Grammar.Natural (g : Grammar) : Prop where
  type (φ : Relabelling) (plus : Bool) (c : Cursor) :
    g.type plus (φ.on c) = φ.on (g.type plus c)
  bound (φ : Relabelling) (capturing constant : Bool) (c : Cursor) :
    g.bound capturing constant (φ.on c) = φ.on (g.bound capturing constant c)
  pattern (φ : Relabelling) (c : Cursor) : g.pattern (φ.on c) = φ.on (g.pattern c)
  expr (φ : Relabelling) (records : Bool) (c : Cursor) :
    g.expr records (φ.on c) = φ.on (g.expr records c)
  unary (φ : Relabelling) (records : Bool) (c : Cursor) :
    g.unary records (φ.on c) = φ.on (g.unary records c)
  operators (φ : Relabelling) (records : Bool) (base : Nat) (left : Expr) (c : Cursor) :
    g.operators records base (φ.on left) (φ.on c) = φ.on (g.operators records base left c)
  early (φ : Relabelling) (c : Cursor) : g.early (φ.on c) = φ.on (g.early c)
  statements (φ : Relabelling) (c : Cursor) : g.statements (φ.on c) = φ.on (g.statements c)
  item (φ : Relabelling) (c : Cursor) : g.item (φ.on c) = φ.on (g.item c)
  useTree (φ : Relabelling) (rooted : Bool) (c : Cursor) :
    g.useTree rooted (φ.on c) = φ.on (g.useTree rooted c)

attribute [simp] Grammar.Natural.type Grammar.Natural.bound Grammar.Natural.pattern
  Grammar.Natural.expr Grammar.Natural.unary Grammar.Natural.operators Grammar.Natural.early
  Grammar.Natural.statements Grammar.Natural.item Grammar.Natural.useTree

instance : Relabels Attr := ⟨fun φ a ↦ ⟨φ.on a.tokens, a.inner, a.doc.map φ.value⟩⟩
instance : Relabels GenericArg := ⟨fun φ a ↦ ⟨a.isLifetime, φ.on a.tokens, a.comma⟩⟩
instance : Relabels PathShape := ⟨fun _ a ↦ a⟩
instance : Relabels Grammar.Parenthesised := ⟨fun _ a ↦ a⟩

namespace Relabelling

instance : Inert PathShape := ⟨fun _ _ ↦ rfl⟩
instance : Inert Grammar.Parenthesised := ⟨fun _ _ ↦ rfl⟩

variable {φ : Relabelling}

/-- A relabelling changes an attribute's doc text as it does the value of any string literal. -/
@[simp] theorem on_attr (tokens : List Token) (inner : Bool) (doc : Option String) :
    φ.on (⟨tokens, inner, doc⟩ : Attr) = ⟨φ.on tokens, inner, doc.map φ.value⟩ := rfl

/-- A relabelling reaches the tokens of a generic argument. -/
@[simp] theorem on_genericArg (isLifetime comma : Bool) (tokens : List Token) :
    φ.on (⟨isLifetime, tokens, comma⟩ : GenericArg) = ⟨isLifetime, φ.on tokens, comma⟩ := rfl

end Relabelling

namespace Grammar

open Reader Relabelling

variable {φ : Relabelling} {g : Grammar}

/-! ### Basic -/

/-- Reading a literal commutes with relabelling. -/
@[simp] theorem literal_on (c : Cursor) : literal (φ.on c) = φ.on (literal c) := by
  obtain ⟨rest, taken, embedded⟩ := c
  cases h : Test.literal rest with
  | true =>
    obtain ⟨text, rest, rfl⟩ | ⟨word, rest, rfl, hword⟩ | ⟨joint, text, rest, rfl, hnumber⟩ :=
      Test.literal_cases h
    · rfl
    · have hon : φ.on (⟨.word word :: rest, taken, embedded⟩ : Cursor) =
          ⟨.word word :: φ.on rest, φ.on taken, φ.on embedded⟩ := rfl
      rw [hon, literal_truth hword, literal_truth hword]
      simp [φ.truth word hword]
    · have hon : φ.on (⟨.punct '-' joint :: .literal text :: rest, taken, embedded⟩ : Cursor) =
          ⟨.punct '-' joint :: .literal text :: φ.on rest, φ.on taken, φ.on embedded⟩ := by
        simp [φ.number text hnumber]
      rw [hon, literal_negated hnumber, literal_negated hnumber]
      simp [φ.number text hnumber, φ.negative text hnumber]
  | false =>
    have hon : literal (φ.on (⟨rest, taken, embedded⟩ : Cursor)) = none :=
      literal_other ((Test.Natural.on_eq φ rest).trans h)
    rw [hon, literal_other h]
    rfl

@[simp] private theorem segment_on (c : Cursor) :
    simplePath.segment (φ.on c) = φ.on (simplePath.segment c) := by
  simp [simplePath.segment]

/-- Reading a path of bare words commutes with relabelling. -/
@[simp] theorem simplePath_on (c : Cursor) : simplePath (φ.on c) = φ.on (simplePath c) := by
  simp [simplePath]

/-- A string literal stands for the new value. -/
@[simp] theorem stringValue?_on (e : Expr) :
    (φ.on e).stringValue? = e.stringValue?.map φ.value := by
  fun_induction Expr.stringValue? e with
  | case1 text => exact φ.value? text
  | case2 inner ih => simpa [Expr.stringValue?] using ih
  | case3 values inner ih => simpa [Expr.stringValue?] using ih
  | case4 e _ _ _ => cases e <;> simp_all [Expr.stringValue?]

/-- An answer changes as the answers that it goes on to do. -/
theorem bind_eq_map {α β : Type} {f : β → β} {o : Option α} {k k' : α → Option β}
    (h : ∀ a, k' a = (k a).map f) : o.bind k' = (o.bind k).map f := by
  cases o with
  | none => rfl
  | some a => exact h a

/-- The documentation that an attribute holds gets the new value. -/
theorem attrValue_on [g.Natural] (path : Option String) (c : Cursor) : g.attrValue path (φ.on c) =
    (g.attrValue path c).map fun p ↦ (p.1.map φ.value, φ.on p.2) := by
  simp only [attrValue, bind_apply, peek_on, bind_on]
  refine bind_eq_map fun ⟨grouped, c⟩ ↦ ?_
  cases grouped with
  | true =>
    simp only [on_pair, on_inert, ↓reduceIte, bind_apply, anyGroup_on, bind_on]
    exact bind_eq_map fun _ ↦ rfl
  | false =>
    simp only [on_pair, on_inert, Bool.false_eq_true, ↓reduceIte, bind_apply, punct?_on, bind_on]
    refine bind_eq_map fun ⟨equals, c⟩ ↦ ?_
    cases equals with
    | false => rfl
    | true =>
      simp only [on_pair, on_inert, ↓reduceIte, bind_apply]
      rw [attempt_on fun c ↦ by simp, bind_on]
      refine bind_eq_map fun ⟨e, c⟩ ↦ ?_
      cases e with
      | none =>
        simp only [on_pair, on_none, bind_apply, peek_on, bind_on]
        refine bind_eq_map fun ⟨marked, c⟩ ↦ ?_
        cases marked with
        | true => rfl
        | false =>
          simp only [on_pair, on_inert, Bool.false_eq_true, ↓reduceIte, bind_apply, Natural.expr,
            bind_on]
          exact bind_eq_map fun _ ↦ rfl
      | some e =>
        simp only [on_pair, on_some, stringValue?_on]
        split <;> rfl

private theorem attrContent_on [g.Natural] (c : Cursor) : g.attrContent (φ.on c) =
    (g.attrContent c).map fun p ↦ (p.1.map φ.value, φ.on p.2) := by
  simp only [attrContent, bind_apply, word?_on, bind_on]
  refine bind_eq_map fun ⟨marked, c⟩ ↦ ?_
  cases marked with
  | true => exact attrValue_on none c
  | false =>
    simp only [on_pair, on_inert, Bool.false_eq_true, ↓reduceIte, bind_apply, simplePath_on,
      bind_on, fst_on, snd_on]
    exact bind_eq_map fun p ↦ attrValue_on p.1 p.2

/-- The action on the documentation that an attribute holds. -/
@[reducible] def documentation : Relabels (Option String) :=
  ⟨fun φ d ↦ d.map φ.value⟩

/-- The content of an attribute in its brackets. -/
theorem bracketed_on [g.Natural] (c : Cursor) : group .bracket g.attrContent (φ.on c) =
    (group .bracket g.attrContent c).map fun p ↦ (p.1.map φ.value, φ.on p.2) :=
  @group_on (Option String) φ documentation g.attrContent attrContent_on .bracket c

/-- An attribute with the trees it is read from. -/
theorem captured_on {r : Reader (Option String)}
    (hr : ∀ c, r (φ.on c) = (r c).map fun p ↦ (p.1.map φ.value, φ.on p.2)) (c : Cursor) :
    capture r (φ.on c) =
      (capture r c).map fun p ↦ ((p.1.1.map φ.value, φ.on p.1.2), φ.on p.2) :=
  @capture_on (Option String) φ documentation r hr c

@[simp] private theorem outerAttribute_on [g.Natural] (c : Cursor) :
    g.outerAttribute (φ.on c) = φ.on (g.outerAttribute c) := by
  have hcapture := captured_on (φ := φ) (r := do punct "#"; group .bracket g.attrContent)
    (fun c ↦ by
      simp only [bind_apply, punct_on, bind_on]
      exact bind_eq_map fun p ↦ bracketed_on p.2) c
  simp only [outerAttribute, bind_apply, hcapture]
  rcases capture (do punct "#"; group .bracket g.attrContent) c with _ | p <;> simp

@[simp] private theorem innerAttribute_on [g.Natural] (c : Cursor) :
    g.innerAttribute (φ.on c) = φ.on (g.innerAttribute c) := by
  have hcapture := captured_on (φ := φ)
    (r := do punct "#"; punct "!"; group .bracket g.attrContent)
    (fun c ↦ by
      simp only [bind_apply, punct_on, bind_on, snd_on]
      exact bind_eq_map fun p ↦ bind_eq_map fun q ↦ bracketed_on q.2) c
  simp only [innerAttribute, bind_apply, hcapture]
  rcases capture (do punct "#"; punct "!"; group .bracket g.attrContent) c with _ | p <;> simp

/-- Reading outer attributes commutes with relabelling. -/
@[simp] theorem outerAttributes_on [g.Natural] (c : Cursor) :
    g.outerAttributes (φ.on c) = φ.on (g.outerAttributes c) := by
  simp [outerAttributes]

/-- Reading inner attributes commutes with relabelling. -/
@[simp] theorem innerAttributes_on [g.Natural] (c : Cursor) :
    g.innerAttributes (φ.on c) = φ.on (g.innerAttributes c) := by
  simp [innerAttributes]

/-- Reading a visibility commutes with relabelling. -/
@[simp] theorem visibility_on (c : Cursor) : visibility (φ.on c) = φ.on (visibility c) := by
  simp [visibility]

/-- Reading an ABI commutes with relabelling. -/
@[simp] theorem abi_on (c : Cursor) : abi (φ.on c) = φ.on (abi c) := by
  simp [abi]

/-- Reading an ABI that may be missing commutes with relabelling. -/
@[simp] theorem abi?_on (c : Cursor) : abi? (φ.on c) = φ.on (abi? c) := by
  simp [abi?]

/-- Reading the inside of a block commutes with relabelling. -/
@[simp] theorem body_on [g.Natural] (c : Cursor) : g.body (φ.on c) = φ.on (g.body c) := by
  simp [body]

/-- Reading a block commutes with relabelling. -/
@[simp] theorem block_on [g.Natural] (c : Cursor) : g.block (φ.on c) = φ.on (g.block c) := by
  simp [block]

/-! ### Path -/

/-- The expression of a body commutes with relabelling. -/
@[simp] theorem ofBody_on (body : List Stmt) : φ.on (Expr.ofBody body) = .ofBody (φ.on body) :=
  on_block false body

@[simp] private theorem constArgument_on [g.Natural] (c : Cursor) :
    g.constArgument (φ.on c) = φ.on (g.constArgument c) := by
  simp [constArgument]

@[simp] private theorem constraintBounds_on [g.Natural] (c : Cursor) :
    g.constraintBounds (φ.on c) = φ.on (g.constraintBounds c) := by
  simp [constraintBounds]

@[simp] private theorem genericArgument_on [g.Natural] (c : Cursor) :
    g.genericArgument (φ.on c) = φ.on (g.genericArgument c) := by
  simp [genericArgument]

@[simp] private theorem genericArguments_on [g.Natural] (fuel : Nat) (c : Cursor) :
    g.genericArguments fuel (φ.on c) = φ.on (g.genericArguments fuel c) := by
  induction fuel generalizing c with
  | zero => simp [genericArguments]
  | succ fuel ih => simp [genericArguments, ih]

/-- Whether a comma follows a generic argument does not depend on its literals. -/
@[simp] theorem comma_on (arg : GenericArg) : (φ.on arg).comma = arg.comma := rfl

private theorem arrangeWritten_on (arg : GenericArg) :
    GenericArg.arrange.written (φ.on arg) = φ.on (GenericArg.arrange.written arg) := by
  obtain ⟨isLifetime, tokens, comma⟩ := arg
  cases comma <;> simp [GenericArg.arrange.written, GenericArg.separator]

private theorem arrangeGo_on (separated : Bool) (args : List GenericArg) :
    GenericArg.arrange.go separated (φ.on args) = φ.on (GenericArg.arrange.go separated args) := by
  induction args generalizing separated with
  | nil => rfl
  | cons arg args ih =>
    cases separated <;>
      simp [GenericArg.arrange.go, arrangeWritten_on, ih, GenericArg.separator]

/-- Arguments are arranged in the same way. -/
@[simp] theorem arrange_on (args : List GenericArg) :
    GenericArg.arrange (φ.on args) = φ.on (GenericArg.arrange args) := by
  have hfilter (p : GenericArg → Bool) (hp : ∀ arg, p (φ.on arg) = p arg) :
      (φ.on args).filter p = φ.on (args.filter p) := by
    induction args with
    | nil => rfl
    | cons arg args ih =>
      by_cases h : p arg = true <;> simp [hp, h, ih]
  have hwritten (args : List GenericArg) :
      (φ.on args).flatMap GenericArg.arrange.written =
        φ.on (args.flatMap GenericArg.arrange.written) := by
    induction args with
    | nil => rfl
    | cons arg args ih => simp [arrangeWritten_on, ih]
  have hlast : ∀ args : List GenericArg, (φ.on args).getLast? = φ.on args.getLast? := by
    simp [on_list, on_option]
  simp only [GenericArg.arrange]
  rw [hfilter _ fun arg ↦ rfl, hfilter _ fun arg ↦ rfl, hwritten, arrangeGo_on, hlast, on_append]
  cases h : (args.filter (·.isLifetime)).getLast? <;> simp

@[simp] private theorem angleStart_on (colons : Bool) :
    φ.on (angleStart colons) = angleStart colons := by
  cases colons <;> simp [angleStart]

/-- Reading the arguments in angle brackets commutes with relabelling. -/
@[simp] theorem angleArguments_on [g.Natural] (c : Cursor) :
    g.angleArguments (φ.on c) = φ.on (g.angleArguments c) := by
  simp [angleArguments]

@[simp] private theorem resultType_on [g.Natural] (plus : Bool) (c : Cursor) :
    g.resultType plus (φ.on c) = φ.on (g.resultType plus c) := by
  simp [resultType]

@[simp] private theorem parenArguments_on [g.Natural] (c : Cursor) :
    g.parenArguments (φ.on c) = φ.on (g.parenArguments c) := by
  simp [parenArguments]

@[simp] private theorem pathSegment_on [g.Natural] (inExpr : Bool) (c : Cursor) :
    g.pathSegment inExpr (φ.on c) = φ.on (g.pathSegment inExpr c) := by
  simp [pathSegment]

@[simp] private theorem morePathSegments_on [g.Natural] (inExpr : Bool) (c : Cursor) :
    g.morePathSegments inExpr (φ.on c) = φ.on (g.morePathSegments inExpr c) := by
  simp [morePathSegments]

@[simp] private theorem path_on [g.Natural] (inExpr : Bool) (c : Cursor) :
    g.path inExpr (φ.on c) = φ.on (g.path inExpr c) := by
  simp [path]

/-- Reading a qualified path commutes with relabelling. -/
@[simp] theorem qualifiedPath_on [g.Natural] (inExpr : Bool) (c : Cursor) :
    g.qualifiedPath inExpr (φ.on c) = φ.on (g.qualifiedPath inExpr c) := by
  simp [qualifiedPath]

@[simp] private theorem parenArguments?_on [g.Natural] (shape : PathShape) (c : Cursor) :
    g.parenArguments? shape (φ.on c) = φ.on (g.parenArguments? shape c) := by
  simp [parenArguments?]

@[simp] private theorem typePath_on [g.Natural] (c : Cursor) :
    g.typePath (φ.on c) = φ.on (g.typePath c) := by
  simp [typePath]

/-! ### Generics -/

@[simp] private theorem lifetimeParam_on (c : Cursor) :
    lifetimeParam (φ.on c) = φ.on (lifetimeParam c) := by
  simp [lifetimeParam]

@[simp] private theorem typeParam_on [g.Natural] (c : Cursor) :
    g.typeParam (φ.on c) = φ.on (g.typeParam c) := by
  simp [typeParam]

@[simp] private theorem constParam_on [g.Natural] (c : Cursor) :
    g.constParam (φ.on c) = φ.on (g.constParam c) := by
  simp [constParam]

@[simp] private theorem genericParam_on [g.Natural] (c : Cursor) :
    g.genericParam (φ.on c) = φ.on (g.genericParam c) := by
  simp [genericParam]

@[simp] private theorem itemGenericParam_on [g.Natural] (c : Cursor) :
    g.itemGenericParam (φ.on c) = φ.on (g.itemGenericParam c) := by
  simp [itemGenericParam]

/-- Reading generic parameters commutes with relabelling. -/
@[simp] theorem generics_on [g.Natural] (c : Cursor) :
    g.generics (φ.on c) = φ.on (g.generics c) := by
  simp [generics]

/-- Reading a binder that may be missing commutes with relabelling. -/
@[simp] theorem binder?_on [g.Natural] (c : Cursor) : g.binder? (φ.on c) = φ.on (g.binder? c) := by
  simp [binder?]

instance : Test.Natural captures.captured := by
  unfold captures.captured
  infer_instance

@[simp] private theorem captures_on (c : Cursor) : captures (φ.on c) = φ.on (captures c) := by
  simp [captures]

@[simp] private theorem constMark_on (c : Cursor) :
    traitBound.constMark (φ.on c) = φ.on (traitBound.constMark c) := by
  simp [traitBound.constMark]

@[simp] private theorem traitBound_on [g.Natural] (constant : Bool) (c : Cursor) :
    g.traitBound constant (φ.on c) = φ.on (g.traitBound constant c) := by
  simp [traitBound]

/-- The rule for bounds commutes with relabelling. -/
@[simp] theorem boundRule_on [g.Natural] (capturing : Bool) (constant : Bool) (c : Cursor) :
    g.boundRule capturing constant (φ.on c) = φ.on (g.boundRule capturing constant c) := by
  simp [boundRule]

instance (constant : Bool) : Test.Natural (continuesBounds constant) := by
  cases constant
  all_goals
    simp only [continuesBounds, ↓reduceIte, Bool.false_eq_true, List.cons_append, List.nil_append]
    infer_instance

@[simp] private theorem boundSum_on [g.Natural] (plus : Bool) (capturing : Bool) (constant : Bool)
    (fuel : Nat) (c : Cursor) : g.boundSum plus capturing constant fuel (φ.on c) =
      φ.on (g.boundSum plus capturing constant fuel c) := by
  induction fuel generalizing c with
  | zero => simp [boundSum]
  | succ fuel ih => simp [boundSum, ih]

@[simp] private theorem boundsWithTrait_on [g.Natural] (plus : Bool) (capturing : Bool)
    (constant : Bool)
    (c : Cursor) : g.boundsWithTrait plus capturing constant (φ.on c) =
      φ.on (g.boundsWithTrait plus capturing constant c) := by
  simp [boundsWithTrait]

instance : Test.Natural endsCondition := by
  unfold endsCondition
  infer_instance

@[simp] private theorem condition_on [g.Natural] (c : Cursor) :
    g.condition (φ.on c) = φ.on (g.condition c) := by
  simp [condition]

@[simp] private theorem conditions_on [g.Natural] (fuel : Nat) (c : Cursor) :
    g.conditions fuel (φ.on c) = φ.on (g.conditions fuel c) := by
  induction fuel generalizing c with
  | zero => simp [conditions]
  | succ fuel ih => simp [conditions, ih]

/-- Reading a where clause that may be missing commutes with relabelling. -/
@[simp] theorem whereClause?_on [g.Natural] (c : Cursor) :
    g.whereClause? (φ.on c) = φ.on (g.whereClause? c) := by
  simp [whereClause?]

/-! ### Type -/

@[simp] private theorem parenthesised_on [g.Natural] (c : Cursor) :
    g.parenthesised (φ.on c) = φ.on (g.parenthesised c) := by
  simp [parenthesised]

@[simp] private theorem furtherBounds_on [g.Natural] (c : Cursor) :
    g.furtherBounds (φ.on c) = φ.on (g.furtherBounds c) := by
  simp [furtherBounds]

@[simp] private theorem parenType_on [g.Natural] (plus : Bool) (c : Cursor) :
    g.parenType plus (φ.on c) = φ.on (g.parenType plus c) := by
  simp only [parenType, bind_apply, group_on parenthesised_on, bind_on, on_bind]
  congr 1
  funext ⟨inside, c⟩
  cases inside <;> simp

@[simp] private theorem pathType_on [g.Natural] (plus : Bool) (bound : Bool) (c : Cursor) :
    g.pathType plus bound (φ.on c) = φ.on (g.pathType plus bound c) := by
  simp [pathType]

@[simp] private theorem functionTypeArgument_on [g.Natural] (first : Bool) (c : Cursor) :
    g.functionTypeArgument first (φ.on c) = φ.on (g.functionTypeArgument first c) := by
  simp [functionTypeArgument]

instance : Test.Natural functionTypeDots := by
  unfold functionTypeDots
  infer_instance

@[simp] private theorem functionTypeArguments_on [g.Natural] (first : Bool) (fuel : Nat)
    (c : Cursor) :
    g.functionTypeArguments first fuel (φ.on c) = φ.on (g.functionTypeArguments first fuel c) := by
  induction fuel generalizing first c with
  | zero => simp [functionTypeArguments]
  | succ fuel ih => simp [functionTypeArguments, ih]

@[simp] private theorem functionType_on [g.Natural] (c : Cursor) :
    g.functionType (φ.on c) = φ.on (g.functionType c) := by
  simp [functionType]

instance : Test.Natural startsPath := by
  unfold startsPath
  infer_instance

/-- The rule for types commutes with relabelling. -/
@[simp] theorem typeRule_on [g.Natural] (plus : Bool) (c : Cursor) :
    g.typeRule plus (φ.on c) = φ.on (g.typeRule plus c) := by
  simp [typeRule]

/-! ### Pattern -/

@[simp] private theorem patternDots_on (c : Cursor) :
    patternDots (φ.on c) = φ.on (patternDots c) := by
  simp [patternDots]

instance : Test.Natural endsPatternRange := by
  unfold endsPatternRange
  infer_instance

@[simp] private theorem patternBound_on [g.Natural] (c : Cursor) :
    g.patternBound (φ.on c) = φ.on (g.patternBound c) := by
  simp [patternBound]

@[simp] private theorem patternBound?_on [g.Natural] (c : Cursor) :
    g.patternBound? (φ.on c) = φ.on (g.patternBound? c) := by
  simp [patternBound?]

@[simp] private theorem patternRange_on [g.Natural] (c : Cursor) :
    g.patternRange (φ.on c) = φ.on (g.patternRange c) := by
  simp [patternRange]

/-- Reading the alternatives of a pattern commutes with relabelling. -/
@[simp] theorem patternAlternatives_on [g.Natural] (c : Cursor) :
    g.patternAlternatives (φ.on c) = φ.on (g.patternAlternatives c) := by
  simp [patternAlternatives]

/-- A test that accepts nothing but a kind of number is natural. -/
theorem natural_of_number {t : Test} (p : String → Bool)
    (hp : ∀ text, p text = true → Test.isNumber text = true)
    (ht : t = fun
      | .literal text :: _ => p text
      | _ => false) : t.Natural where
  on_eq φ ts := by
    subst ht
    rcases ts with _ | ⟨_ | _ | _ | text | _, ts⟩
    case cons.literal =>
      by_cases h : Test.isNumber text = true
      · simp [φ.number text h]
      · have hnew : ¬Test.isNumber (φ.text text) = true := by rwa [φ.isNumber]
        simp [mt (hp text) h, mt (hp _) hnew]
    all_goals simp

/-- What names a position is a number. -/
theorem isNumber_of_isIndex {text : String} (h : NumberLiteral.isIndex text = true) :
    Test.isNumber text = true := by
  unfold NumberLiteral.isIndex NumberLiteral.integer? at h
  unfold Test.isNumber
  split at h
  · split at *
    all_goals simp_all
    all_goals decide
  · cases h

instance : Test.Natural member.position :=
  natural_of_number NumberLiteral.isIndex (fun _ ↦ isNumber_of_isIndex) rfl

/-- Reading the name or the position of a field commutes with relabelling. -/
@[simp] theorem member_on (c : Cursor) : member (φ.on c) = φ.on (member c) := by
  simp [member]

@[simp] private theorem fieldPattern_on [g.Natural] (c : Cursor) :
    g.fieldPattern (φ.on c) = φ.on (g.fieldPattern c) := by
  simp [fieldPattern]

@[simp] private theorem fieldPatterns_on [g.Natural] (fuel : Nat) (c : Cursor) :
    g.fieldPatterns fuel (φ.on c) = φ.on (g.fieldPatterns fuel c) := by
  induction fuel generalizing c with
  | zero => simp [fieldPatterns]
  | succ fuel ih => simp [fieldPatterns, ih]

@[simp] private theorem pathPattern_on [g.Natural] (c : Cursor) :
    g.pathPattern (φ.on c) = φ.on (g.pathPattern c) := by
  simp [pathPattern]

@[simp] private theorem namePattern_on [g.Natural] (c : Cursor) :
    g.namePattern (φ.on c) = φ.on (g.namePattern c) := by
  simp [namePattern]

@[simp] private theorem parenPattern_on [g.Natural] (c : Cursor) :
    g.parenPattern (φ.on c) = φ.on (g.parenPattern c) := by
  simp [parenPattern]

@[simp] private theorem slicePattern_on [g.Natural] (c : Cursor) :
    g.slicePattern (φ.on c) = φ.on (g.slicePattern c) := by
  simp [slicePattern]

@[simp] private theorem constantPattern_on [g.Natural] (c : Cursor) :
    g.constantPattern (φ.on c) = φ.on (g.constantPattern c) := by
  simp [constantPattern]

@[simp] private theorem restPattern_on [g.Natural] (c : Cursor) :
    g.restPattern (φ.on c) = φ.on (g.restPattern c) := by
  simp [restPattern]

/-- The rule for patterns commutes with relabelling. -/
@[simp] theorem patternRule_on [g.Natural] (c : Cursor) :
    g.patternRule (φ.on c) = φ.on (g.patternRule c) := by
  simp [patternRule]

end Grammar

end GuestBridge.Host
