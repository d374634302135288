import GuestBridge.Host.Parse
import GuestBridge.Proofs.Host.Grammar.Expressions

/-!
# Function items with other literals

The rules for items go the same way when literals are exchanged for others of the same kinds,
and so does the grammar as a whole: the item that trees make up keeps its shape and gets the
other literals.
-/

namespace GuestBridge.Host

instance : Relabels Param where
  relabel φ
    | .receiver => .receiver
    | .typed shape type => .typed shape (φ.on type)

instance : Relabels Grammar.Signature :=
  ⟨fun φ s ↦ ⟨s.isAsync, s.name, s.isGeneric, φ.on s.params, φ.on s.result⟩⟩

instance : Relabels FnItem where
  relabel φ item :=
    ⟨φ.on item.attributes, φ.on item.visibility, item.isAsync, item.name, item.isGeneric,
      φ.on item.params, φ.on item.result, φ.on item.body⟩

namespace Relabelling

variable {φ : Relabelling}

/-- A receiver has no literals. -/
@[simp] theorem on_receiver : φ.on Param.receiver = .receiver := rfl

/-- A relabelling reaches a parameter's type. -/
@[simp] theorem on_typed (shape : PatternShape) (type : List Token) :
    φ.on (Param.typed shape type) = .typed shape (φ.on type) := rfl

/-- A relabelling reaches a signature's parameters and its result. -/
@[simp] theorem on_signature (s : Grammar.Signature) :
    φ.on s = ⟨s.isAsync, s.name, s.isGeneric, φ.on s.params, φ.on s.result⟩ := rfl

/-- A relabelling reaches a function's attributes, its visibility, its signature and its body. -/
@[simp] theorem on_fnItem (item : FnItem) : φ.on item =
    ⟨φ.on item.attributes, φ.on item.visibility, item.isAsync, item.name, item.isGeneric,
      φ.on item.params, φ.on item.result, φ.on item.body⟩ := rfl

end Relabelling

namespace Grammar

open Reader Relabelling

variable {φ : Relabelling} {g : Grammar}

/-! ### Item -/

@[simp] private theorem receiver_on [g.Natural] (c : Cursor) :
    g.receiver (φ.on c) = φ.on (g.receiver c) := by
  simp [receiver]

@[simp] private theorem receiverAhead_on (c : Cursor) :
    receiverAhead (φ.on c) = φ.on (receiverAhead c) := by
  simp [receiverAhead]

@[simp] private theorem typeTrees_on [g.Natural] (c : Cursor) :
    g.typeTrees (φ.on c) = φ.on (g.typeTrees c) := by
  simp [typeTrees]

@[simp] private theorem param_on [g.Natural] (c : Cursor) :
    g.param (φ.on c) = φ.on (g.param c) := by
  simp [param]

@[simp] private theorem params_on [g.Natural] (first : Bool) (fuel : Nat) (c : Cursor) :
    g.params first fuel (φ.on c) = φ.on (g.params first fuel c) := by
  induction fuel generalizing first c with
  | zero => simp [params]
  | succ fuel ih =>
    simp only [params, bind_apply, peek_on, bind_on, on_bind]
    congr 1
    funext ⟨b, c⟩
    cases b
    · simp only [fst_on, snd_on, on_inert, Bool.false_eq_true, ↓reduceIte, bind_apply,
        outerAttributes_on, bind_on, on_bind]
      congr 1
      funext ⟨attrs, c⟩
      simp only [snd_on, punct?_on, bind_on]
      congr 1
      funext ⟨b, c⟩
      cases b
      · simp only [fst_on, snd_on, on_inert, Bool.false_eq_true, ↓reduceIte, bind_apply, param_on,
          bind_on, on_bind]
        congr 1
        funext ⟨declared, c⟩
        rcases declared with _ | _ | ⟨shape, type⟩
        all_goals simp [ih]
      · simp
    · simp

@[simp] private theorem signature_on [g.Natural] (foreign : Bool) (c : Cursor) :
    g.signature foreign (φ.on c) = φ.on (g.signature foreign c) := by
  simp [signature]

@[simp] private theorem signatureAhead_on (foreign : Bool) (c : Cursor) :
    signatureAhead foreign (φ.on c) = φ.on (signatureAhead foreign c) := by
  simp [signatureAhead]

@[simp] private theorem fnItem_on [g.Natural] (c : Cursor) :
    g.fnItem (φ.on c) = φ.on (g.fnItem c) := by
  simp [fnItem]

@[simp] private theorem method_on [g.Natural] (foreign : Bool) (c : Cursor) :
    g.method foreign (φ.on c) = φ.on (g.method foreign c) := by
  simp [method]

@[simp] private theorem nameOrBlank_on (c : Cursor) :
    nameOrBlank (φ.on c) = φ.on (nameOrBlank c) := by
  simp [nameOrBlank]

@[simp] private theorem constantRest_on [g.Natural] (c : Cursor) :
    g.constantRest (φ.on c) = φ.on (g.constantRest c) := by
  simp [constantRest]

@[simp] private theorem boundsUntil_on [g.Natural] (done : Test) [done.Natural] (constant : Bool)
    (c : Cursor) : g.boundsUntil done constant (φ.on c) = φ.on (g.boundsUntil done constant c) := by
  simp [boundsUntil]

@[simp] private theorem typeRest_on [g.Natural] (early : Bool) (late : Bool) (c : Cursor) :
    g.typeRest early late (φ.on c) = φ.on (g.typeRest early late c) := by
  simp [typeRest]

@[simp] private theorem staticRest_on [g.Natural] (c : Cursor) :
    g.staticRest (φ.on c) = φ.on (g.staticRest c) := by
  simp [staticRest]

@[simp] private theorem invocationItem_on (named : Bool) (c : Cursor) :
    invocationItem named (φ.on c) = φ.on (invocationItem named c) := by
  simp [invocationItem]

instance : Test.Natural startsInvocation := by
  unfold startsInvocation
  infer_instance

@[simp] private theorem namedField_on [g.Natural] (fuel : Nat) (c : Cursor) :
    g.namedField fuel (φ.on c) = φ.on (g.namedField fuel c) := by
  induction fuel generalizing c with
  | zero => simp [namedField]
  | succ fuel ih => simp [namedField, ih]

@[simp] private theorem namedFields_on [g.Natural] (c : Cursor) :
    g.namedFields (φ.on c) = φ.on (g.namedFields c) := by
  have hfields := bounded_on_eq (φ := φ) fun fuel c ↦
    group_on (commaList_on (namedField_on (g := g) fuel)) .brace c
  simp [namedFields, hfields]

@[simp] private theorem unnamedFields_on [g.Natural] (c : Cursor) :
    g.unnamedFields (φ.on c) = φ.on (g.unnamedFields c) := by
  simp [unnamedFields]

@[simp] private theorem recordRest_on [g.Natural] (c : Cursor) :
    g.recordRest (φ.on c) = φ.on (g.recordRest c) := by
  simp [recordRest]

@[simp] private theorem variant_on [g.Natural] (c : Cursor) :
    g.variant (φ.on c) = φ.on (g.variant c) := by
  simp [variant]

@[simp] private theorem itemGroup_on [g.Natural] {one : Reader Unit}
    (hone : ∀ c, one (φ.on c) = φ.on (one c)) (c : Cursor) :
    g.itemGroup one (φ.on c) = φ.on (g.itemGroup one c) := by
  simp [itemGroup, hone]

@[simp] private theorem attributedItem_on [g.Natural] (c : Cursor) :
    g.attributedItem (φ.on c) = φ.on (g.attributedItem c) := by
  simp [attributedItem]

@[simp] private theorem foreignItem_on [g.Natural] (c : Cursor) :
    g.foreignItem (φ.on c) = φ.on (g.foreignItem c) := by
  simp [foreignItem]

@[simp] private theorem traitItem_on [g.Natural] (c : Cursor) :
    g.traitItem (φ.on c) = φ.on (g.traitItem c) := by
  simp [traitItem]

@[simp] private theorem implItem_on [g.Natural] (c : Cursor) :
    g.implItem (φ.on c) = φ.on (g.implItem c) := by
  simp [implItem]

@[simp] private theorem traitRest_on [g.Natural] (c : Cursor) :
    g.traitRest (φ.on c) = φ.on (g.traitRest c) := by
  simp [traitRest]

@[simp] private theorem traitOrAliasRest_on [g.Natural] (c : Cursor) :
    g.traitOrAliasRest (φ.on c) = φ.on (g.traitOrAliasRest c) := by
  simp [traitOrAliasRest]

instance : Test.Natural opensGenerics := by
  unfold opensGenerics
  infer_instance

@[simp] private theorem implRest_on [g.Natural] (c : Cursor) :
    g.implRest (φ.on c) = φ.on (g.implRest c) := by
  simp [implRest]

@[simp] private theorem useGroup_on [g.Natural] (rooted : Bool) (c : Cursor) :
    g.useGroup rooted (φ.on c) = φ.on (g.useGroup rooted c) := by
  simp [useGroup]

@[simp] private theorem useTreeRule_on [g.Natural] (rooted : Bool) (c : Cursor) :
    g.useTreeRule rooted (φ.on c) = φ.on (g.useTreeRule rooted c) := by
  simp [useTreeRule]

@[simp] private theorem useRest_on [g.Natural] (c : Cursor) :
    g.useRest (φ.on c) = φ.on (g.useRest c) := by
  simp [useRest]

@[simp] private theorem foreignRest_on [g.Natural] (c : Cursor) :
    g.foreignRest (φ.on c) = φ.on (g.foreignRest c) := by
  simp [foreignRest]

@[simp] private theorem externCrateRest_on (c : Cursor) :
    externCrateRest (φ.on c) = φ.on (externCrateRest c) := by
  simp [externCrateRest]

@[simp] private theorem modRest_on [g.Natural] (c : Cursor) :
    g.modRest (φ.on c) = φ.on (g.modRest c) := by
  simp [modRest]

@[simp] private theorem macroRest_on (c : Cursor) : macroRest (φ.on c) = φ.on (macroRest c) := by
  simp [macroRest]

@[simp] private theorem itemRule_on [g.Natural] (c : Cursor) :
    g.itemRule (φ.on c) = φ.on (g.itemRule c) := by
  simp [itemRule]

/-! ### The grammar as a whole -/

instance : Natural empty := by
  constructor <;> simp [empty]

/-- The grammar goes the same way to any depth of calls. -/
instance (depth : Nat) : Natural (ofDepth depth) := by
  induction depth with
  | zero => exact inferInstanceAs (Natural empty)
  | succ depth ih => constructor <;> simp [ofDepth]

end Grammar

variable {α : Type} [Relabels α] {φ : Relabelling}

open Relabelling

/-- What a reader makes of all trees it is given. -/
theorem Reader.all?_on {r : Reader α} (hr : ∀ c, r (φ.on c) = φ.on (r c)) (ts : List Token) :
    r.all? (φ.on ts) = φ.on (r.all? ts) := by
  have h := hr ⟨ts, [], []⟩
  simp only [on_cursor, on_nil] at h
  simp only [all?, h]
  rcases r ⟨ts, [], []⟩ with _ | ⟨a, ⟨_ | _, _, _⟩⟩ <;> simp

/-- Trees with other literals make up the same item with other literals. -/
theorem FnItem.ofTokens?_on (ts : List Token) : ofTokens? (φ.on ts) = φ.on (ofTokens? ts) := by
  simp only [ofTokens?, Grammar.forTokens, Token.sizeAll_on]
  exact Reader.all?_on Grammar.fnItem_on ts

end GuestBridge.Host
