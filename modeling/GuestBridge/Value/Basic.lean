import GuestBridge.Number.Layout
import GuestBridge.Text.Quoted

/-!
# Values that cross the boundary

Plain data travels by value. Everything else stays with the guest and is represented by a
handle: an id with the name of the object's type. A handle may have an owner, which counts
its copies; when the last one is gone the guest may forget the object.
-/

namespace GuestBridge

/-- A reference to an object of the guest. -/
structure Handle where
  id : Nat
  /-- The name of the object's type, for display only. -/
  typeName : String
  /-- The owner that counts the copies of this handle, unless it is never released. -/
  owner : Option Nat
  deriving DecidableEq, Repr, Inhabited

namespace Handle

/-- A handle that is never released. -/
def permanent (id : Nat) (typeName : String) : Handle :=
  ⟨id, typeName, none⟩

/-- Two handles are the same if they show the same object, whoever owns them. -/
def same (a b : Handle) : Bool :=
  a.id = b.id && a.typeName = b.typeName

/-- Every handle of a list that has an owner is a copy of one that is held. -/
def Borrowed (held hs : List Handle) : Prop :=
  ∀ h ∈ hs, h.owner ≠ none → h ∈ held

instance (held hs : List Handle) : Decidable (Borrowed held hs) :=
  inferInstanceAs (Decidable (∀ h ∈ hs, h.owner ≠ none → h ∈ held))

/-- What is held can be borrowed. -/
theorem borrowed_of_subset {held hs : List Handle} (h : hs ⊆ held) : Borrowed held hs :=
  fun _ hm _ ↦ h hm

/-- No handle is borrowed for nothing. -/
@[simp] theorem borrowed_nil (held : List Handle) : Borrowed held [] := by simp [Borrowed]

/-- What is borrowed can also be borrowed from a greater holding. -/
theorem Borrowed.mono {held held' hs : List Handle} (h : Borrowed held hs)
    (hsub : held ⊆ held') : Borrowed held' hs :=
  fun x hx ho ↦ hsub (h x hx ho)

/-- Part of what is borrowed is borrowed. -/
theorem Borrowed.of_subset {held hs hs' : List Handle} (h : Borrowed held hs)
    (hsub : hs' ⊆ hs) : Borrowed held hs' :=
  fun x hx ho ↦ h x (hsub hx) ho

/-- Two lists are borrowed together if each is. -/
theorem borrowed_append {held hs hs' : List Handle} :
    Borrowed held (hs ++ hs') ↔ Borrowed held hs ∧ Borrowed held hs' := by
  simp only [Borrowed, List.mem_append]
  exact ⟨fun h ↦ ⟨fun x hx ↦ h x (.inl hx), fun x hx ↦ h x (.inr hx)⟩,
    fun h x hx ↦ hx.elim (h.1 x) (h.2 x)⟩

/-- A handle as it is shown to developers. -/
def debugText (h : Handle) : String :=
  s!"Handle \x7b id: {h.id}, type_name: {Text.quote h.typeName} \x7d"

end Handle

/-- A value on the host's side of the boundary. -/
inductive Value where
  | nothing
  | bool (b : Bool)
  | int (n : Int64)
  | float (x : Binary64)
  | str (s : String)
  | array (items : List Value)
  | tuple (items : List Value)
  | handle (h : Handle)
  deriving Repr, Inhabited

namespace Value

/-- The short name of a value's kind. -/
def kind : Value → String
  | .nothing => "nothing"
  | .bool _ => "bool"
  | .int _ => "int"
  | .float _ => "float"
  | .str _ => "string"
  | .array _ => "array"
  | .tuple _ => "tuple"
  | .handle _ => "handle"

/-- The handle that a value is. -/
def handle? : Value → Option Handle
  | .handle h => some h
  | _ => none

/-- The integer that a value is. -/
def int? : Value → Option Int64
  | .int n => some n
  | _ => none

/-- The floating-point number that a value is. -/
def float? : Value → Option Binary64
  | .float x => some x
  | _ => none

/-- The text that a value is. -/
def str? : Value → Option String
  | .str s => some s
  | _ => none

/-- The items of an array or a tuple. -/
def items? : Value → Option (List Value)
  | .array items | .tuple items => some items
  | _ => none

mutual

/-- Equality of values: floating-point numbers are compared as numbers, and handles by what
they show. -/
def same : Value → Value → Bool
  | .nothing, .nothing => true
  | .bool a, .bool b => a = b
  | .int a, .int b => a = b
  | .float a, .float b => a.same b
  | .str a, .str b => a = b
  | .array as, .array bs => sameAll as bs
  | .tuple as, .tuple bs => sameAll as bs
  | .handle a, .handle b => a.same b
  | _, _ => false

/-- Equality of lists of values. -/
def sameAll : List Value → List Value → Bool
  | [], [] => true
  | a :: as, b :: bs => same a b && sameAll as bs
  | _, _ => false

end

mutual

/-- The handles in a value, in document order. -/
def handles : Value → List Handle
  | .handle h => [h]
  | .array items | .tuple items => handlesAll items
  | _ => []

/-- The handles in a list of values, in document order. -/
def handlesAll : List Value → List Handle
  | [] => []
  | v :: vs => handles v ++ handlesAll vs

end

/-- The handles of a single value. -/
theorem handlesAll_singleton (v : Value) : handlesAll [v] = v.handles :=
  List.append_nil _

/-- The handles of one list of values behind another. -/
theorem handlesAll_append (vs ws : List Value) :
    handlesAll (vs ++ ws) = handlesAll vs ++ handlesAll ws := by
  induction vs with
  | nil => rfl
  | cons v vs ih => simp [handlesAll, ih]

/-- The handles of a value of a list are among those of the list. -/
theorem handles_subset_of_mem {v : Value} {vs : List Value} (h : v ∈ vs) :
    v.handles ⊆ handlesAll vs := by
  obtain ⟨front, back, rfl⟩ := List.append_of_mem h
  rw [handlesAll_append, handlesAll]
  exact fun x hx ↦ List.mem_append_right _ (List.mem_append_left _ hx)

/-- The handles of the items of a value are its handles. -/
theorem handlesAll_items? {v : Value} {vs : List Value} (h : v.items? = some vs) :
    handlesAll vs = v.handles := by
  cases v <;> simp_all [items?, handles]

mutual

/-- A value as text for people. -/
def display : Value → String
  | .nothing => "nothing"
  | .bool b => if b then "true" else "false"
  | .int n => toString n.toInt
  | .float x => x.text .display
  | .str s => Text.quote s
  | .array items => "[" ++ ", ".intercalate (displayAll items) ++ "]"
  | .tuple items =>
    "(" ++ ", ".intercalate (displayAll items) ++ (if items.length = 1 then "," else "") ++ ")"
  | .handle h => s!"<{h.typeName} #{h.id}>"

/-- The texts of a list of values. -/
def displayAll : List Value → List String
  | [] => []
  | v :: vs => display v :: displayAll vs

end

end Value

end GuestBridge
