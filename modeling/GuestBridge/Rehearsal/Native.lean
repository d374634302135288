import GuestBridge.Failure

/-!
# Scripted functions

What a function does in a rehearsal is not guest code but a function on the host's side. It
may keep values alive that it answers with.
-/

namespace GuestBridge.Rehearsal

/-- The exception of the given type. -/
def raise {α : Type} (kind message : String) : Except Failure α :=
  .error (.raised kind message)

/-- A scripted function and the values that it keeps alive. Whatever has an owner in its
answers and its failures comes from its arguments or from what it keeps. -/
structure Native where
  apply : List Value → Except Failure Value
  keeps : List Value
  borrows : ∀ args, Handle.Borrowed (Value.handlesAll (args ++ keeps))
    (Failure.shownBy Value.handles (apply args))

namespace Native

/-- A scripted function that keeps nothing and raises no exception. -/
def pure (f : List Value → Value)
    (hf : ∀ args, Handle.Borrowed (Value.handlesAll args) (f args).handles) : Native where
  apply args := .ok (f args)
  keeps := []
  borrows args := by simpa [Failure.shownBy] using hf args

instance : Inhabited Native := ⟨pure (fun _ ↦ .nothing) fun _ ↦ Handle.borrowed_nil _⟩

/-- The integers among the arguments. -/
def ints (args : List Value) : List Int64 :=
  args.filterMap Value.int?

/-- The sum of the integers among the arguments. -/
def sum : Native :=
  pure (fun args ↦ .int ((ints args).foldl (· + ·) 0)) fun _ ↦ Handle.borrowed_nil _

/-- The product of the integers among the arguments. -/
def product : Native :=
  pure (fun args ↦ .int ((ints args).foldl (· * ·) 1)) fun _ ↦ Handle.borrowed_nil _

/-- All arguments as a tuple. -/
def tuple : Native :=
  pure .tuple fun args ↦ Handle.borrowed_of_subset (List.Subset.refl (Value.handlesAll args))

/-- All arguments as an array. -/
def array : Native :=
  pure .array fun args ↦ Handle.borrowed_of_subset (List.Subset.refl (Value.handlesAll args))

/-- The first argument, if there is one. -/
def first : Native :=
  pure (fun args ↦ args.head?.getD .nothing) fun args ↦ by
    cases args with
    | nil => exact Handle.borrowed_nil _
    | cons v vs => exact Handle.borrowed_of_subset (Value.handles_subset_of_mem (by simp))

/-- The number of arguments. -/
def count : Native :=
  pure (fun args ↦ .int (Int64.ofNat args.length)) fun _ ↦ Handle.borrowed_nil _

/-- The arguments as text for people. -/
def display : Native :=
  pure (fun args ↦ .str (Value.tuple args).display) fun _ ↦ Handle.borrowed_nil _

/-- The first argument, which has to be a positive integer. -/
def positive : Native where
  apply args :=
    match args.head? with
    | some (.int n) => if 0 < n then .ok (.int n) else raise "DomainError" "not positive"
    | _ => raise "DomainError" "not positive"
  keeps := []
  borrows args := by
    split
    · split <;> exact Handle.borrowed_nil _
    · exact Handle.borrowed_nil _

/-- Always the same value. -/
def const (v : Value) : Native where
  apply _ := .ok v
  keeps := [v]
  borrows _ := Handle.borrowed_of_subset (Value.handles_subset_of_mem (by simp))

/-- Always the same exception. -/
def raising (kind message : String) : Native where
  apply _ := raise kind message
  keeps := []
  borrows _ := Handle.borrowed_nil _

/-- The arguments that an element of a batch stands for. -/
def arguments : Value → List Value
  | .tuple items | .array items => items
  | v => [v]

/-- Apply a function to every element of a batch; the first failure is the failure of all. -/
def applyAll (f : List Value → Except Failure Value) : List Value → Except Failure (List Value)
  | [] => .ok []
  | v :: vs =>
    match f (arguments v) with
    | .ok r => (applyAll f vs).map (r :: ·)
    | .error e => .error e

/-- The handles of the arguments that an element stands for are the element's. -/
theorem handlesAll_arguments (v : Value) : Value.handlesAll (arguments v) = v.handles := by
  cases v <;> simp [arguments, Value.handlesAll, Value.handles]

/-- The results of a batch, or its failure, borrow from its elements and from what the function
keeps. -/
theorem applyAll_borrows (f : Native) (vs : List Value) :
    Handle.Borrowed (Value.handlesAll (vs ++ f.keeps))
      (Failure.shownBy Value.handlesAll (applyAll f.apply vs)) := by
  induction vs with
  | nil => exact Handle.borrowed_nil _
  | cons v vs ih =>
    have hfirst : Handle.Borrowed (Value.handlesAll (v :: vs ++ f.keeps))
        (Failure.shownBy Value.handles (f.apply (arguments v))) := by
      apply (f.borrows _).mono
      simp only [Value.handlesAll_append, handlesAll_arguments, List.cons_append,
        Value.handlesAll]
      grind
    have hrest : Handle.Borrowed (Value.handlesAll (v :: vs ++ f.keeps))
        (Failure.shownBy Value.handlesAll (applyAll f.apply vs)) :=
      ih.mono (by simp [Value.handlesAll])
    rw [applyAll]
    cases hv : f.apply (arguments v) with
    | error e =>
      rw [hv] at hfirst
      exact hfirst
    | ok r =>
      rw [hv] at hfirst
      cases hs : applyAll f.apply vs with
      | error e =>
        rw [hs] at hrest
        exact hrest
      | ok rs =>
        rw [hs] at hrest
        exact Handle.borrowed_append.2 ⟨hfirst, hrest⟩

/-- Apply a function to every element of the batch that is the first argument. -/
def applyBatch (target : Native) (args : List Value) : Except Failure Value :=
  match args.head?.bind Value.items? with
  | some vs => (applyAll target.apply vs).map .array
  | none => raise "MethodError" "expected a vector of tuples"

/-- The answer to a batch borrows from the arguments and from what the function keeps. -/
theorem applyBatch_borrows (target : Native) (args : List Value) :
    Handle.Borrowed (Value.handlesAll (args ++ target.keeps))
      (Failure.shownBy Value.handles (applyBatch target args)) := by
  unfold applyBatch
  split
  · next vs hvs =>
    obtain ⟨first, hfirst, hitems⟩ := Option.bind_eq_some_iff.1 hvs
    have hsame : Failure.shownBy Value.handles ((applyAll target.apply vs).map .array) =
        Failure.shownBy Value.handlesAll (applyAll target.apply vs) := by
      cases applyAll target.apply vs <;> rfl
    rw [hsame]
    apply (target.applyAll_borrows vs).mono
    have hmem : first.handles ⊆ Value.handlesAll args :=
      Value.handles_subset_of_mem (List.mem_of_head? hfirst)
    rw [Value.handlesAll_append, Value.handlesAll_append, Value.handlesAll_items? hitems]
    grind
  · exact Handle.borrowed_nil _

/-- The helper of a function: it takes a batch and applies the function to every element. -/
def batch (target : Native) : Native where
  apply := applyBatch target
  keeps := target.keeps
  borrows := applyBatch_borrows target

end Native

end GuestBridge.Rehearsal
