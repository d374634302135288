import GuestBridge.Value.HostType

/-!
# Reading host types loses no handle

A value that reads as a host type keeps all of its handles in the element that is read. A
value that does not read drops all of them.
-/

namespace GuestBridge

namespace Mismatch

/-- A reading takes care of some handles: its result shows exactly these, or its mismatch
drops exactly these. -/
def Settles {α : Type} (r : Except Mismatch α) (shown : α → List Handle)
    (hs : List Handle) : Prop :=
  match r with
  | .ok x => shown x = hs
  | .error m => m.dropped.Perm hs

/-- A mismatch of a whole value drops all of its handles. -/
theorem settles_of {α : Type} (shown : α → List Handle) (expected : String) (v : Value) :
    Settles (.error (.of expected v)) shown v.handles :=
  List.Perm.refl _

end Mismatch

open Mismatch

/-- The handles of a list of elements. -/
private theorem handles_toValue_cons (t : HostType) (x : t.Carrier) (xs : List t.Carrier) :
    (HostType.toValue (.list t) (x :: xs)).handles =
      (t.toValue x).handles ++ (HostType.toValue (.list t) xs).handles := rfl

/-- Reading one value after the other takes care of the handles of all. -/
theorem readAll_settles (t : HostType)
    (ht : ∀ v, Settles (t.fromValue v) (fun x ↦ (t.toValue x).handles) v.handles)
    (done vs : List Value) :
    match readAll t.fromValue done vs with
    | .ok xs => (HostType.toValue (.list t) xs).handles = Value.handlesAll vs
    | .error m => m.dropped.Perm (Value.handlesAll done ++ Value.handlesAll vs) := by
  induction vs generalizing done with
  | nil => rfl
  | cons v vs ih =>
    have hv := ht v
    simp only [readAll]
    cases hr : t.fromValue v with
    | error m =>
      rw [hr] at hv
      have hm : m.dropped.Perm v.handles := hv
      simp only [Mismatch.followedBy, Value.handlesAll]
      rw [List.perm_iff_count] at hm ⊢
      intro h
      simp only [List.count_append, hm h]
      omega
    | ok x =>
      rw [hr] at hv
      have hx : (t.toValue x).handles = v.handles := hv
      have hrest := ih (done ++ [v])
      cases hs : readAll t.fromValue (done ++ [v]) vs with
      | error m =>
        rw [hs] at hrest
        simpa [Except.map, Value.handlesAll, Value.handlesAll_append] using hrest
      | ok xs =>
        rw [hs] at hrest
        simp only [Except.map, Value.handlesAll, handles_toValue_cons, hx]
        rw [hrest]

mutual

/-- Reading a value takes care of its handles. -/
theorem HostType.fromValue_settles (t : HostType) (v : Value) :
    Settles (t.fromValue v) (fun x ↦ (t.toValue x).handles) v.handles := by
  cases t with
  | value => simp [HostType.fromValue, HostType.toValue, Settles]
  | int w =>
    cases v with
    | int n =>
      simp only [HostType.fromValue]
      split
      · rfl
      · exact settles_of _ _ _
    | _ => exact settles_of _ _ _
  | double => cases v <;> first | rfl | exact settles_of _ _ _
  | bool => cases v <;> first | rfl | exact settles_of _ _ _
  | string => cases v <;> first | rfl | exact settles_of _ _ _
  | unit => cases v <;> first | rfl | exact settles_of _ _ _
  | handle => cases v <;> first | rfl | exact settles_of _ _ _
  | list item =>
    rw [HostType.fromValue]
    split
    · next vs hvs =>
      have hread := readAll_settles item item.fromValue_settles [] vs
      rw [← Value.handlesAll_items? hvs]
      cases hr : readAll item.fromValue [] vs with
      | error m => rw [hr] at hread; exact hread
      | ok xs => rw [hr] at hread; exact hread
    · exact settles_of _ _ _
  | option item =>
    have hv := item.fromValue_settles v
    by_cases hn : v = .nothing
    · subst hn
      rfl
    · rw [HostType.fromValue]
      · cases hr : item.fromValue v with
        | error m => rw [hr] at hv; exact hv
        | ok x => rw [hr] at hv; exact hv
      · exact hn
  | tuple items =>
    rw [HostType.fromValue]
    split
    · next vs hvs =>
      have hread := HostType.fromValues_settles items [] vs
      rw [← Value.handlesAll_items? hvs]
      cases hr : HostType.fromValues items [] vs with
      | error m => rw [hr] at hread; exact hread
      | ok xs => rw [hr] at hread; exact hread
    · exact settles_of _ _ _

/-- Reading the components of a tuple takes care of the handles of all. -/
theorem HostType.fromValues_settles (ts : List HostType) (done vs : List Value) :
    match HostType.fromValues ts done vs with
    | .ok xs => Value.handlesAll (HostType.toValues ts xs) = Value.handlesAll vs
    | .error m => m.dropped.Perm (Value.handlesAll done ++ Value.handlesAll vs) := by
  cases ts with
  | nil =>
    cases vs with
    | nil => rfl
    | cons v vs =>
      simp only [HostType.fromValues, Value.handlesAll]
      rw [List.perm_iff_count]
      intro h
      simp only [List.count_append]
      omega
  | cons t ts =>
    cases vs with
    | nil => simp [HostType.fromValues, Value.handlesAll]
    | cons v vs =>
      have hv := t.fromValue_settles v
      simp only [HostType.fromValues]
      cases hr : t.fromValue v with
      | error m =>
        rw [hr] at hv
        have hm : m.dropped.Perm v.handles := hv
        simp only [Mismatch.followedBy, Value.handlesAll]
        rw [List.perm_iff_count] at hm ⊢
        intro h
        simp only [List.count_append, hm h]
        omega
      | ok x =>
        rw [hr] at hv
        have hx : (t.toValue x).handles = v.handles := hv
        have hrest := HostType.fromValues_settles ts (v :: done) vs
        cases hs : HostType.fromValues ts (v :: done) vs with
        | error m =>
          rw [hs] at hrest
          simp only [Except.map, Value.handlesAll] at hrest ⊢
          rw [List.perm_iff_count] at hrest ⊢
          intro h
          simp only [hrest h, List.count_append]
          omega
        | ok xs =>
          rw [hs] at hrest
          simp only [Except.map, HostType.toValues, Value.handlesAll, hx]
          rw [hrest]

end

end GuestBridge
