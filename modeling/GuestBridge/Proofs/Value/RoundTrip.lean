import GuestBridge.Value.HostType

/-!
# What is sent as a value comes back

An element of a host type is sent as a value and read again. Everything comes back as it was,
whatever lists, options and tuples it is nested in, but for one thing: an option of something
that is sent as nothing cannot be told from an empty option, and comes back as one. This
happens to the types in which an option is taken of a type with such an element, and to no
others.
-/

namespace GuestBridge

/-- A value that says that there is none. -/
def Value.isNothing : Value → Bool
  | .nothing => true
  | _ => false

/-- There is one such value. -/
theorem Value.isNothing_iff {v : Value} : v.isNothing ↔ v = .nothing := by
  cases v <;> simp [isNothing]

namespace HostType

/-! ### What comes back -/

/-- A type that has an element that is sent as nothing: the unit, values themselves, and
options. -/
def mayBeNothing : HostType → Bool
  | .unit | .value | .option _ => true
  | _ => false

mutual

/-- No option is taken of a type that has an element that is sent as nothing, at any depth. -/
def lossless : HostType → Bool
  | .list item => item.lossless
  | .option item => !item.mayBeNothing && item.lossless
  | .tuple items => allLossless items
  | _ => true

/-- This is so for all of a list of host types. -/
def allLossless : List HostType → Bool
  | [] => true
  | t :: ts => t.lossless && allLossless ts

end

mutual

/-- What comes back of an element: an option of something that is sent as nothing is empty, at
any depth, and everything else is as it was. -/
def collapse : (t : HostType) → t.Carrier → t.Carrier
  | .list item, xs => List.map item.collapse xs
  | .option item, x =>
    Option.bind x fun y ↦ if (item.toValue y).isNothing then none else some (item.collapse y)
  | .tuple items, xs => collapseAll items xs
  | .value, x | .int _, x | .double, x | .bool, x | .string, x | .unit, x | .handle, x => x

/-- What comes back of the components of a tuple. -/
def collapseAll : (ts : List HostType) → Carriers ts → Carriers ts
  | [], _ => ()
  | t :: ts, (x, xs) => (t.collapse x, collapseAll ts xs)

end

mutual

/-- Some element of a host type. -/
def sample : (t : HostType) → t.Carrier
  | .value => .nothing
  | .int w => ⟨0, by cases w <;> decide⟩
  | .double => Binary64.zero false
  | .bool => false
  | .string => ""
  | .unit => ()
  | .handle => .permanent 0 ""
  | .list _ => []
  | .option _ => none
  | .tuple items => samples items

/-- Some tuple over a list of host types. -/
def samples : (ts : List HostType) → Carriers ts
  | [] => ()
  | t :: ts => (t.sample, samples ts)

end

/-! ### Types with an element that is sent as nothing -/

/-- A type has an element that is sent as nothing. -/
theorem mayBeNothing_iff (t : HostType) :
    t.mayBeNothing ↔ ∃ x : t.Carrier, t.toValue x = .nothing := by
  cases t with
  | value => exact ⟨fun _ ↦ ⟨.nothing, rfl⟩, fun _ ↦ rfl⟩
  | unit => exact ⟨fun _ ↦ ⟨(), rfl⟩, fun _ ↦ rfl⟩
  | option item => exact ⟨fun _ ↦ ⟨none, rfl⟩, fun _ ↦ rfl⟩
  | _ => exact ⟨nofun, fun ⟨x, hx⟩ ↦ nomatch hx⟩

/-- An option of something is sent as that is. -/
theorem toValue_some {item : HostType} (y : item.Carrier) :
    toValue (.option item) (some y) = item.toValue y := rfl

/-- What comes back of an option of something. -/
theorem collapse_some {item : HostType} (y : item.Carrier) :
    collapse (.option item) (some y) =
      if (item.toValue y).isNothing then none else some (item.collapse y) := rfl

mutual

/-- Everything comes back as it was for the types that take no option of a type with an element
that is sent as nothing, and for no others. -/
theorem lossless_iff (t : HostType) : t.lossless ↔ ∀ x : t.Carrier, t.collapse x = x := by
  cases t with
  | list item =>
    rw [lossless, lossless_iff item]
    constructor
    · intro h xs
      exact (List.map_congr_left fun y _ ↦ h y).trans (List.map_id _)
    · intro h y
      have hy : [item.collapse y] = [y] := h [y]
      exact List.singleton_inj.1 hy
  | option item =>
    rw [lossless, Bool.and_eq_true, lossless_iff item, Bool.not_eq_true']
    constructor
    · rintro ⟨hsome, h⟩ (_ | y)
      · rfl
      · have hy : ¬ (item.toValue y).isNothing := by
          rw [Value.isNothing_iff]
          intro hnothing
          rw [(mayBeNothing_iff item).2 ⟨y, hnothing⟩] at hsome
          cases hsome
        rw [collapse_some, if_neg hy, h y]
    · intro h
      refine ⟨Bool.eq_false_iff.2 fun hsome ↦ ?_, fun y ↦ ?_⟩
      · obtain ⟨y, hy⟩ := (mayBeNothing_iff item).1 hsome
        have hback := h (some y)
        rw [collapse_some, if_pos (Value.isNothing_iff.2 hy)] at hback
        cases hback
      · have hback := h (some y)
        rw [collapse_some] at hback
        split at hback
        · cases hback
        · exact Option.some.inj hback
  | tuple items =>
    rw [lossless, allLossless_iff items]
    rfl
  | _ => exact ⟨fun _ _ ↦ rfl, fun _ ↦ rfl⟩

/-- This is so for all of a list of host types. -/
theorem allLossless_iff (ts : List HostType) :
    allLossless ts ↔ ∀ xs : Carriers ts, collapseAll ts xs = xs := by
  cases ts with
  | nil => exact ⟨fun _ _ ↦ rfl, fun _ ↦ rfl⟩
  | cons t ts =>
    rw [allLossless, Bool.and_eq_true, lossless_iff t, allLossless_iff ts]
    constructor
    · rintro ⟨ht, hts⟩ ⟨x, xs⟩
      exact Prod.ext (ht x) (hts xs)
    · intro h
      exact ⟨fun x ↦ congrArg Prod.fst (h (x, samples ts)),
        fun xs ↦ congrArg Prod.snd (h (t.sample, xs))⟩

end

/-! ### Reading what was sent -/

/-- Values that read one by one are read one after the other. -/
theorem readAll_map {α β : Type} {read : Value → Except Mismatch α} {send : β → Value}
    {back : β → α} (h : ∀ y, read (send y) = .ok (back y)) (done : List Value) (ys : List β) :
    readAll read done (ys.map send) = .ok (ys.map back) := by
  induction ys generalizing done with
  | nil => rfl
  | cons y ys ih =>
    rw [List.map_cons, readAll, h y]
    simp only [ih]
    rfl

/-- A value that is not nothing is read as an option by reading what it is an option of. -/
theorem fromValue_option {item : HostType} {v : Value} (h : ¬ v.isNothing) :
    fromValue (.option item) v = (item.fromValue v).map some := by
  cases v with
  | nothing => exact absurd rfl h
  | _ => rfl

mutual

/-- What is read of an element that was sent. -/
theorem fromValue_toValue (t : HostType) (x : t.Carrier) :
    t.fromValue (t.toValue x) = .ok (t.collapse x) := by
  cases t with
  | int w => exact dif_pos x.2
  | list item => exact readAll_map (fromValue_toValue item) [] x
  | option item =>
    cases x with
    | none => rfl
    | some y =>
      rw [toValue_some, collapse_some]
      split
      · next hy =>
        rw [Value.isNothing_iff.1 hy]
        rfl
      · next hy =>
        rw [fromValue_option hy, fromValue_toValue item y]
        rfl
  | tuple items => exact fromValues_toValues items [] x
  | _ => rfl

/-- What is read of the components of a tuple that was sent. -/
theorem fromValues_toValues (ts : List HostType) (done : List Value) (xs : Carriers ts) :
    fromValues ts done (toValues ts xs) = .ok (collapseAll ts xs) := by
  cases ts with
  | nil => rfl
  | cons t ts =>
    obtain ⟨x, xs⟩ := xs
    rw [toValues, fromValues, fromValue_toValue t x]
    simp only [fromValues_toValues ts]
    rfl

end

/-- Every element of a host type that was sent is read. It comes back as it was, but for options
of what is sent as nothing, which come back empty. Such options are the only ones that do not
come back, and only the unit, values and options have such elements. -/
theorem round_trips (t : HostType) :
    (∀ x : t.Carrier, t.fromValue (t.toValue x) = .ok (t.collapse x)) ∧
      (t.lossless ↔ ∀ x : t.Carrier, t.fromValue (t.toValue x) = .ok x) ∧
        (t.mayBeNothing ↔ ∃ x : t.Carrier, t.toValue x = .nothing) := by
  refine ⟨fromValue_toValue t, ?_, mayBeNothing_iff t⟩
  rw [lossless_iff]
  simp only [fromValue_toValue, Except.ok.injEq]

example : collapse (.list (.option .unit)) [some (), none] = [none, none] := rfl

end HostType

end GuestBridge
