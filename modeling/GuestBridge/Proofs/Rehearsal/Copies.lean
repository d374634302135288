import GuestBridge.Proofs.Rehearsal.Requests
import Mathlib.Data.List.Forall2

/-!
# Copies that are handed out

A value that is handed out is the same value with other handles: for every handle that shows an
object there is a new one that shows the same object, and a handle that shows nothing is handed
out as it is.
-/

namespace GuestBridge

namespace Value

mutual

/-- A value with all its handles alike. -/
def shape : Value → Value
  | .handle _ => .handle default
  | .array items => .array (shapeAll items)
  | .tuple items => .tuple (shapeAll items)
  | v => v

/-- Values with all their handles alike. -/
def shapeAll : List Value → List Value
  | [] => []
  | v :: vs => shape v :: shapeAll vs

end

mutual

/-- A value without handles is not changed. -/
theorem shape_eq_self {v : Value} (h : v.handles = []) : v.shape = v := by
  cases v with
  | handle k => simp [handles] at h
  | array items => rw [shape, shapeAll_eq_self h]
  | tuple items => rw [shape, shapeAll_eq_self h]
  | _ => rfl

/-- Values without handles are not changed. -/
theorem shapeAll_eq_self {vs : List Value} (h : handlesAll vs = []) : shapeAll vs = vs := by
  cases vs with
  | nil => rfl
  | cons v vs =>
    obtain ⟨hv, hvs⟩ := List.append_eq_nil_iff.1 h
    rw [shapeAll, shape_eq_self hv, shapeAll_eq_self hvs]

end

end Value

namespace Rehearsal

variable {w w' : Scene} {h k : Handle} {o : Object}

/-- A handle was handed out for another one, from a scene to a later one. -/
structure Shown (w w' : Scene) (h k : Handle) : Prop where
  typeName : k.typeName = h.typeName
  /-- It is new and shows the same object. -/
  object : ∀ o, w.guest.object? h.id = some o →
    w.guest.lastId < k.id ∧ w'.guest.object? k.id = some o
  /-- An id that was given out and shows nothing any more stays as it is. -/
  same : w.guest.object? h.id = none → h.id ≤ w.guest.lastId → k = h

/-- A value was handed out, from a scene to a later one. -/
structure Exports (w w' : Scene) (v r : Value) : Prop where
  shape : r.shape = v.shape
  handles : List.Forall₂ (Shown w w') v.handles r.handles

/-- A value without handles is handed out as it is. -/
theorem Exports.eq_of_handles {v r : Value} (e : Exports w w' v r) (hv : v.handles = []) :
    r = v := by
  have hr : r.handles = [] := by
    have hlength := e.handles.length_eq
    rw [hv] at hlength
    exact List.eq_nil_of_length_eq_zero hlength.symm
  rw [← Value.shape_eq_self hr, e.shape, Value.shape_eq_self hv]

/-- What a handle shows it goes on to show. -/
theorem Shown.later {w'' : Scene} (s : Shown w w' h k) (hb : w'.guest.Bounded)
    (g : w'.guest.Grows w''.guest) : Shown w w'' h k where
  typeName := s.typeName
  object o ho := by
    obtain ⟨hlt, hobject⟩ := s.object o ho
    exact ⟨hlt, (g.object? k.id (hb k.id (by simp [hobject]))).trans hobject⟩
  same := s.same

/-- What was handed out from a later scene was handed out from an earlier one, too. -/
theorem Shown.of_earlier {w'' : Scene} (hb : w.guest.Bounded) (g : w.guest.Grows w'.guest)
    (s : Shown w' w'' h k) : Shown w w'' h k where
  typeName := s.typeName
  object o ho := by
    have hid := hb h.id (by simp [ho])
    obtain ⟨hlt, hobject⟩ := s.object o ((g.object? h.id hid).trans ho)
    exact ⟨Nat.lt_of_le_of_lt g.lastId hlt, hobject⟩
  same hn hid := s.same ((g.object? h.id hid).trans hn) (Nat.le_trans hid g.lastId)

/-- A handle that shows an object is handed out under the next id. -/
theorem handOut_adds (ho : w.guest.object? h.id = some o) :
    (w.handOut h).1.id = w.guest.lastId + 1 ∧ (w.handOut h).1.typeName = h.typeName ∧
      (w.handOut h).1.owner ≠ none ∧ w.guest.Adds (w.handOut h).2.guest o := by
  unfold Scene.handOut
  rw [ho]
  exact ⟨rfl, rfl, by simp [Ledger.own], rfl, rfl, rfl⟩

/-- A handle that shows nothing is handed out as it is. -/
theorem handOut_none (ho : w.guest.object? h.id = none) :
    (w.handOut h).1 = h ∧ (w.handOut h).2.guest = w.guest := by
  unfold Scene.handOut
  rw [ho]
  exact ⟨rfl, rfl⟩

/-- A handle that is handed out shows what it is handed out for. -/
theorem shown_handOut (hb : w.guest.Bounded) (h : Handle) :
    Shown w (w.handOut h).2 h (w.handOut h).1 ∧ w.guest.Grows (w.handOut h).2.guest := by
  cases ho : w.guest.object? h.id with
  | none =>
    obtain ⟨hsame, hguest⟩ := handOut_none ho
    rw [hsame, hguest]
    exact ⟨⟨rfl, fun o ho' ↦ by simp [ho] at ho', fun _ _ ↦ rfl⟩, .refl hb⟩
  | some o =>
    obtain ⟨hid, htype, -, hadds⟩ := handOut_adds ho
    obtain ⟨hgrows, hnew⟩ := hadds.grows hb
    refine ⟨⟨htype, fun o' ho' ↦ ?_, fun hn ↦ by simp [ho] at hn⟩, hgrows⟩
    obtain rfl := Option.some.inj (ho.symm.trans ho')
    rw [hid]
    exact ⟨Nat.lt_succ_self _, hnew⟩

/-- Handles that are handed out show what they are handed out for. -/
theorem shown_handOutEach (hb : w.guest.Bounded) (hs : List Handle) :
    List.Forall₂ (Shown w (w.handOutEach hs).2) hs (w.handOutEach hs).1 ∧
      w.guest.Grows (w.handOutEach hs).2.guest := by
  induction hs generalizing w with
  | nil => exact ⟨.nil, .refl hb⟩
  | cons h hs ih =>
    obtain ⟨hfirst, hgrows⟩ := shown_handOut hb h
    obtain ⟨hrest, hgrows'⟩ := ih hgrows.bounded
    exact ⟨.cons (hfirst.later hgrows.bounded hgrows')
      (hrest.imp fun _ _ s ↦ s.of_earlier hb hgrows), hgrows.trans hgrows'⟩

mutual

/-- A value keeps its shape when it is handed out. -/
theorem shape_handOutValue (v : Value) (w : Scene) :
    (Scene.handOutValue v w).1.shape = v.shape := by
  cases v with
  | handle h => rfl
  | array items => simp only [Scene.handOutValue, Value.shape, shapeAll_handOutAll items w]
  | tuple items => simp only [Scene.handOutValue, Value.shape, shapeAll_handOutAll items w]
  | _ => rfl

/-- Values keep their shapes when they are handed out. -/
theorem shapeAll_handOutAll (vs : List Value) (w : Scene) :
    Value.shapeAll (Scene.handOutAll vs w).1 = Value.shapeAll vs := by
  cases vs with
  | nil => rfl
  | cons v vs =>
    simp only [Scene.handOutAll, Value.shapeAll, shape_handOutValue v w,
      shapeAll_handOutAll vs (Scene.handOutValue v w).2]

end

/-- A value that is handed out is what it is handed out for. -/
theorem exports_handOutValue (hb : w.guest.Bounded) (v : Value) :
    Exports w (Scene.handOutValue v w).2 v (Scene.handOutValue v w).1 ∧
      w.guest.Grows (Scene.handOutValue v w).2.guest := by
  obtain ⟨hhandles, hworld⟩ := Scene.handOutValue_eq v w
  obtain ⟨hshown, hgrows⟩ := shown_handOutEach hb v.handles
  rw [hworld]
  exact ⟨⟨shape_handOutValue v w, hhandles ▸ hshown⟩, hgrows⟩

/-- Values that are handed out one after the other are what they are handed out for. -/
theorem exports_handOutAll (hb : w.guest.Bounded) (vs : List Value) :
    List.Forall₂ (Exports w (Scene.handOutAll vs w).2) vs (Scene.handOutAll vs w).1 ∧
      w.guest.Grows (Scene.handOutAll vs w).2.guest := by
  induction vs generalizing w with
  | nil => exact ⟨.nil, .refl hb⟩
  | cons v vs ih =>
    obtain ⟨hfirst, hgrows⟩ := exports_handOutValue hb v
    obtain ⟨hrest, hgrows'⟩ := ih hgrows.bounded
    refine ⟨.cons ⟨hfirst.shape, ?_⟩ (hrest.imp fun _ _ e ↦ ⟨e.shape, ?_⟩),
      hgrows.trans hgrows'⟩
    · exact hfirst.handles.imp fun _ _ s ↦ s.later hgrows.bounded hgrows'
    · exact e.handles.imp fun _ _ s ↦ s.of_earlier hb hgrows

end Rehearsal

end GuestBridge
