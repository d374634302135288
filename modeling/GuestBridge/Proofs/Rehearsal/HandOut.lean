import GuestBridge.Proofs.Rehearsal.Sound

/-!
# Handing values out

A value is handed out handle by handle, in document order. Every handle that shows an object
gets the next id, with a copy of the object; what was handed out is listed with the objects
that it was handed out for.
-/

namespace GuestBridge.Rehearsal

namespace Scene

/-- Hand handles out, in order. -/
def handOutEach : List Handle → Scene → List Handle × Scene
  | [], w => ([], w)
  | h :: hs, w =>
    let (h, w) := w.handOut h
    let (hs, w) := handOutEach hs w
    (h :: hs, w)

/-- The ids under which handles are handed out, with the objects that they show. -/
def exports : List Handle → Scene → List (Nat × Object)
  | [], _ => []
  | h :: hs, w =>
    ((w.guest.object? h.id).map fun o ↦ ((w.handOut h).1.id, o)).toList ++
      exports hs (w.handOut h).2

/-- Handing out one list of handles behind another. -/
theorem handOutEach_append (hs ks : List Handle) (w : Scene) :
    handOutEach (hs ++ ks) w =
      ((handOutEach hs w).1 ++ (handOutEach ks (handOutEach hs w).2).1,
        (handOutEach ks (handOutEach hs w).2).2) := by
  induction hs generalizing w with
  | nil => rfl
  | cons h hs ih => simp only [List.cons_append, handOutEach, ih]

mutual

/-- A value is handed out handle by handle. -/
theorem handOutValue_eq (v : Value) (w : Scene) :
    (handOutValue v w).1.handles = (handOutEach v.handles w).1 ∧
      (handOutValue v w).2 = (handOutEach v.handles w).2 := by
  cases v with
  | handle h => exact ⟨rfl, rfl⟩
  | array items => exact handOutAll_eq items w
  | tuple items => exact handOutAll_eq items w
  | _ => exact ⟨rfl, rfl⟩

/-- Values are handed out handle by handle. -/
theorem handOutAll_eq (vs : List Value) (w : Scene) :
    Value.handlesAll (handOutAll vs w).1 = (handOutEach (Value.handlesAll vs) w).1 ∧
      (handOutAll vs w).2 = (handOutEach (Value.handlesAll vs) w).2 := by
  cases vs with
  | nil => exact ⟨rfl, rfl⟩
  | cons v vs =>
    obtain ⟨hv, hvw⟩ := handOutValue_eq v w
    obtain ⟨hvs, hvsw⟩ := handOutAll_eq vs (handOutValue v w).2
    rw [hvw] at hvs hvsw
    simp only [handOutAll, Value.handlesAll, handOutEach_append, hvw]
    exact ⟨by rw [hv, hvs], hvsw⟩

end

end Scene

/-- From one scene to a later one these ids are handed out for these objects, and no object
changes but those that are forgotten. -/
structure Later (w w' : Scene) (xs : List (Nat × Object)) : Prop where
  shrinks : w.guest.Shrinks w'.guest
  ids : w'.ledger.ids = w.ledger.ids ++ xs.map Prod.fst
  new : ∀ x ∈ xs, w.guest.lastId < x.1 ∧ x.1 ≤ w'.guest.lastId ∧
    (w'.guest.object? x.1 = none ∨ w'.guest.object? x.1 = some x.2)

/-- Objects that are handed out are added. -/
theorem Extends.later {w w' : Scene} {xs : List (Nat × Object)} (h : Extends w w' xs) :
    Later w w' xs where
  shrinks := h.grows.shrinks
  ids := h.ids
  new x hx := by
    obtain ⟨hlow, hobject⟩ := h.new x hx
    exact ⟨hlow, h.grows.bounded x.1 (by simp [hobject]), .inr hobject⟩

/-- Nothing is handed out in the meantime. -/
theorem Quiet.later {w w' : Scene} (h : Quiet w w') : Later w w' [] where
  shrinks := h.shrinks
  ids := by rw [h.ids]; simp
  new x hx := by cases hx

/-- What is handed out in two steps. -/
theorem Later.trans {w w' w'' : Scene} {xs ys : List (Nat × Object)} (h : Later w w' xs)
    (h' : Later w' w'' ys) : Later w w'' (xs ++ ys) where
  shrinks := h.shrinks.trans h'.shrinks
  ids := by rw [h'.ids, h.ids, List.map_append, List.append_assoc]
  new x hx := by
    rcases List.mem_append.1 hx with hx | hx
    · obtain ⟨hlow, hhigh, hobject⟩ := h.new x hx
      refine ⟨hlow, Nat.le_trans hhigh h'.shrinks.1, ?_⟩
      rcases h'.shrinks.2 x.1 hhigh with hgone | hsame
      · exact .inl hgone
      · rw [hsame]
        exact hobject
    · obtain ⟨hlow, hrest⟩ := h'.new x hx
      exact ⟨Nat.lt_of_le_of_lt h.shrinks.1 hlow, hrest⟩

namespace Sound

variable {w : Scene} {hs ks : List Handle} {due : List Nat}

/-- A handle that shows an object is handed out under the next id. -/
private theorem handOut_eq {h : Handle} {o : Object} (ho : w.guest.object? h.id = some o) :
    w.handOut h =
      (((w.add o).2.ledger.own (w.guest.lastId + 1) h.typeName).1,
        ⟨{ (w.add o).2.guest with exported := w.guest.exported + 1 },
          ((w.add o).2.ledger.own (w.guest.lastId + 1) h.typeName).2⟩) := by
  simp only [Scene.handOut, ho]
  rfl

/-- Copies of handles are held, and nothing else changes. -/
theorem retainHandles (s : Sound w hs due) (hb : Handle.Borrowed (hs ++ w.guest.kept) ks) :
    Sound { w with ledger := w.ledger.retainHandles ks } (ks ++ hs) due ∧
      Extends w { w with ledger := w.ledger.retainHandles ks } [] where
  left := by
    refine ⟨?_, by rw [Ledger.ids_retainHandles]; exact s.table, s.script⟩
    rw [List.append_assoc]
    exact s.books.retainHandles hb
  right := ⟨.refl s.bounded, by simp, Ledger.pending_retainHandles _ _, by simp⟩

/-- What a stage keeps alive does not get less when a handle is handed out. -/
theorem kept_handOut (w : Scene) (h : Handle) :
    w.guest.kept ⊆ (w.handOut h).2.guest.kept := by
  cases ho : w.guest.object? h.id with
  | none =>
    simp only [Scene.handOut, ho]
    exact List.Subset.refl _
  | some o =>
    rw [handOut_eq ho]
    intro x hx
    exact (kept_add w o).mem_iff.2 (List.mem_append_right _ hx)

/-- A handle is handed out. -/
theorem handOut {h : Handle} (s : Sound w hs due)
    (hb : Handle.Borrowed (hs ++ w.guest.kept) [h]) :
    Sound (w.handOut h).2 ((w.handOut h).1 :: hs) due ∧
      Extends w (w.handOut h).2 (w.exports [h]) := by
  cases ho : w.guest.object? h.id with
  | none =>
    simp only [Scene.exports, Scene.handOut, ho]
    exact ⟨s.retain hb, .refl s.bounded, by simp, Ledger.pending_retainHandle _ _, by simp⟩
  | some o =>
    have hadds : w.guest.Adds (w.handOut h).2.guest o := by
      rw [handOut_eq ho]
      exact ⟨rfl, rfl, rfl⟩
    have hids : (w.handOut h).2.ledger.ids = w.ledger.ids ++ [w.guest.lastId + 1] := by
      rw [handOut_eq ho]
      simp only [Ledger.ids_own, ids_add]
    have hnew : (w.handOut h).1.id = w.guest.lastId + 1 := by
      rw [handOut_eq ho]
      rfl
    have hbooks := s.books_add (o := o)
      (Handle.borrowed_of_subset (List.subset_append_of_subset_right _ (keeps_subset ho)))
    have hless : ∀ k ∈ (w.add o).2.ledger.ids, k < w.guest.lastId + 1 := by
      intro k hk
      rw [ids_add] at hk
      exact Nat.lt_succ_of_le (s.table.issued k hk).2
    have hown := hbooks.own h.typeName hless
    obtain ⟨hgrows, hobject⟩ := hadds.grows s.bounded
    refine ⟨⟨?_, ?_, ?_⟩, ⟨hgrows, ?_, ?_, ?_⟩⟩
    · have hobject := hadds.object? s.table.fresh
      rw [handOut_eq ho] at hobject ⊢
      refine hown.congr fun k _ ↦ ?_
      rw [hobject]
      by_cases hk : k = w.guest.lastId + 1 <;> simp [hk]
    · rw [hids]
      exact s.table.handOut ho hadds (by rw [handOut_eq ho])
    · rw [handOut_eq ho]
      exact s.script.congr rfl rfl rfl rfl rfl
    · simp [hids, Scene.exports, ho, hnew]
    · rw [handOut_eq ho]
      exact pending_add w o
    · intro x hx
      obtain rfl : x = (w.guest.lastId + 1, o) := by simpa [Scene.exports, ho, hnew] using hx
      exact ⟨Nat.lt_succ_self _, hobject⟩

/-- Handles are handed out. -/
theorem handOutEach (s : Sound w hs due)
    (hb : Handle.Borrowed (hs ++ w.guest.kept) ks) :
    Sound (w.handOutEach ks).2 ((w.handOutEach ks).1 ++ hs) due ∧
      Extends w (w.handOutEach ks).2 (w.exports ks) := by
  induction ks generalizing w hs with
  | nil => exact ⟨s, .refl s.bounded⟩
  | cons k ks ih =>
    obtain ⟨hfirst, hextends⟩ := s.handOut (hb.of_subset (by simp : [k] ⊆ k :: ks))
    have hrest : Handle.Borrowed
        (((w.handOut k).1 :: hs) ++ (w.handOut k).2.guest.kept) ks := by
      refine (hb.of_subset (List.subset_cons_self k ks)).mono fun x hx ↦ ?_
      rcases List.mem_append.1 hx with hx | hx
      · exact List.mem_append_left _ (List.mem_cons_of_mem _ hx)
      · exact List.mem_append_right _ (kept_handOut w k hx)
    obtain ⟨hall, hmore⟩ := ih hfirst hrest
    refine ⟨hall.perm List.perm_middle, ?_⟩
    have htrans := hextends.trans hmore
    simpa [Scene.exports, Scene.handOutEach] using htrans

/-- A value is handed out. -/
theorem handOutValue {v : Value} (s : Sound w hs due)
    (hb : Handle.Borrowed (hs ++ w.guest.kept) v.handles) :
    Sound (Scene.handOutValue v w).2 ((Scene.handOutValue v w).1.handles ++ hs) due ∧
      Extends w (Scene.handOutValue v w).2 (w.exports v.handles) := by
  obtain ⟨hhandles, hworld⟩ := Scene.handOutValue_eq v w
  rw [hhandles, hworld]
  exact s.handOutEach hb

end Sound

end GuestBridge.Rehearsal
