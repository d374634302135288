import GuestBridge.Proofs.Bridge.Custody
import GuestBridge.Proofs.Rehearsal.Books
import GuestBridge.Proofs.Rehearsal.Table

/-!
# Rehearsals that are in order

A rehearsal is in order while some handles are held outside of it: its books agree with the
handles held there and with those that it keeps alive itself, its table is in order, and the
handles that it knows by name have no owners. Each thing that happens in a rehearsal keeps it
in order and changes no object, except that objects are forgotten; from the beginning of a
request to its answer they are only added.
-/

namespace GuestBridge.Rehearsal

/-- The handles that a stage keeps alive. -/
def Stage.kept (s : Stage) : List Handle :=
  Value.handlesAll (s.bodies.toList.flatMap Native.keeps) ++
    (Value.handlesAll s.expressions.toList ++
      (Value.handlesAll (s.packages.toList.flatMap Slots.toList) ++
        Value.handlesAll (s.objects.flatMap fun e ↦ e.2.keeps)))

/-- What was scripted, and the handles known by name. -/
structure Stage.Script (s : Stage) : Prop where
  bodies : s.bodies.WF
  expressions : s.expressions.WF
  packages : s.packages.WF
  members : ∀ m ∈ s.packages.toList, m.WF
  globals : ∀ h ∈ s.globals.toList, h.owner = none
  moduleObjects : ∀ h ∈ s.moduleObjects.toList, h.owner = none

/-- Only what was scripted and the names matter. -/
theorem Stage.Script.congr {s s' : Stage} (h : s.Script) (hb : s'.bodies = s.bodies)
    (he : s'.expressions = s.expressions) (hp : s'.packages = s.packages)
    (hg : s'.globals = s.globals) (hm : s'.moduleObjects = s.moduleObjects) : s'.Script where
  bodies := hb ▸ h.bodies
  expressions := he ▸ h.expressions
  packages := hp ▸ h.packages
  members := hp ▸ h.members
  globals := hg ▸ h.globals
  moduleObjects := hm ▸ h.moduleObjects

/-- A rehearsal is in order while these handles are held outside of it and these ids are
still to be forgotten. -/
structure Sound (w : Scene) (hs : List Handle) (due : List Nat) : Prop where
  books : Books w.ledger (hs ++ w.guest.kept) (fun id ↦ (w.guest.object? id).isSome) due
  table : w.guest.Table w.ledger.ids
  script : w.guest.Script

/-- From one scene to a later one nothing is handed out, and no object changes but those that
are forgotten. -/
structure Quiet (w w' : Scene) : Prop where
  shrinks : w.guest.Shrinks w'.guest
  ids : w'.ledger.ids = w.ledger.ids

/-- Nothing happens at once. -/
theorem Quiet.refl (w : Scene) : Quiet w w :=
  ⟨.refl _, rfl⟩

/-- What happens in two steps. -/
theorem Quiet.trans {w w' w'' : Scene} (h : Quiet w w') (h' : Quiet w' w'') : Quiet w w'' :=
  ⟨h.shrinks.trans h'.shrinks, h'.ids.trans h.ids⟩

/-- From one scene to a later one nothing is forgotten and nothing comes to wait: objects are
only added, and these ids are handed out for these objects. -/
structure Extends (w w' : Scene) (xs : List (Nat × Object)) : Prop where
  grows : w.guest.Grows w'.guest
  ids : w'.ledger.ids = w.ledger.ids ++ xs.map Prod.fst
  pending : w'.ledger.pending = w.ledger.pending
  new : ∀ x ∈ xs, w.guest.lastId < x.1 ∧ w'.guest.object? x.1 = some x.2

/-- Nothing is added at once. -/
theorem Extends.refl {w : Scene} (hb : w.guest.Bounded) : Extends w w [] :=
  ⟨.refl hb, by simp, rfl, by simp⟩

/-- What is added in two steps. -/
theorem Extends.trans {w w' w'' : Scene} {xs ys : List (Nat × Object)} (h : Extends w w' xs)
    (h' : Extends w' w'' ys) : Extends w w'' (xs ++ ys) where
  grows := h.grows.trans h'.grows
  ids := by rw [h'.ids, h.ids, List.map_append, List.append_assoc]
  pending := h'.pending.trans h.pending
  new x hx := by
    rcases List.mem_append.1 hx with hx | hx
    · obtain ⟨hlow, hobject⟩ := h.new x hx
      have hgiven := h.grows.bounded x.1 (by simp [hobject])
      exact ⟨hlow, (h'.grows.object? x.1 hgiven).trans hobject⟩
    · obtain ⟨hlow, hobject⟩ := h'.new x hx
      exact ⟨Nat.lt_of_le_of_lt h.grows.lastId hlow, hobject⟩

/-- Only the objects, the last id and the ledger matter. -/
theorem Extends.congr {w w' w'' : Scene} {xs : List (Nat × Object)} (h : Extends w w' xs)
    (ho : w''.guest.objects = w'.guest.objects) (hl : w''.guest.lastId = w'.guest.lastId)
    (hledger : w''.ledger = w'.ledger) : Extends w w'' xs := by
  have hobject : ∀ id, w''.guest.object? id = w'.guest.object? id := by simp [Stage.object?, ho]
  refine ⟨h.grows.congr ho hl, hledger ▸ h.ids, hledger ▸ h.pending, fun x hx ↦ ?_⟩
  rw [hobject]
  exact h.new x hx

/-- Objects may be added without anything being handed out. -/
theorem Extends.quiet {w w' : Scene} (h : Extends w w' []) : Quiet w w' :=
  ⟨h.grows.shrinks, by simpa using h.ids⟩

namespace Sound

variable {w : Scene} {hs hs' : List Handle} {due : List Nat} {h : Handle} {o : Object}

/-- A stage on which nothing has been scripted is in order. -/
theorem bare (refusals : List (Option String)) :
    Sound ⟨Stage.bare refusals, Ledger.empty⟩ [] [] where
  books := books_empty _
  table := Stage.Table.bare refusals
  script := ⟨Slots.wf_empty, Slots.wf_empty, Slots.wf_empty, by simp [Stage.bare, Slots.empty,
    Slots.toList], by simp [Stage.bare, Slots.empty, Slots.toList], by simp [Stage.bare,
    Slots.empty, Slots.toList]⟩

/-- The order of the handles does not matter. -/
theorem perm (s : Sound w hs due) (hp : hs.Perm hs') : Sound w hs' due where
  books := s.books.perm (hp.append_right _)
  table := s.table
  script := s.script

/-- Another copy of a handle is held. -/
theorem retain (s : Sound w hs due) (hb : Handle.Borrowed (hs ++ w.guest.kept) [h]) :
    Sound { w with ledger := w.ledger.retainHandle h } (h :: hs) due where
  books := s.books.retain hb
  table := by rw [Ledger.ids_retainHandle]; exact s.table
  script := s.script

/-- A copy of a handle is dropped. -/
theorem drop (s : Sound w (h :: hs) due) :
    Sound { w with ledger := w.ledger.dropHandle h } hs due where
  books := s.books.drop
  table := by
    have ha : w.ledger.Accounts (h :: (hs ++ w.guest.kept)) := s.books.accounts
    rw [ha.ids_dropHandle]
    exact s.table
  script := s.script

/-- What is only counted or noted does not matter. -/
theorem note (s : Sound w hs due) (refusals : List (Option String)) (evaluated : List String)
    (starts evals calls lookups conversions : Nat) :
    Sound { w with guest := { w.guest with
      refusals, evaluated, starts, evals, calls, lookups, conversions } } hs due where
  books := s.books
  table := s.table.congr rfl rfl rfl rfl
  script := s.script.congr rfl rfl rfl rfl rfl

/-- Starting changes nothing that matters, and a refusal holds no values. -/
theorem start (s : Sound w hs due) :
    Sound { w with guest := w.guest.start.2 }
      (Failure.shownBy (fun _ ↦ []) w.guest.start.1 ++ hs) due := by
  unfold Stage.start
  split <;> exact s.note _ _ _ _ _ _ _

/-! ### Objects -/

/-- No object has an id that was not given out. -/
theorem bounded (s : Sound w hs due) : w.guest.Bounded :=
  fun id hid ↦ (s.table.given id hid).2

/-- What an object in the table keeps alive is kept alive by the stage. -/
theorem keeps_subset {id : Nat} {s : Stage} (ho : s.object? id = some o) :
    Value.handlesAll o.keeps ⊆ s.kept := by
  obtain ⟨e, he, rfl⟩ := Option.map_eq_some_iff.1 ho
  refine List.subset_append_of_subset_right _ (List.subset_append_of_subset_right _
    (List.subset_append_of_subset_right _ ?_))
  obtain ⟨front, back, heq⟩ := List.append_of_mem (List.mem_of_find?_eq_some he)
  rw [heq, List.flatMap_append, List.flatMap_cons, Value.handlesAll_append,
    Value.handlesAll_append]
  exact List.subset_append_of_subset_right _ (List.subset_append_left _ _)

/-- What a stage keeps alive with one more object. -/
theorem kept_add (w : Scene) (o : Object) :
    (w.add o).2.guest.kept.Perm (Value.handlesAll o.keeps ++ w.guest.kept) := by
  rw [List.perm_iff_count]
  intro x
  simp only [Stage.kept, Scene.add, List.flatMap_append, List.flatMap_cons, List.flatMap_nil,
    Value.handlesAll_append, List.append_nil, List.count_append]
  omega

/-- An object that is added comes to the table under the next id. -/
theorem add_adds (w : Scene) (o : Object) : w.guest.Adds (w.add o).2.guest o :=
  ⟨rfl, rfl, rfl⟩

/-- The books with one more object. -/
theorem books_add (s : Sound w hs due)
    (hb : Handle.Borrowed (hs ++ w.guest.kept) (Value.handlesAll o.keeps)) :
    Books (w.add o).2.ledger (hs ++ (w.add o).2.guest.kept)
      (fun id ↦ (w.guest.object? id).isSome) due := by
  refine (s.books.retainHandles hb).perm ?_
  have hkept := kept_add w o
  rw [List.perm_iff_count] at hkept ⊢
  intro x
  have hx := hkept x
  simp only [List.count_append] at hx ⊢
  omega

/-- Adding an object leaves the ids that were handed out. -/
theorem ids_add (w : Scene) (o : Object) : (w.add o).2.ledger.ids = w.ledger.ids :=
  Ledger.ids_retainHandles _ _

/-- Adding an object does not make any id wait. -/
theorem pending_add (w : Scene) (o : Object) :
    (w.add o).2.ledger.pending = w.ledger.pending :=
  Ledger.pending_retainHandles _ _

/-- An object is stored for good. -/
theorem store (s : Sound w hs due) (typeName : String)
    (hb : Handle.Borrowed (hs ++ w.guest.kept) (Value.handlesAll o.keeps)) :
    Sound (w.store o typeName).2 hs due where
  books := by
    refine (s.books_add hb).congr fun id hid ↦ ?_
    rw [ids_add] at hid
    have hne : id ≠ w.guest.lastId + 1 := fun heq ↦ s.table.fresh_notMem (heq ▸ hid)
    rw [Scene.store, (add_adds w o).object? s.table.fresh, if_neg hne]
  table := by
    rw [Scene.store, ids_add]
    exact s.table.store (add_adds w o) rfl
  script := s.script.congr rfl rfl rfl rfl rfl

/-- Storing an object changes no other one. -/
theorem extends_store (s : Sound w hs due) (o : Object) (typeName : String) :
    Extends w (w.store o typeName).2 [] where
  grows := ((add_adds w o).grows s.bounded).1
  ids := by
    rw [List.map_nil, List.append_nil]
    exact ids_add w o
  pending := pending_add w o
  new := by simp

/-- Defining a function by name keeps its object. -/
theorem bindFunction (s : Sound w hs due) (name : String) (f : Native)
    (hb : Handle.Borrowed (hs ++ w.guest.kept) (Value.handlesAll f.keeps)) :
    Sound (w.bindFunction name f) hs due := by
  have hstore := s.store (o := .function f) "Function" hb
  refine ⟨hstore.books, hstore.table.congr rfl rfl rfl rfl, ⟨s.script.bodies,
    s.script.expressions, s.script.packages, s.script.members, ?_, s.script.moduleObjects⟩⟩
  intro h hm
  rcases Slots.mem_toList_put hm with rfl | hm
  · rfl
  · exact s.script.globals h hm

/-- Defining a function by name changes no object. -/
theorem extends_bindFunction (s : Sound w hs due) (name : String) (f : Native) :
    Extends w (w.bindFunction name f) [] :=
  (s.extends_store (.function f) "Function").congr rfl rfl rfl

/-- The object of a module is stored when it is looked up for the first time. -/
theorem moduleObject (s : Sound w hs due) (name : String) :
    Sound (w.moduleObject name).2 hs due := by
  unfold Scene.moduleObject
  split
  · exact s
  · have hstore := s.store (o := .module name) "Module" (Handle.borrowed_nil _)
    refine ⟨hstore.books, hstore.table.congr rfl rfl rfl rfl, ⟨s.script.bodies,
      s.script.expressions, s.script.packages, s.script.members, s.script.globals, ?_⟩⟩
    intro h hm
    rcases Slots.mem_toList_put hm with rfl | hm
    · rfl
    · exact s.script.moduleObjects h hm

/-- Looking the object of a module up changes no object. -/
theorem extends_moduleObject (s : Sound w hs due) (name : String) :
    Extends w (w.moduleObject name).2 [] := by
  unfold Scene.moduleObject
  split
  · exact .refl s.bounded
  · exact (s.extends_store (.module name) "Module").congr rfl rfl rfl

/-- The handle of a module's object has no owner. -/
theorem moduleObject_owner (s : Sound w hs due) (name : String) :
    (w.moduleObject name).1.owner = none := by
  unfold Scene.moduleObject
  split
  · next h hf => exact s.script.moduleObjects h (Slots.mem_toList_of_find? hf)
  · rfl

/-! ### Forgetting objects -/

/-- An id that is due has an object in the table. -/
private theorem exists_object {id : Nat} (s : Sound w hs (id :: due)) :
    ∃ o, w.guest.object? id = some o :=
  Option.isSome_iff_exists.1
    ((s.books.table id (s.books.waiting id (by simp)).1).2 (.inr (by simp)))

/-- An object that is forgotten leaves the table. -/
private theorem forget_removes {id : Nat} (ho : w.guest.object? id = some o) :
    w.guest.Removes (w.forget id).guest id := by
  simp only [Scene.forget, ho]
  exact ⟨rfl, rfl, rfl, rfl⟩

/-- What a stage keeps alive without an object. -/
private theorem kept_forget {id : Nat} (s : Sound w hs due) (ho : w.guest.object? id = some o) :
    w.guest.kept.Perm (Value.handlesAll o.keeps ++ (w.forget id).guest.kept) := by
  have hvalues := Distinct.values_perm s.table.distinct id
  rw [show (w.guest.objects.find? (·.1 = id)).map (·.2) = some o from ho] at hvalues
  have hobjects := Value.handlesAll_perm (hvalues.flatMap_right Object.keeps)
  simp only [Option.toList_some, List.singleton_append, List.flatMap_cons, List.flatMap_map,
    Value.handlesAll_append] at hobjects
  rw [List.perm_iff_count] at hobjects ⊢
  intro x
  have hx := hobjects x
  simp only [Stage.kept, Scene.forget, ho, List.count_append] at hx ⊢
  omega

/-- The first of the ids that are due is forgotten. Nothing that its object keeps alive comes
to wait, because the object is still there under another id. -/
private theorem forget {id : Nat} (s : Sound w hs (id :: due)) :
    Sound (w.forget id) hs due ∧ (w.forget id).ledger.pending = w.ledger.pending := by
  obtain ⟨o, ho⟩ := s.exists_object
  have hremoves := forget_removes ho
  have hid := (s.books.waiting id (by simp)).1
  have hnodup : w.ledger.ids.Nodup := s.books.increasing.imp (fun h ↦ Nat.ne_of_lt h)
  have hledger : (w.forget id).ledger = w.ledger.dropHandles (Value.handlesAll o.keeps) := by
    simp only [Scene.forget, ho, Ledger.dropAll]
  have hbooks : Books w.ledger
      (Value.handlesAll o.keeps ++ (hs ++ (w.forget id).guest.kept))
      (fun k ↦ ((w.guest.object? k).isSome && k ≠ id)) due := by
    refine s.books.settle.perm ?_
    have hkept := s.kept_forget ho
    rw [List.perm_iff_count] at hkept ⊢
    intro x
    have hx := hkept x
    simp only [List.count_append] at hx ⊢
    omega
  refine ⟨⟨?_, ?_, ?_⟩, ?_⟩
  · rw [hledger]
    refine hbooks.dropHandles.congr fun k _ ↦ ?_
    rw [hremoves.object?]
    by_cases hk : k = id <;> simp [hk]
  · rw [hledger, hbooks.accounts.ids_dropHandles]
    exact s.table.forget hnodup hid (by simp [ho]) hremoves
  · simp only [Scene.forget, ho]
    exact s.script.congr rfl rfl rfl rfl rfl
  · rw [hledger]
    apply hbooks.accounts.pending_dropHandles
    obtain ⟨k, hout, hk⟩ := s.table.originals id o ho
    have hne : k ≠ id := fun heq ↦ hout (heq ▸ hid)
    have hstill : (w.forget id).guest.object? k = some o := by
      rw [hremoves.object?, if_neg hne, hk]
    exact Handle.borrowed_of_subset
      (List.subset_append_of_subset_right _ (keeps_subset hstill))

/-- Forgetting an object changes no other one. -/
private theorem quiet_forget {id : Nat} (s : Sound w hs (id :: due)) :
    Quiet w (w.forget id) := by
  obtain ⟨o, ho⟩ := s.exists_object
  refine ⟨Stage.Table.shrinks_removes (forget_removes ho), ?_⟩
  have ha := s.books.accounts.perm ((s.kept_forget ho).append_left hs)
  have ha' : w.ledger.Accounts (Value.handlesAll o.keeps ++
      (hs ++ (w.forget id).guest.kept)) := ha.perm (by
    rw [← List.append_assoc, ← List.append_assoc]
    exact List.perm_append_comm.append_right _)
  simp only [Scene.forget, ho, Ledger.dropAll]
  exact ha'.ids_dropHandles

/-- All ids that are due are forgotten, one after the other. -/
private theorem forgetAll (s : Sound w hs due) :
    Sound (due.foldl Scene.forget w) hs [] ∧ Quiet w (due.foldl Scene.forget w) ∧
      (due.foldl Scene.forget w).ledger.pending = w.ledger.pending ∧
      ∀ k, (due.foldl Scene.forget w).guest.object? k =
        if k ∈ due then none else w.guest.object? k := by
  induction due generalizing w with
  | nil => exact ⟨s, .refl w, rfl, by simp⟩
  | cons id due ih =>
    obtain ⟨hnext, hpending⟩ := s.forget
    obtain ⟨hsound, hquiet, hwait, hobject⟩ := ih hnext
    refine ⟨hsound, s.quiet_forget.trans hquiet, hwait.trans hpending, fun k ↦ ?_⟩
    obtain ⟨o, ho⟩ := s.exists_object
    rw [List.foldl_cons, hobject, (forget_removes ho).object?]
    by_cases hk : k = id <;> simp [hk]

/-- The waiting ids are taken off the ledger and become due. -/
private theorem take (s : Sound w hs []) :
    Sound { w with ledger := w.ledger.take.2 } hs w.ledger.pending :=
  ⟨s.books.take, s.table, s.script⟩

/-- A request begins. -/
theorem beginRequest (s : Sound w hs []) : Sound w.begin hs [] :=
  s.take.forgetAll.1

/-- A request that begins changes no object but those that are forgotten. -/
theorem quiet_begin (s : Sound w hs []) : Quiet w w.begin :=
  have hquiet := s.take.forgetAll.2.1
  ⟨hquiet.shrinks, hquiet.ids⟩

/-- When a request has begun nothing waits. -/
theorem pending_begin (s : Sound w hs []) : w.begin.ledger.pending = [] :=
  s.take.forgetAll.2.2.1

/-- When a request has begun, exactly the objects are gone whose ids were waiting. -/
theorem object?_begin (s : Sound w hs []) (k : Nat) :
    w.begin.guest.object? k = if k ∈ w.ledger.pending then none else w.guest.object? k :=
  s.take.forgetAll.2.2.2 k

end Sound

end GuestBridge.Rehearsal
