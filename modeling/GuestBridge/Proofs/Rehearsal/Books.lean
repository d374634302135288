import GuestBridge.Proofs.Value.Accounts

/-!
# The books of a rehearsal

The books relate the ledger, the handles that are held anywhere, and the ids that are present
in a table of objects. An id that was handed out is present exactly as long as a copy of its
handle is held or it waits for release; while the waiting ids are worked off, those still due
count as waiting.
-/

namespace GuestBridge

/-- An owned handle among some handles shows an id. -/
def Handle.LiveIn (hs : List Handle) (id : Nat) : Prop :=
  ∃ h ∈ hs, h.owner ≠ none ∧ h.id = id

/-- The order of the handles does not matter. -/
theorem Handle.liveIn_perm {hs hs' : List Handle} (h : hs.Perm hs') (id : Nat) :
    LiveIn hs id ↔ LiveIn hs' id := by
  simp only [LiveIn, h.mem_iff]

/-- One more handle shows its id if it is owned. -/
theorem Handle.liveIn_cons {h : Handle} {hs : List Handle} {id : Nat} :
    LiveIn (h :: hs) id ↔ h.owner ≠ none ∧ h.id = id ∨ LiveIn hs id := by
  simp [LiveIn]

/-- A copy of what is held shows nothing new. -/
theorem Handle.liveIn_borrowed {h : Handle} {hs : List Handle} (hb : Borrowed hs [h])
    (id : Nat) : LiveIn (h :: hs) id ↔ LiveIn hs id := by
  rw [liveIn_cons]
  constructor
  · rintro (⟨ho, rfl⟩ | hl)
    · exact ⟨h, hb h (by simp) ho, ho, rfl⟩
    · exact hl
  · exact .inr

namespace Rehearsal

/-- The ledger agrees with the handles held and with the ids present. The ids in `due` have
been taken off the ledger but are still present. -/
structure Books (l : Ledger) (held : List Handle) (present : Nat → Bool) (due : List Nat) :
    Prop where
  accounts : l.Accounts held
  increasing : l.ids.Pairwise (· < ·)
  table : ∀ id ∈ l.ids, present id ↔ Handle.LiveIn held id ∨ id ∈ due ++ l.pending
  waiting : ∀ id ∈ due ++ l.pending, id ∈ l.ids ∧ ¬ Handle.LiveIn held id
  nodup : (due ++ l.pending).Nodup

/-- The books of an empty ledger. -/
theorem books_empty (present : Nat → Bool) : Books Ledger.empty [] present [] where
  accounts := Ledger.accounts_empty
  increasing := by simp [Ledger.ids, Ledger.empty]
  table id h := by simp [Ledger.ids, Ledger.empty] at h
  waiting id h := by simp [Ledger.empty] at h
  nodup := by simp [Ledger.empty]

namespace Books

variable {l : Ledger} {h : Handle} {held held' ks : List Handle} {present present' : Nat → Bool}
  {due : List Nat}

/-- The order of the handles does not matter. -/
theorem perm (b : Books l held present due) (hp : held.Perm held') :
    Books l held' present due where
  accounts := b.accounts.perm hp
  increasing := b.increasing
  table id hid := by rw [b.table id hid, Handle.liveIn_perm hp]
  waiting id hid := by rw [← Handle.liveIn_perm hp]; exact b.waiting id hid
  nodup := b.nodup

/-- Only ids that were handed out matter. -/
theorem congr (b : Books l held present due) (hp : ∀ id ∈ l.ids, present id = present' id) :
    Books l held present' due where
  accounts := b.accounts
  increasing := b.increasing
  table id hid := by rw [← hp id hid]; exact b.table id hid
  waiting := b.waiting
  nodup := b.nodup

/-- A held handle with an owner shows an id that was handed out. -/
theorem mem_ids (b : Books l held present due) (hm : h ∈ held) (ho : h.owner ≠ none) :
    h.id ∈ l.ids := by
  obtain ⟨n, hn⟩ := Option.ne_none_iff_exists'.1 ho
  exact List.mem_of_getElem? (b.accounts.owned h hm n hn)

/-- The object of a held handle is present. -/
theorem present_of_mem (b : Books l held present due) (hm : h ∈ held) (ho : h.owner ≠ none) :
    present h.id :=
  (b.table h.id (b.mem_ids hm ho)).2 (.inl ⟨h, hm, ho, rfl⟩)

/-- Held handles with the same id have the same owner. -/
theorem owner_eq {k : Handle} {n m : Nat} (b : Books l held present due) (hh : h ∈ held)
    (hk : k ∈ held) (hn : h.owner = some n) (hm : k.owner = some m) (hid : h.id = k.id) :
    n = m := by
  have hn' := b.accounts.owned h hh n hn
  have hm' := b.accounts.owned k hk m hm
  rw [hid] at hn'
  have hnodup : l.ids.Nodup := b.increasing.imp (fun h ↦ Nat.ne_of_lt h)
  exact (List.getElem?_inj (List.getElem?_eq_some_iff.1 hn').1 hnodup).1 (hn'.trans hm'.symm)

/-- Another copy of a handle is held. -/
theorem retain (b : Books l held present due) (hb : Handle.Borrowed held [h]) :
    Books (l.retainHandle h) (h :: held) present due where
  accounts := b.accounts.retainHandle hb
  increasing := by rw [Ledger.ids_retainHandle]; exact b.increasing
  table id hid := by
    rw [Ledger.ids_retainHandle] at hid
    rw [Ledger.pending_retainHandle, Handle.liveIn_borrowed hb]
    exact b.table id hid
  waiting id hid := by
    rw [Ledger.pending_retainHandle] at hid
    rw [Ledger.ids_retainHandle, Handle.liveIn_borrowed hb]
    exact b.waiting id hid
  nodup := by rw [Ledger.pending_retainHandle]; exact b.nodup

/-- Copies of handles are held. -/
theorem retainHandles (b : Books l held present due) (hb : Handle.Borrowed held ks) :
    Books (l.retainHandles ks) (ks ++ held) present due := by
  induction ks generalizing l held with
  | nil => exact b
  | cons k ks ih =>
    have hks : Handle.Borrowed (k :: held) ks :=
      (hb.of_subset (List.subset_cons_self k ks)).mono (List.subset_cons_self k held)
    exact (ih (b.retain (hb.of_subset (by simp))) hks).perm List.perm_middle

/-- When a copy is dropped, its id stays live or is the one that comes to wait. -/
private theorem lastOf_cases (b : Books l (h :: held) present due) :
    (Ledger.lastOf h held = [] ∧ ∀ id, Handle.LiveIn (h :: held) id ↔ Handle.LiveIn held id) ∨
    (Ledger.lastOf h held = [h.id] ∧ h.owner ≠ none ∧ ¬ Handle.LiveIn held h.id) := by
  cases hn : h.owner with
  | none =>
    left
    refine ⟨by simp [Ledger.lastOf, hn], fun id ↦ ?_⟩
    simp [Handle.liveIn_cons, hn]
  | some n =>
    by_cases hc : Ledger.copiesIn n held = 0
    · right
      refine ⟨by simp [Ledger.lastOf, hn, hc], by simp, ?_⟩
      rintro ⟨k, hk, ho, hid⟩
      obtain ⟨m, hm⟩ := Option.ne_none_iff_exists'.1 ho
      obtain rfl := b.owner_eq (List.mem_cons_of_mem h hk) (List.mem_cons_self ..) hm hn hid
      have hpos : 0 < Ledger.copiesIn m held := Ledger.copiesIn_pos_iff.2 ⟨k, hk, hm⟩
      omega
    · left
      obtain ⟨k, hk, hkn⟩ := Ledger.copiesIn_pos_iff.1 (Nat.pos_of_ne_zero hc)
      have hid : k.id = h.id := by
        have hown := b.accounts.owned h (List.mem_cons_self ..) n hn
        have hkown := b.accounts.owned k (List.mem_cons_of_mem h hk) n hkn
        simpa [hown, eq_comm] using hkown
      refine ⟨by simp [Ledger.lastOf, hn, hc], fun id ↦ ?_⟩
      rw [Handle.liveIn_cons]
      constructor
      · rintro (⟨-, rfl⟩ | hl)
        · exact ⟨k, hk, by simp [hkn], hid⟩
        · exact hl
      · exact .inr

/-- A copy of a handle is dropped. -/
theorem drop (b : Books l (h :: held) present due) :
    Books (l.dropHandle h) held present due where
  accounts := b.accounts.dropHandle
  increasing := by rw [b.accounts.ids_dropHandle]; exact b.increasing
  table id hid := by
    rw [b.accounts.ids_dropHandle] at hid
    rw [b.accounts.pending_dropHandle, b.table id hid]
    rcases b.lastOf_cases with ⟨hlast, hlive⟩ | ⟨hlast, ho, hdead⟩
    · rw [hlast, List.append_nil, hlive]
    · rw [hlast, Handle.liveIn_cons]
      simp only [List.mem_append, List.mem_singleton]
      grind
  waiting id hid := by
    rw [b.accounts.ids_dropHandle]
    rw [b.accounts.pending_dropHandle, ← List.append_assoc, List.mem_append] at hid
    rcases b.lastOf_cases with ⟨hlast, hlive⟩ | ⟨hlast, ho, hdead⟩
    · rcases hid with hid | hid
      · rw [← hlive]
        exact b.waiting id hid
      · rw [hlast] at hid
        cases hid
    · rcases hid with hid | hid
      · have hwait := b.waiting id hid
        exact ⟨hwait.1, fun hl ↦ hwait.2 (Handle.liveIn_cons.2 (.inr hl))⟩
      · rw [hlast, List.mem_singleton] at hid
        subst hid
        exact ⟨b.mem_ids (List.mem_cons_self ..) ho, hdead⟩
  nodup := by
    rw [b.accounts.pending_dropHandle, ← List.append_assoc]
    rcases b.lastOf_cases with ⟨hlast, -⟩ | ⟨hlast, ho, -⟩
    · rw [hlast, List.append_nil]
      exact b.nodup
    · rw [hlast, List.nodup_append]
      refine ⟨b.nodup, by simp, ?_⟩
      rintro id hid k hk rfl
      obtain rfl := List.mem_singleton.1 hk
      exact (b.waiting _ hid).2 ⟨h, List.mem_cons_self .., ho, rfl⟩

/-- Copies of handles are dropped. -/
theorem dropHandles (b : Books l (ks ++ held) present due) :
    Books (l.dropHandles ks) held present due := by
  induction ks generalizing l with
  | nil => exact b
  | cons k ks ih => exact ih b.drop

/-- A new id is handed out for an object that is present from now on. -/
theorem own {id : Nat} (b : Books l held present due) (typeName : String)
    (hid : ∀ k ∈ l.ids, k < id) :
    Books (l.own id typeName).2 ((l.own id typeName).1 :: held)
      (fun k ↦ present k || k = id) due where
  accounts := b.accounts.own id typeName
  increasing := by
    rw [Ledger.ids_own, List.pairwise_append]
    exact ⟨b.increasing, by simp, fun k hk m hm ↦ by
      rw [List.mem_singleton.1 hm]
      exact hid k hk⟩
  table k hk := by
    rw [Ledger.pending_own, Handle.liveIn_cons]
    rw [Ledger.ids_own, List.mem_append, List.mem_singleton] at hk
    rcases hk with hk | rfl
    · have hne : k ≠ id := Nat.ne_of_lt (hid k hk)
      have hold := b.table k hk
      simpa [hne, hne.symm, Ledger.own] using hold
    · simp [Ledger.own]
  waiting k hk := by
    rw [Ledger.pending_own] at hk
    have hwait := b.waiting k hk
    have hne : k ≠ id := Nat.ne_of_lt (hid k hwait.1)
    rw [Ledger.ids_own, Handle.liveIn_cons]
    simp only [List.mem_append, hwait.1, true_or, true_and, not_or]
    exact ⟨fun hnew ↦ hne hnew.2.symm, hwait.2⟩
  nodup := by rw [Ledger.pending_own]; exact b.nodup

/-- The waiting ids are taken off the ledger to be worked off. -/
theorem take (b : Books l held present []) : Books l.take.2 held present l.take.1 where
  accounts := ⟨b.accounts.copies, b.accounts.owned⟩
  increasing := b.increasing
  table id hid := by simpa [Ledger.take] using b.table id hid
  waiting id hid := b.waiting id (by simpa [Ledger.take] using hid)
  nodup := by simpa [Ledger.take] using b.nodup

/-- The next of the ids that are due is not present any more. -/
theorem settle {id : Nat} (b : Books l held present (id :: due)) :
    Books l held (fun k ↦ present k && k ≠ id) due where
  accounts := b.accounts
  increasing := b.increasing
  table k hk := by
    have hold := b.table k hk
    have hout := (List.nodup_cons.1 b.nodup).1
    have hdead := (b.waiting id (by simp)).2
    by_cases hkid : k = id
    · subst hkid
      have hfree : k ∉ due ++ l.pending := hout
      simp only [hdead, hfree, ne_eq, not_true_eq_false, decide_false, Bool.and_false,
        Bool.false_eq_true, or_false]
    · simpa [hkid] using hold
  waiting k hk := b.waiting k (List.mem_cons_of_mem id hk)
  nodup := (List.nodup_cons.1 b.nodup).2

end Books

end Rehearsal

end GuestBridge
