import GuestBridge.Value.Ledger

/-!
# The ledger's accounts

A ledger accounts for a list of handles if every owner counts exactly its copies among them.
Taking note of a copy of a handle that is held, dropping one, and owning a new handle keep
the accounts. An id comes to wait for release exactly when the last copy is dropped.
-/

namespace GuestBridge

namespace Ledger

/-- How many of some handles have the owner `n`. -/
def copiesIn (n : Nat) (hs : List Handle) : Nat :=
  hs.countP fun h ↦ h.owner = some n

/-- The ids of the owners, by number. -/
def ids (l : Ledger) : List Nat :=
  l.owners.map (·.id)

/-- A ledger accounts for some handles: every owner counts its copies among them, and every
copy shows the id of its owner. -/
structure Accounts (l : Ledger) (hs : List Handle) : Prop where
  copies : ∀ n o, l.owners[n]? = some o → o.copies = copiesIn n hs
  owned : ∀ h ∈ hs, ∀ n, h.owner = some n → l.ids[n]? = some h.id

/-- The id that comes to wait when a handle is dropped while others are held. -/
def lastOf (h : Handle) (hs : List Handle) : List Nat :=
  match h.owner with
  | none => []
  | some n => if copiesIn n hs = 0 then [h.id] else []

/-- The first handle counts if its owner is asked for. -/
theorem copiesIn_cons (n : Nat) (h : Handle) (hs : List Handle) :
    copiesIn n (h :: hs) = copiesIn n hs + if h.owner = some n then 1 else 0 := by
  simp [copiesIn, List.countP_cons]

/-- Counting does not depend on the order. -/
theorem copiesIn_perm {hs hs' : List Handle} (h : hs.Perm hs') (n : Nat) :
    copiesIn n hs = copiesIn n hs' :=
  h.countP_eq _

/-- An owner has a copy exactly if one is in the list. -/
theorem copiesIn_pos_iff {n : Nat} {hs : List Handle} :
    0 < copiesIn n hs ↔ ∃ h ∈ hs, h.owner = some n := by
  simp [copiesIn, List.countP_pos_iff]

/-- A handle of which another copy is held is not the last one. -/
theorem lastOf_of_mem {h : Handle} {hs : List Handle} (hm : h ∈ hs) : lastOf h hs = [] := by
  unfold lastOf
  cases ho : h.owner with
  | none => rfl
  | some n =>
    have hpos : 0 < copiesIn n hs := copiesIn_pos_iff.2 ⟨h, hm, ho⟩
    simp only [ite_eq_right_iff]
    omega

/-- The empty ledger accounts for nothing. -/
theorem accounts_empty : Accounts empty [] where
  copies n o h := by simp [empty] at h
  owned h hm := by simp at hm

namespace Accounts

variable {l : Ledger} {h : Handle} {hs hs' : List Handle}

/-- The order of the handles does not matter. -/
theorem perm (ha : l.Accounts hs) (hp : hs.Perm hs') : l.Accounts hs' where
  copies n o ho := by rw [ha.copies n o ho, copiesIn_perm hp]
  owned x hx := ha.owned x (hp.mem_iff.2 hx)

/-- No handle that is accounted for has an owner that does not exist. -/
theorem owner_lt (ha : l.Accounts hs) (hm : h ∈ hs) {n : Nat} (hn : h.owner = some n) :
    n < l.owners.length := by
  have hid := ha.owned h hm n hn
  have hlt := (List.getElem?_eq_some_iff.1 hid).1
  simpa [ids] using hlt

/-- A handle without owner is not accounted for. -/
theorem cons_unowned (ha : l.Accounts hs) (hn : h.owner = none) : l.Accounts (h :: hs) where
  copies n o ho := by rw [ha.copies n o ho, copiesIn_cons, hn]; simp
  owned x hx n hxn := by
    rcases List.mem_cons.1 hx with rfl | hx
    · rw [hn] at hxn; cases hxn
    · exact ha.owned x hx n hxn

end Accounts

/-- A new owner comes with its id. -/
@[simp] theorem ids_own (l : Ledger) (id : Nat) (typeName : String) :
    (l.own id typeName).2.ids = l.ids ++ [id] := by
  simp [own, ids]

/-- A new owner leaves those that wait. -/
@[simp] theorem pending_own (l : Ledger) (id : Nat) (typeName : String) :
    (l.own id typeName).2.pending = l.pending := rfl

/-- A new handle is accounted for. -/
theorem Accounts.own {l : Ledger} {hs : List Handle} (ha : l.Accounts hs) (id : Nat)
    (typeName : String) :
    (l.own id typeName).2.Accounts ((l.own id typeName).1 :: hs) where
  copies n o ho := by
    have hown : (l.own id typeName).1.owner = some l.owners.length := rfl
    rw [copiesIn_cons, hown]
    simp only [Ledger.own] at ho
    rcases Nat.lt_trichotomy n l.owners.length with hlt | heq | hgt
    · rw [List.getElem?_append_left hlt] at ho
      rw [ha.copies n o ho, if_neg (by simp; omega), Nat.add_zero]
    · subst heq
      have hzero : copiesIn l.owners.length hs = 0 := by
        apply Nat.eq_zero_of_not_pos
        intro hpos
        obtain ⟨x, hx, hxn⟩ := copiesIn_pos_iff.1 hpos
        exact Nat.lt_irrefl _ (ha.owner_lt hx hxn)
      have hid : o = ⟨id, 1⟩ := by simpa [eq_comm] using ho
      simp [hid, hzero]
    · rw [List.getElem?_eq_none (by simp; omega)] at ho
      cases ho
  owned x hx n hn := by
    rw [ids_own]
    rcases List.mem_cons.1 hx with rfl | hx
    · obtain rfl : l.owners.length = n := by simpa [Ledger.own] using hn
      simp [Ledger.own, ids]
    · have hid := ha.owned x hx n hn
      rw [List.getElem?_append_left (List.getElem?_eq_some_iff.1 hid).1, hid]

/-- Taking note of a copy leaves the ids of the owners. -/
@[simp] theorem ids_retainHandle (l : Ledger) (h : Handle) : (l.retainHandle h).ids = l.ids := by
  unfold retainHandle ids
  split
  · rfl
  · apply List.ext_getElem?
    intro i
    simp only [List.getElem?_map, List.getElem?_modify]
    split <;> simp [Option.map_map, Function.comp_def]

/-- Taking note of a copy leaves those that wait. -/
@[simp] theorem pending_retainHandle (l : Ledger) (h : Handle) :
    (l.retainHandle h).pending = l.pending := by
  unfold retainHandle
  split <;> rfl

/-- Taking note of copies leaves the ids of the owners. -/
@[simp] theorem ids_retainHandles (l : Ledger) (hs : List Handle) :
    (l.retainHandles hs).ids = l.ids := by
  induction hs generalizing l with
  | nil => rfl
  | cons h hs ih => exact (ih (l.retainHandle h)).trans (ids_retainHandle l h)

/-- Taking note of copies leaves those that wait. -/
@[simp] theorem pending_retainHandles (l : Ledger) (hs : List Handle) :
    (l.retainHandles hs).pending = l.pending := by
  induction hs generalizing l with
  | nil => rfl
  | cons h hs ih => exact (ih (l.retainHandle h)).trans (pending_retainHandle l h)

/-- Another copy of a handle that is held is accounted for. -/
theorem Accounts.retainHandle {l : Ledger} {h : Handle} {hs : List Handle} (ha : l.Accounts hs)
    (hb : Handle.Borrowed hs [h]) : (l.retainHandle h).Accounts (h :: hs) := by
  cases hn : h.owner with
  | none =>
    have hsame : l.retainHandle h = l := by simp [Ledger.retainHandle, hn]
    rw [hsame]
    exact ha.cons_unowned hn
  | some n =>
    have hm : h ∈ hs := hb h (by simp) (by simp [hn])
    constructor
    · intro k o ho
      rw [copiesIn_cons, hn]
      simp only [Ledger.retainHandle, hn, List.getElem?_modify] at ho
      by_cases hk : n = k
      · subst hk
        obtain ⟨o', ho', rfl⟩ := Option.map_eq_some_iff.1 ho
        simp [ha.copies n o' ho']
      · have ho' : l.owners[k]? = some o := by simpa [hk] using ho
        simp [ha.copies k o ho', hk]
    · intro x hx k hk
      rw [ids_retainHandle]
      rcases List.mem_cons.1 hx with rfl | hx
      · exact ha.owned x hm k hk
      · exact ha.owned x hx k hk

/-- Dropping a handle without owner changes nothing. -/
theorem dropHandle_unowned {l : Ledger} {h : Handle} (hn : h.owner = none) :
    l.dropHandle h = l := by
  simp [dropHandle, hn]

/-- A held handle has an owner that counts it. -/
theorem Accounts.exists_owner {l : Ledger} {h : Handle} {hs : List Handle} {n : Nat}
    (ha : l.Accounts (h :: hs)) (hn : h.owner = some n) :
    l.owners[n]? = some ⟨h.id, copiesIn n hs + 1⟩ := by
  have hid := ha.owned h (by simp) n hn
  obtain ⟨o, ho, hoid⟩ := Option.map_eq_some_iff.1 (List.getElem?_map ▸ hid)
  have hc := ha.copies n o ho
  rw [copiesIn_cons, if_pos hn] at hc
  cases o
  simp_all

/-- Dropping a handle of an owner: the owner counts one copy less, and its id waits if that
was the last one. -/
theorem dropHandle_eq {l : Ledger} {h : Handle} {hs : List Handle} {n : Nat}
    (ha : l.Accounts (h :: hs)) (hn : h.owner = some n) :
    l.dropHandle h =
      ⟨l.owners.set n ⟨h.id, copiesIn n hs⟩, l.pending ++ lastOf h hs⟩ := by
  simp only [dropHandle, lastOf, hn, Option.bind_some, ha.exists_owner hn, Option.map_some]
  split <;> simp

/-- Dropping a handle leaves the ids of the owners. -/
theorem Accounts.ids_dropHandle {l : Ledger} {h : Handle} {hs : List Handle}
    (ha : l.Accounts (h :: hs)) : (l.dropHandle h).ids = l.ids := by
  cases hn : h.owner with
  | none => rw [dropHandle_unowned hn]
  | some n =>
    rw [dropHandle_eq ha hn]
    simp only [ids, List.map_set]
    have hid := ha.owned h (by simp) n hn
    obtain ⟨hlt, hget⟩ := List.getElem?_eq_some_iff.1 hid
    apply List.ext_getElem (by simp)
    intro i hi hj
    rw [List.getElem_set]
    split
    · next heq => subst heq; exact hget.symm
    · rfl

/-- The id of a handle waits from now on if its last copy is dropped. -/
theorem Accounts.pending_dropHandle {l : Ledger} {h : Handle} {hs : List Handle}
    (ha : l.Accounts (h :: hs)) : (l.dropHandle h).pending = l.pending ++ lastOf h hs := by
  cases hn : h.owner with
  | none => simp [dropHandle_unowned hn, lastOf, hn]
  | some n => rw [dropHandle_eq ha hn]

/-- What is left after a handle was dropped is accounted for. -/
theorem Accounts.dropHandle {l : Ledger} {h : Handle} {hs : List Handle}
    (ha : l.Accounts (h :: hs)) : (l.dropHandle h).Accounts hs where
  copies k o ho := by
    cases hn : h.owner with
    | none =>
      rw [dropHandle_unowned hn] at ho
      rw [ha.copies k o ho, copiesIn_cons, hn]
      simp
    | some n =>
      rw [dropHandle_eq ha hn] at ho
      simp only [List.getElem?_set] at ho
      by_cases hk : n = k
      · subst hk
        have hlt := (List.getElem?_eq_some_iff.1 (ha.exists_owner hn)).1
        simp only [hlt, ↓reduceIte, Option.some.injEq] at ho
        rw [← ho]
      · simp only [hk, ↓reduceIte] at ho
        rw [ha.copies k o ho, copiesIn_cons, hn]
        simp [hk]
  owned x hx k hk := by
    rw [ha.ids_dropHandle]
    exact ha.owned x (List.mem_cons_of_mem h hx) k hk

/-- Dropping handles leaves the ids of the owners. -/
theorem Accounts.ids_dropHandles {l : Ledger} {ks hs : List Handle}
    (ha : l.Accounts (ks ++ hs)) : (l.dropHandles ks).ids = l.ids := by
  induction ks generalizing l with
  | nil => rfl
  | cons k ks ih =>
    rw [List.cons_append] at ha
    exact (ih ha.dropHandle).trans ha.ids_dropHandle

/-- Dropping handles of which other copies are held lets no id wait. -/
theorem Accounts.pending_dropHandles {l : Ledger} {ks hs : List Handle}
    (ha : l.Accounts (ks ++ hs)) (hb : Handle.Borrowed hs ks) :
    (l.dropHandles ks).pending = l.pending := by
  induction ks generalizing l with
  | nil => rfl
  | cons k ks ih =>
    have hks : Handle.Borrowed hs ks := hb.of_subset (List.subset_cons_self k ks)
    have hlast : lastOf k (ks ++ hs) = [] := by
      cases hn : k.owner with
      | none => simp [lastOf, hn]
      | some n =>
        exact lastOf_of_mem (List.mem_append_right ks (hb k (by simp) (by simp [hn])))
    rw [List.cons_append] at ha
    rw [show l.dropHandles (k :: ks) = (l.dropHandle k).dropHandles ks from rfl,
      ih ha.dropHandle hks, ha.pending_dropHandle, hlast, List.append_nil]

end Ledger

end GuestBridge
