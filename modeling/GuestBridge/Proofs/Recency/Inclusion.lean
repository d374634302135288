import GuestBridge.Proofs.Recency.History

/-!
# A larger cache never loses a hit

Two caches of different capacity see the same deeds. Looking a key up may find it in the larger one
alone, which then touches it, and an insertion may let a key go in one of them and not in the
other. Still the smaller one holds nothing that the larger one does not hold, and in the same order:
as long as the smaller one has let nothing go the two are the same, and from then on it is full.
-/

namespace GuestBridge.Recency

variable {κ ν : Type}

/-! ### Queues, latest first -/

/-- Without their last elements, a part of a list is still one. -/
theorem sublist_dropLast {s l : List κ} (h : s.Sublist l) : s.dropLast.Sublist l.dropLast := by
  rw [← List.reverse_sublist, ← List.tail_reverse, ← List.tail_reverse]
  exact (List.reverse_sublist.2 h).tail

section

variable [DecidableEq κ] {s l : List κ} {key : κ} {n m : Nat}

/-- A key that is left out of a list without repetitions was there once. -/
theorem length_filter_ne_of_mem (h : l.Nodup) (hkey : key ∈ l) :
    (l.filter (· ≠ key)).length + 1 = l.length := by
  rw [← List.length_erase_add_one hkey, h.erase_eq_filter]
  congr 2
  exact List.filter_congr fun k _ ↦ by rw [Bool.eq_iff_iff]; simp

/-- A key that is not in a list cannot be left out. -/
theorem filter_ne_of_not_mem (hkey : key ∉ l) : l.filter (· ≠ key) = l := by
  rw [List.filter_eq_self]
  intro k hk
  exact decide_eq_true fun heq ↦ hkey (heq ▸ hk)

/-- A key is brought to the front of two queues, one a part of the other, that have room for `n` and
`m` keys. What leaves the larger one is its last key, and the smaller one, being full, lets its last
key go then, too. -/
theorem sublist_take_touch (h : s.Sublist l) (hl : l.Nodup) (hfull : n ≤ s.length)
    (hs : s.length ≤ n) (hm : l.length ≤ m) :
    ((key :: s.filter (· ≠ key)).take n).Sublist ((key :: l.filter (· ≠ key)).take m) := by
  obtain rfl : n = s.length := Nat.le_antisymm hfull hs
  cases s with
  | nil => exact List.nil_sublist _
  | cons k s =>
    obtain ⟨m, rfl⟩ : ∃ m', m = m' + 1 :=
      Nat.exists_eq_succ_of_ne_zero (Nat.ne_of_gt (Nat.lt_of_lt_of_le (Nat.succ_pos _)
        (h.length_le.trans hm)))
    rw [List.length_cons, List.take_succ_cons, List.take_succ_cons, List.cons_sublist_cons]
    have hothers := h.filter (· ≠ key)
    by_cases hkey : key ∈ l
    · have hlength := length_filter_ne_of_mem hl hkey
      rw [List.take_of_length_le (l := l.filter _) (by omega)]
      exact (List.take_sublist _ _).trans hothers
    · have hkey' : key ∉ k :: s := fun hmem ↦ hkey (h.subset hmem)
      have hlast : (k :: s).take s.length = (k :: s).dropLast := by
        rw [List.dropLast_eq_take, List.length_cons, Nat.add_sub_cancel]
      rw [filter_ne_of_not_mem hkey, filter_ne_of_not_mem hkey', hlast]
      refine (sublist_dropLast h).trans ?_
      rw [List.dropLast_eq_take]
      exact List.take_sublist_take_left (by omega)

end

/-! ### Two caches -/

variable [DecidableEq κ] {small large : Recency κ ν} {key : κ}

/-- Two caches that saw the same deeds, the first one with no more room than the second one. -/
structure Within (small large : Recency κ ν) : Prop where
  wf : small.WF
  wf_large : large.WF
  length_le : small.order.length ≤ small.capacity
  length_le_large : large.order.length ≤ large.capacity
  capacity_le : small.capacity ≤ large.capacity
  order : small.order.Sublist large.order
  /-- As long as the smaller cache is not full, it has let nothing go that the other one holds. -/
  same : small.order.length < small.capacity → small.order = large.order
  value : ∀ key, small.contains key → large.find? key = small.find? key

/-- What the smaller cache holds, the larger one holds. -/
theorem Within.contains (h : Within small large) (hkey : small.contains key) :
    large.contains key := by
  rw [← h.wf.mem_order_iff] at hkey
  exact (h.wf_large.mem_order_iff key).1 (h.order.subset hkey)

/-- A key that is found in the smaller cache is found in the larger one. -/
theorem Within.found (h : Within small large) {value : ν}
    (hfound : (small.get key).1 = some value) : (large.get key).1 = some value := by
  have hkey : small.contains key := by
    by_contra hkey
    rw [get_eq_of_not_contains hkey] at hfound
    cases hfound
  obtain ⟨v, hv, hget⟩ := exists_get_eq hkey
  obtain ⟨w, hw, hget'⟩ := exists_get_eq (h.contains hkey)
  rw [h.value key hkey, hv] at hw
  cases hw
  rw [hget'] at *
  rw [hget] at hfound
  exact hfound

/-- Empty caches have let nothing go. -/
theorem within_empty {n m : Nat} (h : n ≤ m) : Within (empty n : Recency κ ν) (empty m) where
  wf := wf_empty n
  wf_large := wf_empty m
  length_le := Nat.zero_le n
  length_le_large := Nat.zero_le m
  capacity_le := h
  order := List.Sublist.refl _
  same _ := rfl
  value _ _ := rfl

/-- Clearing both caches leaves them the same. -/
theorem Within.clear (h : Within small large) : Within small.clear large.clear where
  wf := ⟨List.nodup_nil, .refl _⟩
  wf_large := ⟨List.nodup_nil, .refl _⟩
  length_le := Nat.zero_le _
  length_le_large := Nat.zero_le _
  capacity_le := h.capacity_le
  order := List.Sublist.refl _
  same _ := rfl
  value _ _ := rfl

/-- A key that is touched in a cache that holds it is left out of its old place. -/
theorem WF.order_touched_sublist {r : Recency κ ν} (h : r.WF) (hkey : r.contains key)
    {s : List κ} (hs : s.Sublist r.order.reverse) (hnot : key ∉ s) :
    s.Sublist (r.touch key).order.reverse := by
  rw [h.order_touched hkey]
  refine List.Sublist.cons key ?_
  rw [← filter_ne_of_not_mem hnot]
  exact hs.filter _

/-- A key that only the larger cache holds is touched there alone. -/
theorem Within.touch_large (h : Within small large) (hkey : ¬ small.contains key)
    (hlarge : large.contains key) : Within small (large.touch key) where
  wf := h.wf
  wf_large := h.wf_large.touch key
  length_le := h.length_le
  length_le_large := by
    rw [h.wf_large.length_order_touch, capacity_touch]
    exact h.length_le_large
  capacity_le := by
    rw [capacity_touch]
    exact h.capacity_le
  order := by
    rw [← List.reverse_sublist]
    refine h.wf_large.order_touched_sublist hlarge (List.reverse_sublist.2 h.order) ?_
    rw [List.mem_reverse, h.wf.mem_order_iff]
    exact hkey
  same hroom := by
    refine absurd ((h.wf.mem_order_iff key).1 ?_) hkey
    rw [h.same hroom]
    exact (h.wf_large.mem_order_iff key).2 hlarge
  value key hkey := by
    rw [find?_touch]
    exact h.value key hkey

/-- A key that both caches hold is touched in both. -/
theorem Within.touch (h : Within small large) (hkey : small.contains key) :
    Within (small.touch key) (large.touch key) where
  wf := h.wf.touch key
  wf_large := h.wf_large.touch key
  length_le := by
    rw [h.wf.length_order_touch, capacity_touch]
    exact h.length_le
  length_le_large := by
    rw [h.wf_large.length_order_touch, capacity_touch]
    exact h.length_le_large
  capacity_le := by
    rw [capacity_touch, capacity_touch]
    exact h.capacity_le
  order := by
    rw [← List.reverse_sublist, h.wf.order_touched hkey, h.wf_large.order_touched (h.contains hkey)]
    exact ((List.reverse_sublist.2 h.order).filter _).cons_cons key
  same hroom := by
    rw [h.wf.length_order_touch, capacity_touch] at hroom
    have hsmall := order_touch ((h.wf.mem_order_iff key).2 hkey)
    have hlarge := order_touch ((h.wf_large.mem_order_iff key).2 (h.contains hkey))
    rw [hsmall, hlarge, h.same hroom]
  value other hother := by
    rw [← isSome_find?, find?_touch, isSome_find?] at hother
    rw [find?_touch, find?_touch]
    exact h.value other hother

/-- Looking a key up touches it in the caches that hold it. -/
theorem Within.get (h : Within small large) (key : κ) :
    Within (small.get key).2 (large.get key).2 := by
  by_cases hkey : small.contains key
  · obtain ⟨v, -, hget⟩ := exists_get_eq hkey
    obtain ⟨w, -, hget'⟩ := exists_get_eq (h.contains hkey)
    rw [hget, hget']
    exact h.touch hkey
  · rw [get_eq_of_not_contains hkey]
    by_cases hlarge : large.contains key
    · obtain ⟨w, -, hget⟩ := exists_get_eq hlarge
      rw [hget]
      exact h.touch_large hkey hlarge
    · rw [get_eq_of_not_contains hlarge]
      exact h

/-- The queue after an insertion is as long as before, or one longer if there is room. -/
theorem WF.length_insert {r : Recency κ ν} (h : r.WF) (hsize : r.order.length ≤ r.capacity)
    (key : κ) (value : ν) :
    (r.insert key value).2.order.length =
      min r.capacity ((r.order.reverse.filter (· ≠ key)).length + 1) := by
  rw [← List.length_reverse, h.order_insert hsize, List.length_take, List.length_cons]

/-- Inserting a key touches it in both caches. While the smaller one is not full both do the same;
afterwards it lets a key go with every key that is new to it. -/
theorem Within.insert (h : Within small large) (key : κ) (value : ν) :
    Within (small.insert key value).2 (large.insert key value).2 := by
  have horder := h.wf.order_insert h.length_le key value
  have horder' := h.wf_large.order_insert h.length_le_large key value
  have hlength := h.wf.length_insert h.length_le key value
  have hlength' := h.wf_large.length_insert h.length_le_large key value
  have hcapacity := h.capacity_le
  -- With room for another key, nothing leaves either cache.
  have hsame (hroom : small.order.length < small.capacity) :
      (small.insert key value).2.order.reverse = (large.insert key value).2.order.reverse := by
    have hothers := List.length_filter_le (· ≠ key) small.order.reverse
    rw [List.length_reverse] at hothers
    rw [horder, horder', ← h.same hroom, List.take_of_length_le, List.take_of_length_le] <;>
    · rw [List.length_cons]
      omega
  have hwithin : (small.insert key value).2.order.Sublist (large.insert key value).2.order := by
    rw [← List.reverse_sublist]
    rcases Nat.lt_or_ge small.order.length small.capacity with hroom | hfull
    · rw [hsame hroom]
    · rw [horder, horder']
      apply sublist_take_touch (List.reverse_sublist.2 h.order)
        (List.nodup_reverse.2 h.wf_large.nodup_order)
      · rwa [List.length_reverse]
      · rw [List.length_reverse]
        exact h.length_le
      · rw [List.length_reverse]
        exact h.length_le_large
  exact {
    wf := h.wf.insert key value
    wf_large := h.wf_large.insert key value
    length_le := by
      rw [hlength, h.wf.capacity_insert]
      exact Nat.min_le_left _ _
    length_le_large := by
      rw [hlength', h.wf_large.capacity_insert]
      exact Nat.min_le_left _ _
    capacity_le := by
      rw [h.wf.capacity_insert, h.wf_large.capacity_insert]
      exact hcapacity
    order := hwithin
    same := by
      intro hroom
      rw [hlength, h.wf.capacity_insert] at hroom
      refine List.reverse_injective (hsame ?_)
      by_cases hkey : key ∈ small.order.reverse
      · have hothers := length_filter_ne_of_mem (List.nodup_reverse.2 h.wf.nodup_order) hkey
        rw [List.length_reverse] at hothers
        omega
      · rw [filter_ne_of_not_mem hkey, List.length_reverse] at hroom
        omega
    value := by
      intro other hother
      have hlarge : (large.insert key value).2.contains other := by
        rw [← (h.wf.insert key value).mem_order_iff] at hother
        exact ((h.wf_large.insert key value).mem_order_iff other).1 (hwithin.subset hother)
      have hfound := h.wf.find?_insert h.length_le value hother
      rw [h.wf_large.find?_insert h.length_le_large value hlarge, hfound]
      by_cases hkey : other = key
      · rw [if_pos hkey, if_pos hkey]
      · rw [if_neg hkey] at hfound
        rw [if_neg hkey, if_neg hkey]
        refine h.value other ?_
        rw [← isSome_find?, ← hfound, isSome_find?]
        exact hother }

/-- Every deed keeps the smaller cache within the larger one. -/
theorem Within.step (h : Within small large) (d : Deed κ ν) :
    Within (small.step d).2 (large.step d).2 := by
  cases d with
  | get key => exact h.get key
  | contains key => exact h
  | insert key value => exact h.insert key value
  | clear => exact h.clear

/-- All deeds keep the smaller cache within the larger one. -/
theorem Within.run (h : Within small large) (deeds : List (Deed κ ν)) :
    Within (small.run deeds) (large.run deeds) := by
  induction deeds generalizing small large with
  | nil => exact h
  | cons d ds ih => exact ih (h.step d)

/-- What a deed finds in the smaller cache, it finds in the larger one. -/
theorem Within.found_step (h : Within small large) {d : Deed κ ν} {value : ν}
    (hfound : (small.step d).1 = some value) : (large.step d).1 = some value := by
  cases d with
  | get key => exact h.found hfound
  | _ => cases hfound

/-- Every look-up on the way that finds a key in the smaller cache finds it in the larger one. -/
theorem Within.forall₂_history (h : Within small large) (deeds : List (Deed κ ν)) :
    List.Forall₂
      (fun e e' ↦ e.deed = e'.deed ∧ ∀ value, e.found = some value → e'.found = some value)
      (small.history deeds) (large.history deeds) := by
  induction deeds generalizing small large with
  | nil => exact List.Forall₂.nil
  | cons d ds ih => exact .cons ⟨rfl, fun _ ↦ h.found_step⟩ (ih (h.step d))

/-- A cache with room for `n` entries beside one with room for `m`, after the same deeds. -/
structure LosesNoHit (n m : Nat) (deeds : List (Deed κ ν)) : Prop where
  /-- What the smaller cache holds, the larger one holds with the same value. -/
  held : ∀ key, ((empty n).run deeds).contains key → ((empty m).run deeds).contains key ∧
    ((empty m).run deeds).find? key = ((empty n).run deeds).find? key
  order : ((empty n).run deeds).order.Sublist ((empty m).run deeds).order
  /-- A key that is found in the smaller cache now is found in the larger one. -/
  get : ∀ key value, (((empty n).run deeds).get key).1 = some value →
    (((empty m).run deeds).get key).1 = some value
  /-- Every key that was found in the smaller cache on the way was found in the larger one. -/
  history : List.Forall₂
    (fun e e' ↦ e.deed = e'.deed ∧ ∀ value, e.found = some value → e'.found = some value)
    ((empty n).history deeds) ((empty m).history deeds)

/-- Whatever is done with two caches that were empty, the one with more room loses no hit. -/
theorem losesNoHit {n m : Nat} (h : n ≤ m) (deeds : List (Deed κ ν)) : LosesNoHit n m deeds where
  held key hkey :=
    ⟨((within_empty h).run deeds).contains hkey, ((within_empty h).run deeds).value key hkey⟩
  order := ((within_empty h).run deeds).order
  get _ _ := ((within_empty h).run deeds).found
  history := (within_empty h).forall₂_history deeds

/-- One key is found in the larger cache alone, and then an insertion makes the two caches let
different keys go. -/
theorem losesNoHit_two_three :
    2 ≤ 3 ∧
      LosesNoHit 2 3 [.insert 1 10, .insert 2 20, .insert 3 30, .get 1, .insert 4 (40 : Nat)] ∧
      ((empty 2).run [.insert 1 10, .insert 2 20, .insert 3 30, .get 1, .insert 4 40]).order =
        [3, 4] ∧
      ((empty 3).run [.insert 1 10, .insert 2 20, .insert 3 30, .get 1, .insert 4 40]).order =
        [3, 1, 4] :=
  ⟨by decide, losesNoHit (by decide) _, by decide, by decide⟩

end GuestBridge.Recency
