import GuestBridge.Recency
import GuestBridge.Slots

/-!
# Tables lose nothing

Slots and recency caches are tables of entries with distinct keys. Whatever is put into one is
either in it afterwards or was given back, and so is whatever was in it before.
-/

namespace GuestBridge

/-! ### Entries with distinct keys -/

section Entries

variable {κ ν : Type}

/-- No key occurs twice. -/
def Distinct (entries : List (κ × ν)) : Prop :=
  (entries.map (·.1)).Nodup

/-- A part of distinct entries is distinct. -/
theorem Distinct.drop {entries : List (κ × ν)} (h : Distinct entries) (n : Nat) :
    Distinct (entries.drop n) :=
  h.sublist ((List.drop_sublist n entries).map _)

variable [DecidableEq κ]

/-- The entries of other keys stay distinct, and none has the key. -/
theorem Distinct.others_append {entries : List (κ × ν)} (h : Distinct entries) (key : κ)
    (value : ν) : Distinct (entries.filter (·.1 ≠ key) ++ [(key, value)]) := by
  unfold Distinct
  rw [List.map_append, List.nodup_append]
  refine ⟨h.sublist (List.filter_sublist.map _), by simp, ?_⟩
  intro a ha b hb
  obtain ⟨e, he, rfl⟩ := List.mem_map.1 ha
  have hne : e.1 ≠ key := by simpa using (List.mem_filter.1 he).2
  simpa [show b = key by simpa using hb] using hne

/-- The entries of other keys stay distinct. -/
theorem Distinct.others {entries : List (κ × ν)} (h : Distinct entries) (key : κ) :
    Distinct (entries.filter (·.1 ≠ key)) :=
  h.sublist (List.filter_sublist.map _)

/-- The values are the one that is found for a key and those of the other keys. -/
theorem Distinct.values_perm {entries : List (κ × ν)} (h : Distinct entries) (key : κ) :
    (entries.map (·.2)).Perm
      (((entries.find? (·.1 = key)).map (·.2)).toList ++
        (entries.filter (·.1 ≠ key)).map (·.2)) := by
  induction entries with
  | nil => rfl
  | cons e entries ih =>
    have hcons := List.nodup_cons.1 h
    by_cases he : e.1 = key
    · have hrest : entries.filter (·.1 ≠ key) = entries := by
        apply List.filter_eq_self.2
        intro e' he'
        have hne : e'.1 ≠ e.1 := fun heq ↦ hcons.1 (List.mem_map.2 ⟨e', he', heq⟩)
        simpa [he] using hne
      simp only [List.find?_cons, he, decide_true, Option.map_some, Option.toList_some,
        List.filter_cons, ne_eq, not_true_eq_false, decide_false, Bool.false_eq_true, if_false,
        List.map_cons, List.singleton_append]
      rw [hrest]
    · simp only [List.find?_cons, he, decide_false, List.filter_cons, ne_eq, not_false_eq_true,
        decide_true, if_true, List.map_cons]
      exact ((ih hcons.2).cons e.2).trans List.perm_middle.symm

/-- Another key is found among the entries if one key's are left out. -/
theorem find?_filter_ne {key other : κ} (h : other ≠ key) (entries : List (κ × ν)) :
    (entries.filter (·.1 ≠ key)).find? (·.1 = other) = entries.find? (·.1 = other) := by
  rw [List.find?_filter]
  congr 1
  funext e
  by_cases he : e.1 = other <;> simp [he, h]

end Entries

/-! ### Slots -/

namespace Slots

variable {α : Type}

/-- No slot occurs twice. -/
def WF (s : Slots α) : Prop :=
  Distinct s.entries

/-- No slot is occupied at first. -/
theorem wf_empty : (empty : Slots α).WF := by simp [WF, Distinct, empty]

/-- Putting something into a slot leaves the slots distinct. -/
theorem WF.put {s : Slots α} (h : s.WF) (slot : String) (x : α) : (s.put slot x).2.WF :=
  Distinct.others_append h slot x

/-- Emptying a slot leaves the slots distinct. -/
theorem WF.remove {s : Slots α} (h : s.WF) (slot : String) : (s.remove slot).2.WF :=
  Distinct.others h slot

/-- What is given back and what the slots hold is what they held and what was put in. -/
theorem WF.put_perm {s : Slots α} (h : s.WF) (slot : String) (x : α) :
    ((s.put slot x).1.toList ++ (s.put slot x).2.toList).Perm (x :: s.toList) := by
  have hp := (Distinct.values_perm h slot).symm
  rw [Slots.put, toList, List.map_append, ← List.append_assoc]
  exact (hp.append_right _).trans (List.perm_append_singleton x _)

/-- What is given back and what the slots hold is what they held. -/
theorem WF.remove_perm {s : Slots α} (h : s.WF) (slot : String) :
    ((s.remove slot).1.toList ++ (s.remove slot).2.toList).Perm s.toList :=
  (Distinct.values_perm h slot).symm

/-- What is found in a slot is among what the slots hold. -/
theorem mem_toList_of_find? {s : Slots α} {slot : String} {x : α}
    (h : s.find? slot = some x) : x ∈ s.toList := by
  obtain ⟨e, he, rfl⟩ := Option.map_eq_some_iff.1 h
  exact List.mem_map.2 ⟨e, List.mem_of_find?_eq_some he, rfl⟩

/-- What the slots hold afterwards was put in or was there before. -/
theorem mem_toList_put {s : Slots α} {slot : String} {x y : α}
    (h : y ∈ (s.put slot x).2.toList) : y = x ∨ y ∈ s.toList := by
  simp only [put, toList, List.map_append, List.mem_append, List.map_cons, List.map_nil,
    List.mem_singleton] at h
  rcases h with h | h
  · obtain ⟨e, he, rfl⟩ := List.mem_map.1 h
    exact .inr (List.mem_map.2 ⟨e, (List.mem_filter.1 he).1, rfl⟩)
  · exact .inl h

end Slots

/-! ### Recency caches -/

namespace Recency

variable {κ ν : Type}

/-- The keys, in the order of the table. -/
def keys (r : Recency κ ν) : List κ :=
  r.table.map (·.1)

/-- The values, in the order of the table. -/
def values (r : Recency κ ν) : List ν :=
  r.table.map (·.2)

/-- No key has two values, and the queue lists the keys, each once. -/
structure WF (r : Recency κ ν) : Prop where
  distinct : Distinct r.table
  order : r.order.Perm r.keys

/-- An empty cache has no entries. -/
theorem wf_empty (capacity : Nat) : (empty capacity : Recency κ ν).WF where
  distinct := List.nodup_nil
  order := .refl _

/-- The queue lists no key twice. -/
theorem WF.nodup_order {r : Recency κ ν} (h : r.WF) : r.order.Nodup :=
  h.order.nodup_iff.2 h.distinct

/-- The queue is as long as the table. -/
theorem WF.length_order {r : Recency κ ν} (h : r.WF) : r.order.length = r.size := by
  rw [h.order.length_eq, keys, List.length_map, size]

variable [DecidableEq κ]

/-- The keys of the entries of other keys. -/
theorem keys_filter (table : List (κ × ν)) (key : κ) :
    (table.filter (·.1 ≠ key)).map (·.1) = (table.map (·.1)).filter (· ≠ key) :=
  (List.filter_map (f := fun e : κ × ν ↦ e.1) (p := fun k ↦ decide (k ≠ key))).symm

/-- A key has an entry if it is one of the keys. -/
theorem contains_iff_mem_keys (r : Recency κ ν) (key : κ) :
    r.contains key ↔ key ∈ r.keys := by
  simp [contains, keys]

/-- A key has a value if it is one of the keys. -/
theorem isSome_find? (r : Recency κ ν) (key : κ) : (r.find? key).isSome = r.contains key := by
  rw [Bool.eq_iff_iff]
  simp [find?, contains]

/-- The queue lists the keys that have an entry. -/
theorem WF.mem_order_iff {r : Recency κ ν} (h : r.WF) (key : κ) :
    key ∈ r.order ↔ r.contains key := by
  rw [h.order.mem_iff, contains_iff_mem_keys]

/-- In the queue a key is erased with the entries of the key. -/
theorem WF.order_erase {r : Recency κ ν} (h : r.WF) (key : κ) :
    (r.order.erase key).Perm ((r.others key).map (·.1)) := by
  rw [others, keys_filter, h.nodup_order.erase_eq_filter]
  refine (h.order.filter _).trans (.of_eq (List.filter_congr fun k _ ↦ ?_))
  rw [Bool.eq_iff_iff]
  simp

/-- What touching a key makes of the queue. -/
theorem order_touch {r : Recency κ ν} {key : κ} (h : key ∈ r.order) :
    (r.touch key).order = r.order.erase key ++ [key] := by
  simp [touch, h]

/-- Touching a key leaves the table alone. -/
@[simp] theorem table_touch (r : Recency κ ν) (key : κ) : (r.touch key).table = r.table := by
  unfold touch
  split <;> rfl

/-- Touching a key leaves the capacity alone. -/
@[simp] theorem capacity_touch (r : Recency κ ν) (key : κ) :
    (r.touch key).capacity = r.capacity := by
  unfold touch
  split <;> rfl

/-- Touching a key lists the same keys. -/
theorem WF.touch {r : Recency κ ν} (h : r.WF) (key : κ) : (r.touch key).WF := by
  refine ⟨by rw [table_touch]; exact h.distinct, ?_⟩
  rw [keys, table_touch]
  by_cases hkey : key ∈ r.order
  · rw [order_touch hkey]
    exact (List.perm_append_singleton key _).trans
      ((List.perm_cons_erase hkey).symm.trans h.order)
  · rw [Recency.touch, if_neg hkey]
    exact h.order

/-- Looking a key up leaves the keys distinct. -/
theorem WF.get {r : Recency κ ν} (h : r.WF) (key : κ) : (r.get key).2.WF := by
  unfold Recency.get
  split
  · exact h.touch key
  · exact h

/-- The table without the key at the front of the queue. -/
theorem WF.tail {capacity : Nat} {table : List (κ × ν)} {oldest : κ} {order : List κ}
    (h : WF ⟨capacity, table, oldest :: order⟩) :
    WF ⟨capacity, table.filter (·.1 ≠ oldest), order⟩ where
  distinct := h.distinct.others oldest
  order := by
    have herase := h.order_erase oldest
    rw [List.erase_cons_head] at herase
    exact herase

/-- Forgetting keys at the front of the queue leaves the keys distinct. -/
theorem wf_evict (capacity : Nat) {table : List (κ × ν)} {order : List κ}
    (h : WF ⟨capacity, table, order⟩) : (evict capacity table order).2.WF := by
  induction order generalizing table with
  | nil => exact h
  | cons oldest order ih =>
    unfold evict
    split
    · exact ih h.tail
    · exact h

/-- A cache in which a key has been given a value and touched, whether there is room or not. -/
def put (r : Recency κ ν) (key : κ) (value : ν) : Recency κ ν :=
  ⟨r.capacity, r.others key ++ [(key, value)], r.order.erase key ++ [key]⟩

/-- Giving a key a value and touching it leaves the keys distinct. -/
theorem WF.put {r : Recency κ ν} (h : r.WF) (key : κ) (value : ν) : (r.put key value).WF where
  distinct := Distinct.others_append h.distinct key value
  order := by
    rw [keys, Recency.put, List.map_append]
    exact (h.order_erase key).append_right _

/-- An insertion finds no room at all, replaces a value, or adds one and forgets what is too
much. -/
theorem WF.insert_cases {r : Recency κ ν} (h : r.WF) (key : κ) (value : ν) :
    (r.capacity = 0 ∧ r.insert key value = ([value], r)) ∨
      (∃ old, r.find? key = some old ∧ r.insert key value = ([old], r.put key value)) ∨
      (r.find? key = none ∧ r.insert key value =
        evict r.capacity (r.put key value).table (r.put key value).order) := by
  have hmem := h.mem_order_iff key
  rw [← isSome_find?] at hmem
  unfold Recency.insert
  split
  · next hzero => exact .inl ⟨hzero, rfl⟩
  · right
    cases hfind : r.find? key with
    | some old =>
      have hkey : key ∈ r.order := hmem.2 (by rw [hfind]; rfl)
      exact .inl ⟨old, rfl, by simp [Recency.touch, hkey, Recency.put]⟩
    | none =>
      have hkey : key ∉ r.order := by simpa [hfind] using hmem
      exact .inr ⟨rfl, by simp [Recency.put, List.erase_of_not_mem hkey]⟩

/-- Giving a key a value leaves the keys distinct. -/
theorem WF.insert {r : Recency κ ν} (h : r.WF) (key : κ) (value : ν) :
    (r.insert key value).2.WF := by
  rcases h.insert_cases key value with ⟨-, heq⟩ | ⟨old, -, heq⟩ | ⟨-, heq⟩
  · rw [heq]
    exact h
  · rw [heq]
    exact h.put key value
  · rw [heq]
    exact wf_evict r.capacity (h.put key value)

/-- Looking a key up leaves the values alone. -/
theorem values_get (r : Recency κ ν) (key : κ) : (r.get key).2.values = r.values := by
  unfold Recency.get values
  split
  · rw [table_touch]
  · rfl

/-- A value that is found is among the values. -/
theorem mem_values_of_get {r : Recency κ ν} {key : κ} {v : ν} (h : (r.get key).1 = some v) :
    v ∈ r.values := by
  unfold Recency.get at h
  split at h
  · next v' hv =>
    obtain rfl : v' = v := by simpa using h
    obtain ⟨e, he, rfl⟩ := Option.map_eq_some_iff.1 hv
    exact List.mem_map.2 ⟨e, List.mem_of_find?_eq_some he, rfl⟩
  · cases h

/-- What is let go at the front of the queue and what is left is what there was. -/
theorem evict_perm (capacity : Nat) {table : List (κ × ν)} (h : Distinct table)
    (order : List κ) :
    ((evict capacity table order).1 ++ (evict capacity table order).2.values).Perm
      (table.map (·.2)) := by
  induction order generalizing table with
  | nil => exact .refl _
  | cons oldest order ih =>
    unfold evict
    split
    · have hrest := ih (h.others oldest)
      rw [List.append_assoc]
      exact (hrest.append_left _).trans (h.values_perm oldest).symm
    · exact .refl _

/-- What a cache lets go and what it keeps is what it kept and the new value. -/
theorem WF.insert_perm {r : Recency κ ν} (h : r.WF) (key : κ) (value : ν) :
    ((r.insert key value).1 ++ (r.insert key value).2.values).Perm (value :: r.values) := by
  have hput : ((r.find? key).toList ++ (r.put key value).values).Perm (value :: r.values) := by
    rw [values, Recency.put, List.map_append, ← List.append_assoc]
    exact ((h.distinct.values_perm key).symm.append_right _).trans
      (List.perm_append_singleton value _)
  rcases h.insert_cases key value with ⟨-, heq⟩ | ⟨old, hold, heq⟩ | ⟨hnone, heq⟩
  · rw [heq]
    rfl
  · rw [heq]
    rw [hold] at hput
    exact hput
  · rw [heq]
    rw [hnone] at hput
    exact (evict_perm r.capacity (h.put key value).distinct _).trans hput

end Recency

end GuestBridge
