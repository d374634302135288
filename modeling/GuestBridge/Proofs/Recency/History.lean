import Mathlib.Data.Finset.Card
import GuestBridge.Proofs.Value.Conservation

/-!
# What a recency cache remembers

A cache after any history of lookups, insertions and clearings. What it holds can be told from
the history alone: a key is held as long as it was inserted and not cleared, and fewer other
keys than there is room for were touched after it.
-/

namespace GuestBridge.Recency

variable {κ ν : Type}

/-! ### Histories -/

/-- What is done with a cache. -/
inductive Deed (κ ν : Type) where
  | get (key : κ)
  | contains (key : κ)
  | insert (key : κ) (value : ν)
  | clear
  deriving Repr

/-- A deed, with the value that was found by looking a key up. -/
structure Done (κ ν : Type) where
  deed : Deed κ ν
  found : Option ν
  deriving Repr

namespace Done

/-- The key that was touched: one that was inserted, or one that was looked up and found. -/
def touched : Done κ ν → Option κ
  | ⟨.insert key _, _⟩ => some key
  | ⟨.get key, some _⟩ => some key
  | _ => none

/-- Whether the cache was cleared. -/
def isClear : Done κ ν → Bool
  | ⟨.clear, _⟩ => true
  | _ => false

end Done

/-- The value that is inserted for a key. -/
def Deed.given [DecidableEq κ] (key : κ) : Deed κ ν → Option ν
  | .insert k value => if k = key then some value else none
  | _ => none

/-- What was done since the cache was cleared last, latest first. -/
def sinceClear (past : List (Done κ ν)) : List (Done κ ν) :=
  past.reverse.takeWhile (!·.isClear)

/-- The keys that were touched since the cache was cleared last, latest first. -/
def touches (past : List (Done κ ν)) : List κ :=
  (sinceClear past).filterMap Done.touched

/-- A key was inserted since the cache was cleared last. -/
def Inserted (past : List (Done κ ν)) (key : κ) : Prop :=
  ∃ value, Deed.insert key value ∈ (sinceClear past).map (·.deed)

/-- The history behind another deed. -/
theorem sinceClear_concat (past : List (Done κ ν)) (e : Done κ ν) :
    sinceClear (past ++ [e]) = if e.isClear then [] else e :: sinceClear past := by
  rw [sinceClear, List.reverse_concat, List.takeWhile_cons]
  cases e.isClear <;> rfl

/-- The keys that were touched, behind another deed. -/
theorem touches_concat {e : Done κ ν} (h : e.isClear = false) (past : List (Done κ ν)) :
    touches (past ++ [e]) = e.touched.toList ++ touches past := by
  rw [touches, sinceClear_concat, h, touches]
  cases htouched : e.touched <;> simp [htouched]

/-- A key stays inserted until the cache is cleared. -/
theorem Inserted.concat {past : List (Done κ ν)} {key : κ} {e : Done κ ν} (h : Inserted past key)
    (he : e.isClear = false) : Inserted (past ++ [e]) key := by
  obtain ⟨value, hvalue⟩ := h
  refine ⟨value, ?_⟩
  rw [sinceClear_concat, he]
  exact List.mem_cons_of_mem _ hvalue

variable [DecidableEq κ]

/-- What is found by a deed, and the cache afterwards. -/
def step (r : Recency κ ν) : Deed κ ν → Option ν × Recency κ ν
  | .get key => r.get key
  | .contains _ => (none, r)
  | .insert key value => (none, (r.insert key value).2)
  | .clear => (none, r.clear)

/-- A cache after some deeds. -/
def run (r : Recency κ ν) (deeds : List (Deed κ ν)) : Recency κ ν :=
  deeds.foldl (fun r d ↦ (r.step d).2) r

/-- Deeds as they are done with a cache. -/
def history (r : Recency κ ν) : List (Deed κ ν) → List (Done κ ν)
  | [] => []
  | d :: ds => ⟨d, (r.step d).1⟩ :: (r.step d).2.history ds

/-- The keys that were touched after a key was touched last, latest first. -/
def touchesAfter (past : List (Done κ ν)) (key : κ) : List κ :=
  (touches past).takeWhile (· ≠ key)

/-- The value that was inserted last for a key. -/
def lastGiven (past : List (Done κ ν)) (key : κ) : Option ν :=
  past.reverse.findSome? (·.deed.given key)

/-- What a cache is after a history. -/
structure Remembers (capacity : Nat) (past : List (Done κ ν)) (r : Recency κ ν) : Prop where
  /-- No key has two values, and the queue lists the keys that have one, each once. -/
  distinct : r.keys.Nodup
  listed : r.order.Perm r.keys
  bounded : r.size ≤ capacity
  /-- A key is held if it was inserted and fewer other keys than there is room for were touched
  after it. -/
  contains_iff : ∀ key, r.contains key ↔
    Inserted past key ∧ (touchesAfter past key).toFinset.card < capacity
  /-- The value of a key that is held is the one inserted last. -/
  get_held : ∀ key, r.contains key →
    ∃ value, lastGiven past key = some value ∧ (r.get key).1 = some value
  /-- A key that is not held has no value, and looking it up changes nothing. -/
  get_missing : ∀ key, ¬ r.contains key → r.get key = (none, r)
  /-- Asking whether a key is held changes nothing. -/
  contains_idle : ∀ key, (r.step (.contains key)).2 = r

/-! ### Keys, each where it occurs first -/

/-- The keys of a list, each where it occurs first. -/
def firsts : List κ → List κ
  | [] => []
  | k :: ks => k :: (firsts ks).filter (· ≠ k)

/-- The same keys occur. -/
theorem mem_firsts {key : κ} {ks : List κ} : key ∈ firsts ks ↔ key ∈ ks := by
  induction ks with
  | nil => rfl
  | cons k ks ih =>
    by_cases h : key = k <;> simp [firsts, ih, h]

/-- No key occurs twice. -/
theorem nodup_firsts (ks : List κ) : (firsts ks).Nodup := by
  induction ks with
  | nil => exact List.nodup_nil
  | cons k ks ih => exact List.nodup_cons.2 ⟨by simp, ih.filter _⟩

/-- As many keys occur as are distinct. -/
theorem length_firsts (ks : List κ) : (firsts ks).length = ks.toFinset.card := by
  rw [← List.toFinset_card_of_nodup (nodup_firsts ks)]
  congr 1
  ext key
  simp [mem_firsts]

/-- Leaving a key out does not change what stands in front of another one. -/
theorem takeWhile_filter_ne {k key : κ} (h : k ≠ key) (ks : List κ) :
    (ks.filter (· ≠ k)).takeWhile (· ≠ key) = (ks.takeWhile (· ≠ key)).filter (· ≠ k) := by
  induction ks with
  | nil => rfl
  | cons a ks ih =>
    by_cases hk : a = k
    · subst hk
      simpa [h] using ih
    · by_cases hkey : a = key
      · subst hkey
        simp [hk]
      · simpa [hk, hkey] using ih

/-- In front of a key stand the distinct ones of those that stand in front of it. -/
theorem takeWhile_firsts (key : κ) (ks : List κ) :
    (firsts ks).takeWhile (· ≠ key) = firsts (ks.takeWhile (· ≠ key)) := by
  induction ks with
  | nil => rfl
  | cons k ks ih =>
    by_cases h : k = key
    · simp [firsts, h]
    · have hfront := takeWhile_filter_ne h (firsts ks)
      simp only [firsts, List.takeWhile_cons, ne_eq, h, not_false_eq_true, decide_true, if_true]
      rw [← ih]
      exact congrArg (k :: ·) hfront

/-- A key is among the first ones of a list if few enough stand in front of it. -/
theorem mem_take_iff {key : κ} {ks : List κ} {n : Nat} :
    key ∈ ks.take n ↔ key ∈ ks ∧ (ks.takeWhile (· ≠ key)).length < n := by
  induction ks generalizing n with
  | nil => simp
  | cons k ks ih =>
    cases n with
    | zero => simp
    | succ n =>
      by_cases h : k = key
      · simp [h]
      · simp [h, Ne.symm h, ih]

/-- The keys that were left out at the end are not needed to bring a key to the front. -/
theorem take_filter_take {ks : List κ} (h : ks.Nodup) (key : κ) (n : Nat) :
    ((ks.take (n + 1)).filter (· ≠ key)).take n = (ks.filter (· ≠ key)).take n := by
  induction ks generalizing n with
  | nil => simp
  | cons k ks ih =>
    obtain ⟨hk, hks⟩ := List.nodup_cons.1 h
    by_cases hkey : k = key
    · have hrest : ∀ l ⊆ ks, l.filter (· ≠ key) = l := by
        intro l hl
        rw [List.filter_eq_self]
        intro a ha
        have hne : a ≠ key := fun heq ↦ hk (hkey ▸ heq ▸ hl ha)
        simpa using hne
      simp only [List.take_succ_cons, List.filter_cons, ne_eq, hkey, not_true_eq_false,
        decide_false, Bool.false_eq_true, if_false]
      rw [hrest _ (List.take_subset n ks), hrest _ (List.Subset.refl ks), List.take_take,
        Nat.min_self]
    · cases n with
      | zero => simp
      | succ n =>
        simp only [List.take_succ_cons, List.filter_cons, ne_eq, hkey, not_false_eq_true,
          decide_true, if_true]
        exact congrArg (k :: ·) (ih hks n)

/-- Bringing a key to the front, with room for some keys. -/
theorem take_touch {ks : List κ} (h : ks.Nodup) (key : κ) (n : Nat) :
    (key :: (ks.take n).filter (· ≠ key)).take n = (key :: ks.filter (· ≠ key)).take n := by
  cases n with
  | zero => rfl
  | succ n =>
    rw [List.take_succ_cons, List.take_succ_cons, take_filter_take h]

/-! ### The queue and the values -/

variable {r : Recency κ ν} {key : κ} {capacity : Nat} {past : List (Done κ ν)}

/-- The queue without a key, latest first. -/
theorem WF.reverse_erase (h : r.WF) (key : κ) :
    (r.order.erase key).reverse = r.order.reverse.filter (· ≠ key) := by
  rw [h.nodup_order.erase_eq_filter, ← List.filter_reverse]
  exact List.filter_congr fun k _ ↦ by rw [Bool.eq_iff_iff]; simp

/-- What is left of the queue when there are too many entries. -/
theorem order_evict {table : List (κ × ν)} {order : List κ} (h : WF ⟨capacity, table, order⟩) :
    (evict capacity table order).2.order.reverse = order.reverse.take capacity := by
  rw [List.take_reverse]
  congr 1
  induction order generalizing table with
  | nil => simp [evict]
  | cons oldest order ih =>
    have hlength : order.length + 1 = table.length := h.length_order
    unfold evict
    split
    · have hsurplus : order.length + 1 - capacity = order.length - capacity + 1 := by omega
      rw [List.length_cons, hsurplus, List.drop_succ_cons]
      exact ih h.tail
    · have hnone : (oldest :: order).length - capacity = 0 := by
        rw [List.length_cons]
        omega
      rw [hnone, List.drop_zero]

/-- Inserting a key brings it to the end of the queue, and the first keys leave it if there are
too many. -/
theorem WF.order_insert (h : r.WF) (hsize : r.order.length ≤ r.capacity) (key : κ) (value : ν) :
    (r.insert key value).2.order.reverse =
      (key :: r.order.reverse.filter (· ≠ key)).take r.capacity := by
  rw [← h.reverse_erase, ← List.reverse_concat]
  rcases h.insert_cases key value with ⟨hzero, heq⟩ | ⟨old, hold, heq⟩ | ⟨-, heq⟩
  · have hempty : r.order = [] := List.eq_nil_of_length_eq_zero (by omega)
    rw [heq, hzero, hempty]
    rfl
  · have hkey : key ∈ r.order := (h.mem_order_iff key).2 (by rw [← isSome_find?, hold]; rfl)
    have hlength := List.length_erase_add_one hkey
    rw [heq, List.take_of_length_le]
    · rfl
    · rw [List.length_reverse, List.length_append, List.length_singleton]
      omega
  · rw [heq]
    exact order_evict (h.put key value)

/-- Looking up a key that is held touches it. -/
theorem exists_get_eq (h : r.contains key) :
    ∃ value, r.find? key = some value ∧ r.get key = (some value, r.touch key) := by
  rw [← isSome_find?] at h
  obtain ⟨value, hvalue⟩ := Option.isSome_iff_exists.1 h
  exact ⟨value, hvalue, by rw [get, hvalue]⟩

/-- Looking up a key that is not held changes nothing. -/
theorem get_eq_of_not_contains (h : ¬ r.contains key) : r.get key = (none, r) := by
  rw [← isSome_find?, Bool.not_eq_true, Option.isSome_eq_false_iff, Option.isNone_iff_eq_none] at h
  rw [get, h]

/-- Touching a key that is held brings it to the end of the queue. -/
theorem WF.order_touched (h : r.WF) (hkey : r.contains key) :
    (r.touch key).order.reverse = key :: r.order.reverse.filter (· ≠ key) := by
  rw [order_touch ((h.mem_order_iff key).2 hkey), List.reverse_concat, h.reverse_erase]

/-- Touching a key leaves the length of the queue. -/
theorem WF.length_order_touch (h : r.WF) (key : κ) :
    (r.touch key).order.length = r.order.length := by
  rw [(h.touch key).length_order, h.length_order, size, table_touch, size]

/-- Touching a key leaves the values alone. -/
@[simp] theorem find?_touch (r : Recency κ ν) (key other : κ) :
    (r.touch key).find? other = r.find? other := by
  rw [find?, table_touch, find?]

/-- Forgetting keys leaves the capacity alone. -/
theorem capacity_evict (capacity : Nat) (table : List (κ × ν)) (order : List κ) :
    (evict capacity table order).2.capacity = capacity := by
  induction order generalizing table with
  | nil => rfl
  | cons oldest order ih =>
    unfold evict
    split
    · exact ih _
    · rfl

/-- Inserting a key leaves the capacity alone. -/
theorem WF.capacity_insert (h : r.WF) (key : κ) (value : ν) :
    (r.insert key value).2.capacity = r.capacity := by
  rcases h.insert_cases key value with ⟨-, heq⟩ | ⟨old, -, heq⟩ | ⟨-, heq⟩
  · rw [heq]
  · rw [heq]
    rfl
  · rw [heq]
    exact capacity_evict _ _ _

/-- The keys that are not forgotten keep their values. -/
theorem find?_evict {table : List (κ × ν)} {order : List κ} (h : WF ⟨capacity, table, order⟩)
    (hkey : (evict capacity table order).2.contains key) :
    (evict capacity table order).2.find? key = (table.find? (·.1 = key)).map (·.2) := by
  induction order generalizing table with
  | nil => rfl
  | cons oldest order ih =>
    unfold evict at hkey ⊢
    split at hkey
    · next hfull =>
      have hlisted : key ∈ (evict capacity (table.filter (·.1 ≠ oldest)) order).2.order :=
        ((wf_evict capacity h.tail).mem_order_iff key).2 hkey
      have horder := order_evict h.tail
      have hmem : key ∈ order := by
        rw [← List.mem_reverse, horder] at hlisted
        exact List.mem_reverse.1 (List.mem_of_mem_take hlisted)
      have hne : key ≠ oldest := fun heq ↦ (List.nodup_cons.1 h.nodup_order).1 (heq ▸ hmem)
      rw [if_pos hfull]
      exact (ih h.tail hkey).trans (by rw [find?_filter_ne hne])
    · next hfull => rw [if_neg hfull]; rfl

/-- The values of a cache in which a key has been given one. -/
theorem find?_put (r : Recency κ ν) (key : κ) (value : ν) (other : κ) :
    (r.put key value).find? other = if other = key then some value else r.find? other := by
  rw [find?, put, List.find?_append, others]
  by_cases hkey : other = key
  · have hnone : (r.table.filter (·.1 ≠ key)).find? (·.1 = other) = none := by
      simp [List.find?_eq_none, hkey]
    rw [hnone]
    simp [hkey]
  · rw [find?_filter_ne hkey]
    simp [hkey, Ne.symm hkey, find?]

/-- A key that is held after an insertion has the value inserted, if it was inserted, and
otherwise the value that it had. -/
theorem WF.find?_insert (h : r.WF) (hsize : r.order.length ≤ r.capacity) (value : ν) {other : κ}
    (hother : (r.insert key value).2.contains other) :
    (r.insert key value).2.find? other = if other = key then some value else r.find? other := by
  rw [← find?_put]
  rcases h.insert_cases key value with ⟨hzero, heq⟩ | ⟨old, -, heq⟩ | ⟨-, heq⟩
  · rw [heq] at hother
    have hpos := List.length_pos_of_mem ((h.mem_order_iff other).2 hother)
    omega
  · rw [heq]
  · rw [heq] at hother ⊢
    exact find?_evict (h.put key value) hother

/-! ### Every deed is remembered -/

/-- What is known of a cache after a history. -/
structure Tracks (capacity : Nat) (past : List (Done κ ν)) (r : Recency κ ν) : Prop where
  wf : r.WF
  capacity_eq : r.capacity = capacity
  /-- The queue, latest first, lists the keys that were touched last. -/
  order : r.order.reverse = (firsts (touches past)).take capacity
  inserted : ∀ key ∈ touches past, Inserted past key
  value : ∀ key, r.contains key → r.find? key = lastGiven past key

/-- The value that was inserted last, behind another deed. -/
theorem lastGiven_concat (past : List (Done κ ν)) (e : Done κ ν) (key : κ) :
    lastGiven (past ++ [e]) key = (e.deed.given key).or (lastGiven past key) := by
  rw [lastGiven, List.reverse_concat, List.findSome?_cons, lastGiven]
  cases e.deed.given key <;> rfl

/-- The queue is not longer than there is room for. -/
theorem Tracks.length_order (h : Tracks capacity past r) : r.order.length ≤ r.capacity := by
  rw [← List.length_reverse, h.order, h.capacity_eq]
  exact List.length_take_le _ _

/-- A key is held if it is among the last ones that were touched. -/
theorem Tracks.contains_iff (h : Tracks capacity past r) (key : κ) :
    r.contains key ↔ key ∈ (firsts (touches past)).take capacity := by
  rw [← h.wf.mem_order_iff, ← List.mem_reverse, h.order]

/-- A deed that touches no key leaves a cache as it is. -/
theorem Tracks.idle (h : Tracks capacity past r) {e : Done κ ν} (hclear : e.isClear = false)
    (htouched : e.touched = none) (hgiven : ∀ key, e.deed.given key = none) :
    Tracks capacity (past ++ [e]) r where
  wf := h.wf
  capacity_eq := h.capacity_eq
  order := by
    rw [touches_concat hclear, htouched]
    exact h.order
  inserted key hkey := by
    rw [touches_concat hclear, htouched] at hkey
    exact (h.inserted key hkey).concat hclear
  value key hkey := by
    rw [lastGiven_concat, hgiven, Option.none_or]
    exact h.value key hkey

/-- A deed that touches a key brings it to the end of the queue. -/
theorem Tracks.touch (h : Tracks capacity past r) {e : Done κ ν} {r' : Recency κ ν}
    (hclear : e.isClear = false) (htouched : e.touched = some key)
    (hinserted : Inserted (past ++ [e]) key) (hwf : r'.WF) (hcapacity : r'.capacity = capacity)
    (horder : r'.order.reverse = (key :: r.order.reverse.filter (· ≠ key)).take capacity)
    (hvalue : ∀ other, r'.contains other →
      r'.find? other = (e.deed.given other).or (lastGiven past other)) :
    Tracks capacity (past ++ [e]) r' where
  wf := hwf
  capacity_eq := hcapacity
  order := by
    rw [horder, h.order, take_touch (nodup_firsts _), touches_concat hclear, htouched]
    rfl
  inserted other hother := by
    rw [touches_concat hclear, htouched] at hother
    rcases List.mem_cons.1 hother with rfl | hother
    · exact hinserted
    · exact (h.inserted other hother).concat hclear
  value other hother := by
    rw [lastGiven_concat]
    exact hvalue other hother

/-- Looking up a key that is held is tracked. -/
theorem Tracks.get (h : Tracks capacity past r) (hkey : r.contains key) {value : ν} :
    Tracks capacity (past ++ [⟨.get key, some value⟩]) (r.touch key) := by
  have hlisted := (h.contains_iff key).1 hkey
  have horder := h.wf.order_touched hkey
  have hlength : (key :: r.order.reverse.filter (· ≠ key)).length ≤ capacity := by
    rw [← horder, List.length_reverse, h.wf.length_order_touch, ← h.capacity_eq]
    exact h.length_order
  refine h.touch rfl rfl ?_ (h.wf.touch key) ?_ ?_ ?_
  · exact (h.inserted key (mem_firsts.1 (List.mem_of_mem_take hlisted))).concat rfl
  · rw [capacity_touch, h.capacity_eq]
  · rw [List.take_of_length_le hlength, horder]
  · intro other hother
    rw [← isSome_find?, find?_touch, isSome_find?] at hother
    rw [find?_touch]
    exact h.value other hother

/-- Inserting a key is tracked. -/
theorem Tracks.insert (h : Tracks capacity past r) (key : κ) (value : ν) :
    Tracks capacity (past ++ [⟨.insert key value, none⟩]) (r.insert key value).2 := by
  refine h.touch rfl rfl ⟨value, ?_⟩ (h.wf.insert key value) ?_ ?_ ?_
  · rw [sinceClear_concat]
    exact List.mem_cons_self
  · rw [h.wf.capacity_insert, h.capacity_eq]
  · rw [h.wf.order_insert h.length_order, h.capacity_eq]
  · intro other hother
    have hfound := h.wf.find?_insert h.length_order value hother
    rw [← isSome_find?, hfound] at hother
    rw [hfound, Deed.given]
    by_cases hkey : other = key
    · simp [hkey]
    · rw [if_neg hkey, isSome_find?] at hother
      rw [if_neg hkey, if_neg (Ne.symm hkey), Option.none_or]
      exact h.value other hother

/-- Clearing is tracked. -/
theorem Tracks.clear (h : Tracks capacity past r) :
    Tracks capacity (past ++ [⟨.clear, none⟩]) r.clear where
  wf := ⟨List.nodup_nil, .refl _⟩
  capacity_eq := h.capacity_eq
  order := by
    rw [touches, sinceClear_concat]
    exact List.take_nil.symm
  inserted key hkey := by
    rw [touches, sinceClear_concat] at hkey
    exact absurd hkey List.not_mem_nil
  value key hkey := absurd hkey (by simp [contains, Recency.clear])

/-- Every deed is tracked. -/
theorem Tracks.step (h : Tracks capacity past r) (d : Deed κ ν) :
    Tracks capacity (past ++ [⟨d, (r.step d).1⟩]) (r.step d).2 := by
  cases d with
  | get key =>
    by_cases hkey : r.contains key
    · obtain ⟨value, -, hget⟩ := exists_get_eq hkey
      rw [Recency.step, hget]
      exact h.get hkey
    · rw [Recency.step, get_eq_of_not_contains hkey]
      exact h.idle rfl rfl fun _ ↦ rfl
  | contains key => exact h.idle rfl rfl fun _ ↦ rfl
  | insert key value => exact h.insert key value
  | clear => exact h.clear

/-- All deeds are tracked. -/
theorem Tracks.run (h : Tracks capacity past r) (deeds : List (Deed κ ν)) :
    Tracks capacity (past ++ r.history deeds) (r.run deeds) := by
  induction deeds generalizing past r with
  | nil =>
    rw [history, List.append_nil]
    exact h
  | cons d ds ih =>
    have hnext := ih (h.step d)
    rw [List.append_assoc] at hnext
    exact hnext

/-- Nothing was done with an empty cache. -/
theorem tracks_empty (capacity : Nat) :
    Tracks capacity [] (empty capacity : Recency κ ν) where
  wf := wf_empty capacity
  capacity_eq := rfl
  order := List.take_nil.symm
  inserted key hkey := absurd hkey List.not_mem_nil
  value key hkey := absurd hkey (by simp [contains, empty])

/-- A key was inserted if it was touched. -/
theorem Tracks.mem_touches_iff (h : Tracks capacity past r) (key : κ) :
    key ∈ touches past ↔ Inserted past key := by
  refine ⟨h.inserted key, fun ⟨value, hvalue⟩ ↦ ?_⟩
  obtain ⟨⟨deed, found⟩, hdone, rfl⟩ := List.mem_map.1 hvalue
  exact List.mem_filterMap.2 ⟨_, hdone, rfl⟩

/-- A key is held if few enough other keys were touched after it. -/
theorem Tracks.contains_iff_touchesAfter (h : Tracks capacity past r) (key : κ) :
    r.contains key ↔ Inserted past key ∧ (touchesAfter past key).toFinset.card < capacity := by
  rw [h.contains_iff, mem_take_iff, mem_firsts, h.mem_touches_iff, takeWhile_firsts,
    length_firsts, touchesAfter]

/-- The value of a key that is held is the one inserted last. -/
theorem Tracks.exists_get (h : Tracks capacity past r) (hkey : r.contains key) :
    ∃ value, lastGiven past key = some value ∧ (r.get key).1 = some value := by
  obtain ⟨value, hvalue, hget⟩ := exists_get_eq hkey
  exact ⟨value, (h.value key hkey).symm.trans hvalue, by rw [hget]⟩

/-- The deeds of a history. -/
theorem map_deed_history (r : Recency κ ν) (deeds : List (Deed κ ν)) :
    (r.history deeds).map (·.deed) = deeds := by
  induction deeds generalizing r with
  | nil => rfl
  | cons d ds ih => exact congrArg (d :: ·) (ih _)

/-- The value that was inserted last is the same in every history of the same deeds. -/
theorem lastGiven_history (r : Recency κ ν) (deeds : List (Deed κ ν)) (key : κ) :
    lastGiven (r.history deeds) key = deeds.reverse.findSome? (·.given key) := by
  rw [lastGiven, ← map_deed_history r deeds, ← List.map_reverse, List.findSome?_map,
    map_deed_history]
  rfl

/-- A cache remembers what is tracked. -/
theorem Tracks.remembers (h : Tracks capacity past r) : Remembers capacity past r where
  distinct := h.wf.distinct
  listed := h.wf.order
  bounded := by
    rw [← h.wf.length_order]
    exact h.length_order.trans h.capacity_eq.le
  contains_iff := h.contains_iff_touchesAfter
  get_held _ := h.exists_get
  get_missing _ := get_eq_of_not_contains
  contains_idle _ := rfl

/-- A cache that was empty is tracked. -/
theorem tracks_run (capacity : Nat) (deeds : List (Deed κ ν)) :
    Tracks capacity ((empty capacity).history deeds) ((empty capacity).run deeds) :=
  (tracks_empty capacity).run deeds

/-- Whatever is done with a cache, it holds the keys that were touched last, as many as there is
room for, with the values that were inserted for them last. -/
theorem remembers_run (capacity : Nat) (deeds : List (Deed κ ν)) :
    Remembers capacity ((empty capacity).history deeds) ((empty capacity).run deeds) :=
  (tracks_run capacity deeds).remembers

example :
    ((empty 2).run [.insert 1 10, .insert 2 20, .get 1, .insert 3 30]).order = [1, 3] := by
  decide

end GuestBridge.Recency
