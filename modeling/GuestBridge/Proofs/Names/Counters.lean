import Mathlib.Order.Bounds.Defs
import GuestBridge.Proofs.Names.Issued
import GuestBridge.Proofs.Value.Conservation

/-!
# The counters only save time

For each base the registry keeps the number at which the next search starts. Every candidate with a
smaller number is blocked, whatever was issued and reserved in between, so a search that forgets the
counter and starts with zero would come to the same candidate, the first one that clashes with no
name before.
-/

namespace GuestBridge.Names

/-- The registry after some calls. -/
def after (names : Names) (calls : List Call) : Names :=
  calls.foldl (fun names call ↦ (names.grant call).2) names

/-- A search without a bound that starts with the number `n` stops with the number `i`. -/
inductive Stops (names : Names) (base : String) : (n i : Nat) → Prop
  | free {n : Nat} (h : names.isFree (candidate base n)) : Stops names base n n
  | blocked {n i : Nat} (h : names.isFree (candidate base n) = false)
    (next : Stops names base (n + 1) i) : Stops names base n i

variable {names : Names} {base name other : String} {n m i j : Nat}

/-! ### Searches -/

/-- A search stops with the first free candidate. -/
theorem Stops.isFree (h : names.Stops base n i) :
    names.isFree (candidate base i) ∧ n ≤ i ∧
      ∀ j, n ≤ j → j < i → names.isFree (candidate base j) = false := by
  induction h with
  | free h => exact ⟨h, Nat.le_refl _, fun j hj hlt ↦ absurd hlt (Nat.not_lt.2 hj)⟩
  | blocked h _ ih =>
    obtain ⟨hfree, hle, hblocked⟩ := ih
    refine ⟨hfree, Nat.le_of_succ_le hle, fun j hj hlt ↦ ?_⟩
    rcases Nat.eq_or_lt_of_le hj with rfl | hlater
    · exact h
    · exact hblocked j hlater hlt

/-- A search stops with one number only. -/
theorem Stops.unique (h : names.Stops base n i) (h' : names.Stops base n j) : i = j := by
  obtain ⟨hfree, hle, hblocked⟩ := h.isFree
  obtain ⟨hfree', hle', hblocked'⟩ := h'.isFree
  rcases Nat.lt_trichotomy i j with hlt | heq | hlt
  · rw [hblocked' i hle hlt] at hfree
    cases hfree
  · exact heq
  · rw [hblocked j hle' hlt] at hfree'
    cases hfree'

/-- Blocked candidates may be tried first. -/
theorem Stops.earlier (h : names.Stops base m i) (hle : n ≤ m)
    (hblocked : ∀ j, n ≤ j → j < m → names.isFree (candidate base j) = false) :
    names.Stops base n i := by
  obtain ⟨k, rfl⟩ := Nat.exists_eq_add_of_le hle
  clear hle
  induction k generalizing n with
  | zero => exact h
  | succ k ih =>
    rw [← Nat.succ_add_eq_add_succ] at h hblocked
    refine .blocked (hblocked n (Nat.le_refl n) (by omega)) (ih h fun j hj ↦ ?_)
    exact hblocked j (Nat.le_of_succ_le hj)

/-- The bound of a search is no limit to it: a search always stops, and where the bounded one
does. -/
theorem stops_search (names : Names) (base : String) (n : Nat) :
    names.Stops base n (names.search base (2 * names.issued.length + 1) n) := by
  obtain ⟨k, hlow, hhigh, hk⟩ := names.exists_isFree base n
  obtain ⟨hfree, hle, hblocked⟩ := search_isFree hlow hhigh hk
  exact (Stops.free hfree).earlier hle hblocked

/-! ### What the counters say -/

/-- The candidates with smaller numbers than the next one to try are blocked. -/
def Settled (names : Names) : Prop :=
  ∀ base j, j < names.counter base → names.isFree (candidate base j) = false

/-- Nothing was tried at first. -/
theorem settled_empty : empty.Settled :=
  fun _ _ hj ↦ absurd hj (Nat.not_lt_zero _)

/-- A name that is taken is not free. -/
theorem isFree_take_self (names : Names) (name : String) :
    (names.take name).isFree name = false := by
  simp [isFree, take]

/-- A name that is not free stays so when another one is taken. -/
theorem isFree_take (h : names.isFree name = false) (other : String) :
    (names.take other).isFree name = false := by
  rw [← Bool.not_eq_true, isFree_iff] at h ⊢
  exact fun hfree ↦ h ⟨fun hmem ↦ hfree.1 (List.mem_cons_of_mem _ (List.mem_cons_of_mem _ hmem)),
    fun hmem ↦ hfree.2 (List.mem_cons_of_mem _ (List.mem_cons_of_mem _ hmem))⟩

/-- The counter of a base behind the number that was issued for it; other counters stay. -/
theorem counter_unique (names : Names) (base other : String) :
    (names.unique base).2.counter other =
      if other = base then names.search base (2 * names.issued.length + 1) (names.counter base) + 1
      else names.counter other := by
  by_cases h : other = base
  · subst h
    simp [unique, counter, take]
  · rw [if_neg h]
    unfold unique take counter
    rw [List.find?_cons_of_neg (by simpa using Ne.symm h), find?_filter_ne h]

/-- Issuing a name leaves the candidates in front of each counter blocked: those that the search
has passed, and the one that was taken. -/
theorem Settled.unique (h : names.Settled) (base : String) : (names.unique base).2.Settled := by
  intro other j hj
  rw [counter_unique] at hj
  have hissued : (names.unique base).2.isFree (names.unique base).1 = false := isFree_take_self _ _
  have hstays {name : String} (hname : names.isFree name = false) :
      (names.unique base).2.isFree name = false := isFree_take hname _
  split at hj
  · next heq =>
    subst heq
    obtain ⟨-, -, hpassed⟩ :=
      (names.stops_search other (names.counter other)).isFree
    rcases Nat.lt_or_ge j (names.counter other) with hlt | hge
    · exact hstays (h other j hlt)
    · rcases Nat.lt_or_eq_of_le (Nat.le_of_lt_succ hj) with hlt | heq
      · exact hstays (hpassed j hge hlt)
      · rw [heq]
        exact hissued
  · exact hstays (h other j hj)

/-- Reserving a name blocks more candidates and moves no counter. -/
theorem Settled.reserve (h : names.Settled) (name : String) : (names.reserve name).Settled :=
  fun base j hj ↦ isFree_take (h base j hj) name

/-- Whatever is called for, the candidates in front of each counter stay blocked. -/
theorem Settled.after (h : names.Settled) (calls : List Call) : (names.after calls).Settled := by
  induction calls generalizing names with
  | nil => exact h
  | cons call calls ih =>
    cases call with
    | unique base => exact ih (h.unique base)
    | reserve name => exact ih (h.reserve name)

/-! ### What is issued -/

/-- What a call adds to the names that are taken. -/
theorem issued_grant (names : Names) (call : Call) :
    (names.grant call).2.issued = (names.grant call).1 ::
      Definition.mapName (names.grant call).1 :: names.issued := by
  cases call <;> rfl

/-- The names that are taken after some calls are those before, those that were issued or reserved,
and the names of their helpers. -/
theorem mem_issued_after (names : Names) (calls : List Call) :
    name ∈ (names.after calls).issued ↔ name ∈ names.issued ∨
      ∃ g ∈ names.grants calls, name ∈ [g.name, Definition.mapName g.name] := by
  induction calls generalizing names with
  | nil => simp [after, grants]
  | cons call calls ih =>
    have hrest := ih (names.grant call).2
    rw [issued_grant] at hrest
    have hcons : (names.after (call :: calls)).issued =
      ((names.grant call).2.after calls).issued := rfl
    rw [hcons, hrest, grants]
    simp only [List.mem_cons, List.not_mem_nil, or_false, or_and_right, exists_or,
      exists_eq_left, or_assoc, or_left_comm]

/-- A name is free after some calls if it clashes with none that was issued or reserved. -/
theorem isFree_after_iff (calls : List Call) : (empty.after calls).isFree name ↔
    ∀ g ∈ empty.grants calls, Apart g.name name := by
  have hnone (x : String) : x ∉ (empty.after calls).issued ↔
      ∀ g ∈ empty.grants calls, x ∉ [g.name, Definition.mapName g.name] := by
    rw [mem_issued_after]
    simp [empty]
  rw [isFree_iff, hnone, hnone, ← forall₂_and]
  refine forall₂_congr fun g _ ↦ ?_
  constructor
  · rintro ⟨hname, hhelper⟩ x hx hx'
    rcases List.mem_pair.1 hx' with rfl | rfl
    · exact hname hx
    · exact hhelper hx
  · intro hapart
    exact ⟨fun hx ↦ hapart hx List.mem_cons_self,
      fun hx ↦ hapart hx (List.mem_cons_of_mem _ List.mem_cons_self)⟩

/-- Whatever was called for: the search for a name stops, with the first candidate of all that
clashes with no name issued or reserved before, and so does a search that starts with zero. -/
theorem unique_isLeast (calls : List Call) (base : String) :
    let names := empty.after calls
    ∃ i, (names.unique base).1 = candidate base i ∧
      IsLeast {j | ∀ g ∈ empty.grants calls, Apart g.name (candidate base j)} i ∧
      (∀ j, names.Stops base (names.counter base) j ↔ j = i) ∧
      ∀ j, names.Stops base 0 j ↔ j = i := by
  intro names
  have hsettled : names.Settled := settled_empty.after calls
  have hstops := names.stops_search base (names.counter base)
  have hzero := hstops.earlier (Nat.zero_le _) fun j _ ↦ hsettled base j
  obtain ⟨hfree, -, hblocked⟩ := hzero.isFree
  refine ⟨_, rfl, ⟨(isFree_after_iff calls).1 hfree, fun j hj ↦ ?_⟩, fun j ↦ ?_, fun j ↦ ?_⟩
  · by_contra hlt
    have hnot := hblocked j (Nat.zero_le j) (Nat.lt_of_not_le hlt)
    rw [(isFree_after_iff calls).2 hj] at hnot
    cases hnot
  · exact ⟨fun h ↦ h.unique hstops, fun h ↦ h ▸ hstops⟩
  · exact ⟨fun h ↦ h.unique hzero, fun h ↦ h ▸ hzero⟩

example :
    ((empty.after [.unique "x_1", .reserve "_jlext_x__map", .unique "x"]).unique "x").1 =
      "_jlext_x_3" := by
  decide +kernel

end GuestBridge.Names
