import Mathlib.Data.List.Nodup
import Mathlib.Data.List.Perm.Subperm
import GuestBridge.Names

/-!
# The search for a free name

The candidates for a base are all different, and every name that is taken blocks at most two of
them: the one that it equals, and the one whose helper it is. So among a few more candidates than
twice the taken names there is a free one, and the search finds the first.
-/

namespace GuestBridge

/-- Different functions have different helpers. -/
theorem Definition.mapName_injective : Function.Injective mapName := by
  intro a b h
  rw [mapName, mapName, ← String.toList_inj, String.toList_append, String.toList_append] at h
  exact String.toList_inj.1 (List.append_cancel_right h)

namespace Names

/-- Different numbers have different digits. -/
theorem toDigits_injective : Function.Injective (Nat.toDigits 10) := by
  intro m n h
  have hread := congrArg (fun digits ↦ Nat.ofDigitChars 10 digits 0) h
  simpa using hread

/-- The candidates for a base are all different. -/
theorem candidate_injective (base : String) : Function.Injective (candidate base) := by
  intro m n h
  have hlist := congrArg String.toList h
  by_cases hm : m = 0 <;> by_cases hn : n = 0
  · rw [hm, hn]
  · simp [candidate, hm, hn] at hlist
  · simp [candidate, hm, hn] at hlist
  · simp only [candidate, hm, hn, if_false, String.toList_append, Nat.toString_eq_repr,
      Nat.toList_repr] at hlist
    exact toDigits_injective (List.append_cancel_left hlist)

variable {names : Names} {base name : String} {n fuel : Nat}

/-- A name is free if neither it nor the name of its helper is taken. -/
theorem isFree_iff : names.isFree name ↔
    name ∉ names.issued ∧ Definition.mapName name ∉ names.issued := by
  simp [isFree]

/-- Different names that are all taken are not more than those taken. -/
theorem length_le_of_subset {names issued : List String} (h : names.Nodup)
    (hsub : names ⊆ issued) : names.length ≤ issued.length :=
  (List.subperm_of_subset h hsub).length_le

/-- Every name that is taken blocks at most two others. -/
theorem length_le_of_blocked {candidates : List String} (h : candidates.Nodup)
    (hblocked : ∀ c ∈ candidates, names.isFree c = false) :
    candidates.length ≤ 2 * names.issued.length := by
  have htaken : (candidates.filter (names.issued.contains ·)).length ≤ names.issued.length := by
    refine length_le_of_subset (h.filter _) fun c hc ↦ ?_
    simpa using (List.mem_filter.1 hc).2
  have hhelpers : ((candidates.filter (!names.issued.contains ·)).map Definition.mapName).length ≤
      names.issued.length := by
    refine length_le_of_subset (List.Nodup.map Definition.mapName_injective (h.filter _)) ?_
    intro helper hhelper
    obtain ⟨c, hc, rfl⟩ := List.mem_map.1 hhelper
    obtain ⟨hmem, hnot⟩ := List.mem_filter.1 hc
    have hblocks := hblocked c hmem
    simp only [isFree, hnot, Bool.true_and] at hblocks
    simpa using hblocks
  have hall := List.length_eq_length_filter_add (l := candidates) (names.issued.contains ·)
  rw [List.length_map] at hhelpers
  omega

/-- There is a free candidate not far away. -/
theorem exists_isFree (names : Names) (base : String) (n : Nat) :
    ∃ i, n ≤ i ∧ i < n + (2 * names.issued.length + 1) ∧ names.isFree (candidate base i) := by
  by_contra hnone
  have hblocked : ∀ c ∈ (List.range' n (2 * names.issued.length + 1)).map (candidate base),
      names.isFree c = false := by
    intro c hc
    obtain ⟨i, hi, rfl⟩ := List.mem_map.1 hc
    obtain ⟨hlow, hhigh⟩ := List.mem_range'_1.1 hi
    rw [← Bool.not_eq_true]
    exact fun hfree ↦ hnone ⟨i, hlow, hhigh, hfree⟩
  have hlength := length_le_of_blocked
    (List.Nodup.map (candidate_injective base) List.nodup_range') hblocked
  rw [List.length_map, List.length_range'] at hlength
  omega

/-- The search finds the first free candidate, if there is one in its reach. -/
theorem search_isFree {i : Nat} (hlow : n ≤ i) (hhigh : i < n + fuel)
    (hfree : names.isFree (candidate base i)) :
    names.isFree (candidate base (names.search base fuel n)) ∧
      n ≤ names.search base fuel n ∧
      ∀ j, n ≤ j → j < names.search base fuel n → names.isFree (candidate base j) = false := by
  induction fuel generalizing n with
  | zero => omega
  | succ fuel ih =>
    unfold search
    split
    · next hn => exact ⟨hn, Nat.le_refl n, fun j hj hlt ↦ absurd hlt (Nat.not_lt.2 hj)⟩
    · next hn =>
      have hne : n ≠ i := fun heq ↦ hn (heq ▸ hfree)
      obtain ⟨hfound, hreached, hskipped⟩ := ih (n := n + 1) (by omega) (by omega)
      refine ⟨hfound, by omega, fun j hj hlt ↦ ?_⟩
      rcases Nat.eq_or_lt_of_le hj with rfl | hlater
      · exact Bool.not_eq_true _ ▸ hn
      · exact hskipped j hlater hlt

/-- The name that is issued for a base was free. -/
theorem isFree_unique (names : Names) (base : String) :
    names.isFree (names.unique base).1 := by
  obtain ⟨i, hlow, hhigh, hfree⟩ := names.exists_isFree base (names.counter base)
  exact (search_isFree hlow hhigh hfree).1

end Names

end GuestBridge
