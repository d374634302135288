import Mathlib.Tactic.Conv
import GuestBridge.Proofs.Value.Accounts

/-!
# Owners without copies

An owner whose last copy was dropped is spent, and its id came to wait for release at that
moment. So whatever happens to a ledger, as many ids have come to wait as owners were spent,
and each once.
-/

namespace GuestBridge.Ledger

/-- The ids of the owners that have no copies any more. -/
def spent (l : Ledger) : List Nat :=
  (l.owners.filter (·.copies = 0)).map (·.id)

/-- A ledger that accounts for some handles has become one that accounts for others. The ids
that came to wait in the meantime are those of the owners that were spent, each once. -/
structure Moves (l l' : Ledger) (hs' : List Handle) (lost : List Nat) : Prop where
  accounts : l'.Accounts hs'
  pending : l'.pending = l.pending ++ lost
  spent : l'.spent.Perm (l.spent ++ lost)

variable {l l' l'' : Ledger} {h : Handle} {hs hs' hs'' ks : List Handle} {lost lost' : List Nat}

/-- Nothing happens. -/
theorem Moves.refl (ha : l.Accounts hs) : l.Moves l hs [] where
  accounts := ha
  pending := (List.append_nil _).symm
  spent := by rw [List.append_nil]

/-- One thing happens after another. -/
theorem Moves.trans (h : l.Moves l' hs' lost) (h' : l'.Moves l'' hs'' lost') :
    l.Moves l'' hs'' (lost ++ lost') where
  accounts := h'.accounts
  pending := by rw [h'.pending, h.pending, List.append_assoc]
  spent := by
    rw [← List.append_assoc]
    exact h'.spent.trans (h.spent.append_right lost')

/-- The order of the handles does not matter. -/
theorem Moves.perm (h : l.Moves l' hs' lost) (hp : hs'.Perm hs'') : l.Moves l' hs'' lost where
  accounts := h.accounts.perm hp
  pending := h.pending
  spent := h.spent

/-- A new owner is not spent. -/
theorem moves_own (ha : l.Accounts hs) (id : Nat) (typeName : String) :
    l.Moves (l.own id typeName).2 ((l.own id typeName).1 :: hs) [] where
  accounts := ha.own id typeName
  pending := (List.append_nil _).symm
  spent := by
    have hsame : (l.own id typeName).2.spent = l.spent := by simp [own, spent]
    rw [hsame, List.append_nil]

/-- An owner that was not spent takes on another count of copies. -/
private theorem spent_set {owners : List Owner} {n : Nat} {o : Owner} (ho : owners[n]? = some o)
    (hcopies : o.copies ≠ 0) (o' : Owner) :
    (((owners.set n o').filter (·.copies = 0)).map (·.id)).Perm
      ((owners.filter (·.copies = 0)).map (·.id) ++ if o'.copies = 0 then [o'.id] else []) := by
  obtain ⟨hn, rfl⟩ := List.getElem?_eq_some_iff.1 ho
  have hold : owners.filter (·.copies = 0) =
      (owners.take n).filter (·.copies = 0) ++ (owners.drop (n + 1)).filter (·.copies = 0) := by
    conv_lhs => rw [← List.take_append_drop n owners, List.drop_eq_getElem_cons hn]
    rw [List.filter_append, List.filter_cons_of_neg (by simpa using hcopies)]
  rw [hold, List.set_eq_take_append_cons_drop, if_pos hn, List.filter_append, List.filter_cons]
  by_cases hzero : o'.copies = 0
  · simp only [hzero, decide_true, if_true, List.map_append, List.map_cons, List.append_assoc]
    exact List.Perm.append_left _ (List.perm_append_singleton _ _).symm
  · simp [hzero]

/-- A copy of a handle that is held spends no owner. -/
theorem moves_retainHandle (ha : l.Accounts hs) (hb : Handle.Borrowed hs [h]) :
    l.Moves (l.retainHandle h) (h :: hs) [] where
  accounts := ha.retainHandle hb
  pending := by rw [pending_retainHandle, List.append_nil]
  spent := by
    cases ho : h.owner with
    | none =>
      have hsame : l.retainHandle h = l := by simp [retainHandle, ho]
      rw [hsame, List.append_nil]
    | some n =>
      have hm : h ∈ hs := hb h (List.mem_singleton_self h) (by simp [ho])
      have hold := (ha.perm (List.perm_cons_erase hm)).exists_owner ho
      have hset := spent_set hold (Nat.succ_ne_zero _)
        ⟨h.id, copiesIn n (hs.erase h) + 1 + 1⟩
      have hmodify : (l.retainHandle h).owners =
          l.owners.set n ⟨h.id, copiesIn n (hs.erase h) + 1 + 1⟩ := by
        simp [retainHandle, ho, List.modify_eq_set, hold]
      rw [Ledger.spent, hmodify]
      exact hset

/-- Dropping a handle spends its owner if no other copy is held. -/
theorem moves_dropHandle (ha : l.Accounts (h :: hs)) :
    l.Moves (l.dropHandle h) hs (lastOf h hs) where
  accounts := ha.dropHandle
  pending := ha.pending_dropHandle
  spent := by
    cases ho : h.owner with
    | none => rw [dropHandle_unowned ho, lastOf, ho, List.append_nil]
    | some n =>
      have hset := spent_set (ha.exists_owner ho) (Nat.succ_ne_zero _) ⟨h.id, copiesIn n hs⟩
      rw [dropHandle_eq ha ho, lastOf, ho]
      exact hset

/-- Dropping handles spends owners. -/
theorem exists_moves_dropHandles (ha : l.Accounts (ks ++ hs)) :
    ∃ lost, l.Moves (l.dropHandles ks) hs lost := by
  induction ks generalizing l with
  | nil => exact ⟨[], .refl ha⟩
  | cons k ks ih =>
    have hfirst : l.Moves (l.dropHandle k) (ks ++ hs) (lastOf k (ks ++ hs)) :=
      moves_dropHandle ha
    obtain ⟨lost, hrest⟩ := ih hfirst.accounts
    exact ⟨_, hfirst.trans hrest⟩

end GuestBridge.Ledger
