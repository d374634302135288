import GuestBridge.Proofs.Value.Spent
import GuestBridge.Proofs.Wire.Unwinding

/-!
# What a reply does to the ledger

Decoding a reply hands over the handles of its value to whoever asked. What it owned for a reply
that fails it drops again, so that the ledger accounts for what was held before and for the
handles of the value, and for nothing else.
-/

namespace GuestBridge

/-- The handles that come with a result. -/
def brought {ε α : Type} (shown : α → List Handle) : Except ε α → List Handle
  | .ok x => shown x
  | .error _ => []

namespace Wire

variable {l : Ledger} {hs : List Handle}

/-- An object that is no tuple hands over one handle at most. -/
theorem exists_moves_decodeObject (members : List (String × Json)) (ha : l.Accounts hs) :
    ∃ lost, l.Moves (decodeObject members l).2
      (brought Value.handles (decodeObject members l).1 ++ hs) lost := by
  unfold decodeObject
  split
  · split <;> exact ⟨[], .refl ha⟩
  · split
    · exact ⟨[], Ledger.moves_own ha _ _⟩
    · exact ⟨[], .refl ha⟩

mutual

/-- Decoding hands over the handles of its value. -/
theorem exists_moves_decode {l : Ledger} {hs : List Handle} (ha : l.Accounts hs) : ∀ j : Json,
    ∃ lost, l.Moves (decode j l).2 (brought Value.handles (decode j l).1 ++ hs) lost
  | .null => ⟨[], by rw [decode]; exact .refl ha⟩
  | .bool _ => ⟨[], by rw [decode]; exact .refl ha⟩
  | .number n => by
    have hnone : (decodeNumber n).handles = [] := by
      unfold decodeNumber
      split
      · split <;> rfl
      · rfl
      · rfl
    refine ⟨[], ?_⟩
    rw [decode, brought, hnone]
    exact .refl ha
  | .str _ => ⟨[], by rw [decode]; exact .refl ha⟩
  | .array items => by
    obtain ⟨lost, hmoves⟩ := exists_moves_decodeItems [] ha items
    refine ⟨lost, ?_⟩
    rw [decode]
    cases hitems : decodeItems [] items l with
    | mk result l' =>
      rw [hitems] at hmoves
      cases result <;> exact hmoves
  | .object members => by
    rw [decode]
    cases htuple : decodeTuple? members l with
    | none => exact exists_moves_decodeObject _ ha
    | some o =>
      obtain ⟨lost, hmoves⟩ := exists_moves_decodeTuple? ha members htuple
      obtain ⟨result, l'⟩ := o
      cases result <;> exact ⟨lost, hmoves⟩

/-- Decoding items hands over the handles of their values, and drops all of them if it fails. -/
theorem exists_moves_decodeItems {l : Ledger} {hs : List Handle} (done : List Value)
    (ha : l.Accounts (Value.handlesAll done ++ hs)) : ∀ js : List Json,
    ∃ lost, l.Moves (decodeItems done js l).2
      (brought Value.handlesAll (decodeItems done js l).1 ++ hs) lost
  | [] => ⟨[], by rw [decodeItems]; exact .refl ha⟩
  | j :: js => by
    obtain ⟨lost, hmoves⟩ := exists_moves_decode ha j
    rw [decodeItems]
    cases hj : decode j l with
    | mk result l' =>
      rw [hj] at hmoves
      cases result with
      | ok v =>
        have hfirst : l.Moves l' (Value.handlesAll (done ++ [v]) ++ hs) lost := by
          refine hmoves.perm ?_
          rw [Value.handlesAll_append, List.append_assoc, Value.handlesAll, Value.handlesAll,
            List.append_nil]
          exact List.perm_append_comm_assoc v.handles (Value.handlesAll done) hs
        obtain ⟨lost', hrest⟩ := exists_moves_decodeItems (done ++ [v]) hfirst.accounts js
        exact ⟨_, hfirst.trans hrest⟩
      | error e =>
        have hdone : l'.Accounts (Value.handlesAll done ++ hs) := hmoves.accounts
        obtain ⟨lost', hrest⟩ := Ledger.exists_moves_dropHandles hdone
        exact ⟨_, hmoves.trans hrest⟩

/-- Decoding a tuple hands over the handles of its components. -/
theorem exists_moves_decodeTuple? {l : Ledger} {hs : List Handle} (ha : l.Accounts hs) :
    ∀ (members : List (String × Json)) {o : Except ProtocolFault (List Value) × Ledger},
      decodeTuple? members l = some o →
        ∃ lost, l.Moves o.2 (brought Value.handlesAll o.1 ++ hs) lost
  | [], _, h => by
    rw [decodeTuple?] at h
    cases h
  | (key, j) :: members, o, h => by
    rw [decodeTuple?.eq_def] at h
    by_cases hkey : key = "tuple"
    · cases j with
      | array items =>
        obtain rfl : decodeItems [] items l = o := by simpa [hkey] using h
        exact exists_moves_decodeItems [] ha items
      | _ => simp [hkey] at h
    · exact exists_moves_decodeTuple? ha members (by simpa [hkey] using h)

end

/-- The ids that decoding a reply lets go: those of the handles that it owned before it failed. -/
def letGo (line : String) : List Nat :=
  (decodeReply line .empty).2.pending

/-- What decoding lets go does not depend on the ledger, and comes to wait behind what waits. -/
theorem pending_decodeReply (line : String) (l : Ledger) :
    (decodeReply line l).2.pending = l.pending ++ letGo line := by
  have hempty : Ledger.empty.pending = [] := rfl
  unfold letGo decodeReply
  split
  · simp [hempty]
  · simp [hempty]
  · next j _ =>
    rcases decodes_or_fails j with ⟨ids, hj⟩ | ⟨levels, e, hj⟩
    · obtain ⟨v, l', hv, hgrows, -⟩ := decode_of_decodes hj l
      obtain ⟨v', l'', hv', hgrows', -⟩ := decode_of_decodes hj .empty
      simp only [hv, hv', hgrows.pending, hgrows'.pending, hempty, List.append_nil]
    · obtain ⟨l', he, -, hpending⟩ := decode_of_fails hj l
      obtain ⟨l'', he', -, hpending'⟩ := decode_of_fails hj .empty
      simp only [he, he', hpending, hpending', hempty, List.nil_append]

/-- Decoding a reply hands over the handles of its value. -/
theorem moves_decodeReply (line : String) (ha : l.Accounts hs) :
    l.Moves (decodeReply line l).2 (brought Value.handles (decodeReply line l).1 ++ hs)
      (letGo line) := by
  have hsome : ∃ lost, l.Moves (decodeReply line l).2
      (brought Value.handles (decodeReply line l).1 ++ hs) lost := by
    unfold decodeReply
    split
    · exact ⟨[], .refl ha⟩
    · exact ⟨[], .refl ha⟩
    · next j _ =>
      obtain ⟨lost, hmoves⟩ := exists_moves_decode ha j
      cases hj : decode j l with
      | mk result l' =>
        rw [hj] at hmoves
        cases result <;> exact ⟨lost, hmoves⟩
  obtain ⟨lost, hmoves⟩ := hsome
  have hlost : lost = letGo line :=
    List.append_cancel_left (hmoves.pending.symm.trans (pending_decodeReply line l))
  exact hlost ▸ hmoves

end Wire

end GuestBridge
