import Mathlib.Data.List.Nodup
import GuestBridge.Proofs.Value.Accounts
import GuestBridge.Proofs.Value.Conservation
import GuestBridge.Value.Shelf

/-!
# Releases from a shelf

Owned handles are numbered in the order in which they are made, so that handles with equal ids
and type names are told apart. A chronicle notes from the slots alone which of them were made
and which have lost their last copy. The ids that wait for release are accounted for by it: an
id comes to wait at the step that takes the last copy away, once for each owned handle.
-/

namespace GuestBridge

/-! ### Last copies -/

/-- A copy of the owned handle with the number `n` is among some handles. -/
def Handle.livesIn (hs : List Handle) (n : Nat) : Bool :=
  hs.any (·.owner = some n)

/-- The owned handles, by number, whose last copy goes when some handles become others. -/
def Handle.gone (made : Nat) (before after : List Handle) : List Nat :=
  (List.range made).filter fun n ↦ livesIn before n && !livesIn after n

namespace Handle

variable {h : Handle} {hs before after : List Handle} {made n : Nat}

private theorem livesIn_iff : livesIn hs n = true ↔ ∃ h ∈ hs, h.owner = some n := by
  simp [livesIn]

private theorem livesIn_eq_false_iff : livesIn hs n = false ↔ Ledger.copiesIn n hs = 0 := by
  rw [← Bool.not_eq_true, livesIn_iff, ← Ledger.copiesIn_pos_iff, Nat.not_lt, Nat.le_zero]

private theorem livesIn_perm (hp : before.Perm after) (n : Nat) :
    livesIn before n = livesIn after n := by
  rw [Bool.eq_iff_iff, livesIn_iff, livesIn_iff]
  simp only [hp.mem_iff]

private theorem livesIn_cons (h : Handle) (hs : List Handle) (n : Nat) :
    livesIn (h :: hs) n = (decide (h.owner = some n) || livesIn hs n) :=
  List.any_cons

private theorem livesIn_append (hs hs' : List Handle) (n : Nat) :
    livesIn (hs ++ hs') n = (livesIn hs n || livesIn hs' n) :=
  List.any_append

private theorem mem_gone : n ∈ gone made before after ↔
    n < made ∧ livesIn before n = true ∧ livesIn after n = false := by
  simp [gone]

private theorem nodup_gone (made : Nat) (before after : List Handle) :
    (gone made before after).Nodup :=
  List.nodup_range.filter _

/-- Nothing goes if everything that lives goes on living. -/
theorem gone_eq_nil (h : ∀ n < made, livesIn before n = true → livesIn after n = true) :
    gone made before after = [] := by
  refine List.filter_eq_nil_iff.2 fun n hn ↦ ?_
  have hlives := h n (List.mem_range.1 hn)
  simpa using hlives

/-- What is made and lives on does not matter, nor do other copies of what lives anyway. -/
theorem gone_congr {made' : Nat} {before' : List Handle} (hmade : made ≤ made')
    (hlives : ∀ n < made, livesIn before n = livesIn before' n)
    (hborn : ∀ n, made ≤ n → n < made' → livesIn after n = true) :
    gone made' before after = gone made before' after := by
  obtain ⟨more, rfl⟩ := Nat.exists_eq_add_of_le hmade
  have hnone : ((List.range more).map (made + ·)).filter
      (fun n ↦ livesIn before n && !livesIn after n) = [] := by
    refine List.filter_eq_nil_iff.2 fun n hn ↦ ?_
    obtain ⟨k, hk, rfl⟩ := List.mem_map.1 hn
    have hlt := List.mem_range.1 hk
    simp [hborn (made + k) (Nat.le_add_right made k) (by omega)]
  rw [gone, List.range_add, List.filter_append, hnone, List.append_nil]
  exact List.filter_congr fun n hn ↦ by rw [hlives n (List.mem_range.1 hn)]

end Handle

/-! ### Chronicles -/

namespace Shelf

/-- The id of the owned handle that a command makes, if it makes one. -/
def Command.made : Command → List Nat
  | .own _ id _ => [id]
  | _ => []

/-- The ids that a command puts back. -/
def Command.restored : Command → List Nat
  | .restore ids => ids
  | _ => []

/-- The ids that were taken. -/
def Answer.taken : Answer → List Nat
  | .ids taken => taken
  | _ => []

/-- The handles on a shelf. -/
def handles (s : Shelf) : List Handle :=
  s.slots.toList

/-- What has been done with a shelf. -/
structure Chronicle where
  /-- The ids of the owned handles, in the order in which they were made. -/
  made : List Nat
  /-- The owned handles, by number, that have lost their last copy, in order. -/
  ended : List Nat
  /-- The ids that were put back. -/
  restored : List Nat
  /-- The ids that were taken. -/
  taken : List Nat
  deriving Repr

namespace Chronicle

/-- Nothing has been done. -/
def empty : Chronicle := ⟨[], [], [], []⟩

/-- The ids of owned handles. -/
def idsOf (c : Chronicle) (ns : List Nat) : List Nat :=
  ns.filterMap (c.made[·]?)

/-- The owned handles, by number, whose last copy goes with a command. -/
def lost (c : Chronicle) (s : Shelf) (command : Command) : List Nat :=
  Handle.gone c.made.length s.handles (s.step command).2.handles

/-- Note what a command does with a shelf. -/
def note (c : Chronicle) (s : Shelf) (command : Command) : Chronicle where
  made := c.made ++ command.made
  ended := c.ended ++ c.lost s command
  restored := c.restored ++ command.restored
  taken := c.taken ++ (s.step command).1.taken

end Chronicle

/-- Carry out commands and note what they do. -/
def follow (p : Chronicle × Shelf) (commands : List Command) : Chronicle × Shelf :=
  commands.foldl (fun p command ↦ (p.1.note p.2 command, (p.2.step command).2)) p

/-- What a slot holds after a command, when so many owned handles were made before. -/
def heldAfter (made : Nat) (s : Shelf) (slot : String) : Command → Option Handle
  | .own target id typeName =>
    if slot = target then some ⟨id, typeName, some made⟩ else s.slots.find? slot
  | .permanent target id typeName =>
    if slot = target then some ⟨id, typeName, none⟩ else s.slots.find? slot
  | .copy target source =>
    if slot = target then (s.slots.find? source).or (s.slots.find? target)
    else s.slots.find? slot
  | .drop target => if slot = target then none else s.slots.find? slot
  | .same _ _ | .take | .restore _ => s.slots.find? slot

/-- The ids put back by commands, the last ones first. -/
def putBack (commands : List Command) : List Nat :=
  commands.foldl (fun ids command ↦ command.restored ++ ids) []

/-- The releases of a shelf, by what has been done with it. -/
structure Accountable (c : Chronicle) (s : Shelf) : Prop where
  /-- Every command puts handles where it should. -/
  held : ∀ command slot, (s.step command).2.slots.find? slot =
    heldAfter c.made.length s slot command
  /-- Every owned copy shows the id under which its handle was made. -/
  shown : ∀ h ∈ s.handles, ∀ n, h.owner = some n → c.made[n]? = some h.id
  /-- An owned handle has ended if no copy of it is left, and only once. -/
  ended : ∀ n, n ∈ c.ended ↔ n < c.made.length ∧ Handle.livesIn s.handles n = false
  once : c.ended.Nodup
  /-- What came to wait and what was put back has been taken or waits. -/
  conserved : (c.idsOf c.ended ++ c.restored).Perm (c.taken ++ s.ledger.pending)
  /-- Taking takes all that waits. -/
  taking : (s.step .take).1.taken = s.ledger.pending ∧ (s.step .take).2.ledger.pending = []
  /-- As long as nothing is taken, ids that are put back stand in front of all that wait, and the
  ids of handles that end behind them. -/
  order : ∀ commands, .take ∉ commands → (s.run commands).ledger.pending =
    putBack commands ++ s.ledger.pending ++
      (follow (c, s) commands).1.idsOf ((follow (c, s) commands).1.ended.drop c.ended.length)
  /-- At most one handle ends with each command. -/
  single : ∀ command, (c.lost s command).length ≤ 1
  /-- No release follows from dropping a handle that is never released. -/
  permanent : ∀ slot h, s.slots.find? slot = some h → h.owner = none →
    (s.step (.drop slot)).2.ledger = s.ledger

end Shelf

/-! ### Dropping -/

/-- The owned handle that goes with one of its copies is the one of which it was the last. -/
theorem Handle.gone_append (made : Nat) (old : Option Handle) (rest : List Handle) :
    gone made (old.toList ++ rest) rest =
      ((old.bind (·.owner)).filter fun n ↦ n < made && Ledger.copiesIn n rest = 0).toList := by
  cases old with
  | none => exact gone_eq_nil fun _ _ h ↦ h
  | some x =>
    rw [Option.toList_some, List.singleton_append, Option.bind_some]
    cases hn : x.owner with
    | none => exact gone_eq_nil fun n _ h ↦ by simpa [livesIn_cons, hn] using h
    | some n =>
      rw [Option.filter_some]
      split
      next hlast =>
        rw [Bool.and_eq_true, decide_eq_true_eq, decide_eq_true_eq, ← livesIn_eq_false_iff] at hlast
        have hsame : gone made (x :: rest) rest = (List.range made).filter (· == n) := by
          refine List.filter_congr fun m _ ↦ ?_
          rw [livesIn_cons, hn]
          by_cases hm : m = n
          · simp [hm, hlast.2]
          · cases livesIn rest m <;> simp [hm, Ne.symm hm]
        rw [hsame, List.filter_beq,
          List.count_eq_one_of_mem List.nodup_range (List.mem_range.2 hlast.1)]
        rfl
      next hlast =>
        refine gone_eq_nil fun m hmade hm ↦ ?_
        rw [livesIn_cons, hn, Bool.or_eq_true, decide_eq_true_eq, Option.some.injEq] at hm
        rcases hm with rfl | hm
        · rw [Bool.and_eq_true, decide_eq_true_eq, decide_eq_true_eq,
            ← livesIn_eq_false_iff] at hlast
          exact Bool.not_eq_false _ ▸ fun hdead ↦ hlast ⟨hmade, hdead⟩
        · exact hm

namespace Ledger.Accounts

variable {l : Ledger} {old : Option Handle} {rest : List Handle}

/-- Handles that are dropped release the id of the owned handle that ends with them. -/
theorem pending_drop (ha : l.Accounts (old.toList ++ rest)) :
    (l.dropHandles old.toList).pending =
      l.pending ++ (Handle.gone l.ids.length (old.toList ++ rest) rest).filterMap (l.ids[·]?) := by
  rw [Handle.gone_append]
  cases old with
  | none => simp [dropHandles]
  | some x =>
    have hdrop : (l.dropHandles [x]).pending = l.pending ++ lastOf x rest :=
      ha.pending_dropHandle
    rw [Option.toList_some, hdrop, lastOf, Option.bind_some]
    cases hn : x.owner with
    | none => rfl
    | some n =>
      have hid := ha.owned x (by simp) n hn
      obtain ⟨hmade, hshown⟩ := List.getElem?_eq_some_iff.1 hid
      by_cases hlast : copiesIn n rest = 0 <;> simp [Option.filter_some, hmade, hlast, hshown]

/-- What is left is accounted for. -/
theorem drop (ha : l.Accounts (old.toList ++ rest)) : (l.dropHandles old.toList).Accounts rest := by
  cases old with
  | none => exact ha
  | some x => exact ha.dropHandle

end Ledger.Accounts

namespace Shelf

variable {c : Chronicle} {s s' : Shelf} {command : Command} {l : Ledger} {h x : Handle}
  {hs : List Handle} {ns : List Nat} {slot : String} {n : Nat}

/-! ### Steps -/

/-- Ids of owned handles stay when others are made. -/
theorem Chronicle.idsOf_of_prefix {c' : Chronicle} (hmade : c.made <+: c'.made)
    (h : ∀ n ∈ ns, n < c.made.length) : c'.idsOf ns = c.idsOf ns := by
  obtain ⟨more, hmore⟩ := hmade
  refine List.filterMap_congr fun n hn ↦ ?_
  rw [← hmore, List.getElem?_append_left (h n hn)]

private theorem Chronicle.made_note (c : Chronicle) (s : Shelf) (command : Command) :
    c.made <+: (c.note s command).made :=
  List.prefix_append _ _

private theorem Chronicle.idsOf_append (c : Chronicle) (ns ms : List Nat) :
    c.idsOf (ns ++ ms) = c.idsOf ns ++ c.idsOf ms :=
  List.filterMap_append

/-- A shelf is in order, and its ledger knows what was made. -/
private structure Orderly (c : Chronicle) (s : Shelf) : Prop where
  wf : s.slots.WF
  accounts : s.ledger.Accounts s.handles
  ids : s.ledger.ids = c.made

/-- What a command other than taking does: it makes a handle or lets one go. -/
private structure Moves (c : Chronicle) (s : Shelf) (command : Command) (s' : Shelf) : Prop where
  orderly : Orderly (c.note s command) s'
  pending : s'.ledger.pending = command.restored ++ s.ledger.pending ++
    c.idsOf (Handle.gone c.made.length s.handles s'.handles)
  /-- What has ended does not come back. -/
  dead : ∀ n < c.made.length, Handle.livesIn s.handles n = false →
    Handle.livesIn s'.handles n = false
  /-- What is made lives. -/
  born : ∀ n, c.made.length ≤ n → n < (c.note s command).made.length →
    Handle.livesIn s'.handles n = true
  single : (Handle.gone c.made.length s.handles s'.handles).length ≤ 1

/-- Handles that are dropped while the others on the shelf stay. -/
private theorem Orderly.moves (old : Option Handle) (ha : l.Accounts (old.toList ++ s'.handles))
    (hledger : s'.ledger = l.dropHandles old.toList) (hwf : s'.slots.WF)
    (hids : l.ids = c.made ++ command.made)
    (hpending : l.pending = command.restored ++ s.ledger.pending)
    (hlives : ∀ n < c.made.length, Handle.livesIn (old.toList ++ s'.handles) n =
      Handle.livesIn s.handles n)
    (hborn : ∀ n, c.made.length ≤ n → n < (c.made ++ command.made).length →
      Handle.livesIn s'.handles n = true) :
    Moves c s command s' := by
  have hgone : Handle.gone l.ids.length (old.toList ++ s'.handles) s'.handles =
      Handle.gone c.made.length s.handles s'.handles := by
    rw [hids]
    exact Handle.gone_congr (by simp) hlives hborn
  have hlookup : (Handle.gone c.made.length s.handles s'.handles).filterMap (l.ids[·]?) =
      c.idsOf (Handle.gone c.made.length s.handles s'.handles) := by
    rw [hids]
    exact Chronicle.idsOf_of_prefix (c.made_note s command) fun n hn ↦ (Handle.mem_gone.1 hn).1
  constructor
  · exact ⟨hwf, hledger ▸ ha.drop, by rw [hledger, ha.ids_dropHandles, hids]; rfl⟩
  · rw [hledger, ha.pending_drop, hgone, hlookup, hpending]
  · intro n hn hdead
    rw [← hlives n hn, Handle.livesIn_append] at hdead
    exact (Bool.or_eq_false_iff.1 hdead).2
  · exact hborn
  · rw [← hgone, Handle.gone_append]
    cases Option.filter _ _ <;> simp

/-- A handle that is put into a slot, and the one that was there. -/
private theorem Orderly.put (ho : Orderly c s) (ha : l.Accounts (x :: s.handles))
    (hs' : s' = { s with ledger := l }.put slot x)
    (hids : l.ids = c.made ++ command.made)
    (hpending : l.pending = command.restored ++ s.ledger.pending)
    (hlives : ∀ n < c.made.length, x.owner = some n → Handle.livesIn s.handles n = true)
    (hborn : ∀ n, c.made.length ≤ n → n < (c.made ++ command.made).length → x.owner = some n) :
    Moves c s command s' := by
  have hperm := ho.wf.put_perm slot x
  have hmem : x ∈ s'.handles := by
    subst hs'
    exact List.mem_map.2 ⟨(slot, x), by simp [Shelf.put, Slots.put], rfl⟩
  refine Orderly.moves (s.slots.put slot x).1 ?_ (by rw [hs']; rfl)
    (by rw [hs']; exact ho.wf.put slot x) hids hpending (fun n hn ↦ ?_) fun n hn hlt ↦ ?_
  · exact ha.perm (hs' ▸ hperm.symm)
  · have hsame : Handle.livesIn ((s.slots.put slot x).1.toList ++ s'.handles) n =
        Handle.livesIn (x :: s.handles) n := Handle.livesIn_perm (hs' ▸ hperm) n
    rw [hsame, Handle.livesIn_cons]
    by_cases hx : x.owner = some n
    · simp [hlives n hn hx]
    · simp [hx]
  · exact Handle.livesIn_iff.2 ⟨x, hmem, hborn n hn hlt⟩

/-- Nothing is made by most commands. -/
private theorem not_born {p : Prop} (hmade : command.made = []) (hn : c.made.length ≤ n)
    (hlt : n < (c.made ++ command.made).length) : p := by
  rw [hmade, List.append_nil] at hlt
  exact absurd hlt (Nat.not_lt.2 hn)

/-- A command that leaves the slots as they are. -/
private theorem Orderly.stays (ho : Orderly c s) (ha : l.Accounts s.handles)
    (hids : l.ids = c.made) (hmade : command.made = [])
    (hpending : l.pending = command.restored ++ s.ledger.pending) :
    Moves c s command { s with ledger := l } := by
  refine Orderly.moves none ha rfl ho.wf (by rw [hids, hmade, List.append_nil]) hpending
    (fun n _ ↦ rfl) fun n hn hlt ↦ not_born hmade hn hlt

/-- Every command other than taking lets at most one handle go. -/
private theorem Orderly.step (ho : Orderly c s) (hcommand : command ≠ .take) :
    Moves c s command (s.step command).2 := by
  cases command with
  | own slot id typeName =>
    have hlength : c.made.length = s.ledger.owners.length := by simp [← ho.ids, Ledger.ids]
    refine ho.put (ho.accounts.own id typeName) rfl (by simp [ho.ids, Command.made]) rfl
      (fun n hn hx ↦ ?_) fun n hn hlt ↦ ?_
    · cases hx
      exact absurd hlength (Nat.ne_of_gt hn)
    · have hmade : n < c.made.length + 1 := by simpa [Command.made] using hlt
      have hnumber : n = s.ledger.owners.length := by omega
      rw [hnumber]
      rfl
  | permanent slot id typeName =>
    exact ho.put (ho.accounts.cons_unowned rfl) rfl (by simp [ho.ids, Command.made]) rfl
      (fun n hn hx ↦ by cases hx) fun n hn hlt ↦ not_born rfl hn hlt
  | copy slot source =>
    simp only [Shelf.step]
    split
    next h hfound =>
      have hmem : h ∈ s.handles := Slots.mem_toList_of_find? hfound
      have ha := ho.accounts.retainHandle (Handle.borrowed_of_subset (by simpa using hmem))
      exact ho.put ha rfl (by simp [ho.ids, Command.made]) (by simp [Command.restored])
        (fun n _ hx ↦ Handle.livesIn_iff.2 ⟨h, hmem, hx⟩) fun n hn hlt ↦ not_born rfl hn hlt
    next => exact ho.stays ho.accounts ho.ids rfl rfl
  | drop slot =>
    have hperm := ho.wf.remove_perm slot
    exact Orderly.moves (s.slots.remove slot).1
      (ho.accounts.perm hperm.symm) rfl (ho.wf.remove slot) (by simp [ho.ids, Command.made]) rfl
      (fun n _ ↦ Handle.livesIn_perm hperm n) fun n hn hlt ↦ not_born rfl hn hlt
  | same a b => exact ho.stays ho.accounts ho.ids rfl rfl
  | take => exact absurd rfl hcommand
  | restore ids =>
    exact ho.stays (l := s.ledger.restore ids) ⟨ho.accounts.copies, ho.accounts.owned⟩ ho.ids
      rfl rfl

/-! ### Runs -/

/-- The chronicle of a shelf is right. -/
private structure Chronicled (c : Chronicle) (s : Shelf) : Prop where
  orderly : Orderly c s
  ended : ∀ n, n ∈ c.ended ↔ n < c.made.length ∧ Handle.livesIn s.handles n = false
  once : c.ended.Nodup
  conserved : (c.idsOf c.ended ++ c.restored).Perm (c.taken ++ s.ledger.pending)

/-- What is taken is all that taking adds to a chronicle. -/
private theorem Chronicle.note_take (c : Chronicle) (s : Shelf) :
    c.note s .take = { c with taken := c.taken ++ s.ledger.pending } := by
  have hlost : c.lost s .take = [] := Handle.gone_eq_nil fun _ _ h ↦ h
  simp only [note, hlost, Command.made, Command.restored, List.append_nil]
  rfl

/-- Nothing is taken by other commands. -/
private theorem taken_step (hcommand : command ≠ .take) : (s.step command).1.taken = [] := by
  cases command with
  | take => exact absurd rfl hcommand
  | copy slot source =>
    simp only [Shelf.step]
    split <;> rfl
  | _ => rfl

/-- Taking is noted. -/
private theorem Chronicled.take (hc : Chronicled c s) :
    Chronicled (c.note s .take) (s.step .take).2 := by
  rw [Chronicle.note_take]
  refine ⟨⟨hc.orderly.wf, ⟨hc.orderly.accounts.copies, hc.orderly.accounts.owned⟩,
    hc.orderly.ids⟩, hc.ended, hc.once, ?_⟩
  have hconserved := hc.conserved
  rw [← List.append_nil (c.taken ++ s.ledger.pending)] at hconserved
  exact hconserved

/-- Every command is noted. -/
private theorem Chronicled.step (hc : Chronicled c s) (command : Command) :
    Chronicled (c.note s command) (s.step command).2 := by
  by_cases hcommand : command = .take
  · exact hcommand ▸ hc.take
  have hmoves := hc.orderly.step hcommand
  have hlength : c.made.length ≤ (c.note s command).made.length := by
    simp [Chronicle.note]
  refine ⟨hmoves.orderly, fun n ↦ ?_, ?_, ?_⟩
  · have hended := hc.ended n
    have hdead := hmoves.dead n
    have hborn := hmoves.born n
    have hlost : n ∈ c.lost s command ↔ _ := Handle.mem_gone
    change n ∈ c.ended ++ c.lost s command ↔ n < (c.note s command).made.length ∧ _
    rw [List.mem_append, hended, hlost]
    by_cases hn : n < c.made.length
    · cases hbefore : Handle.livesIn s.handles n <;> simp_all <;> omega
    · simp only [hn, false_and, or_self, false_iff, not_and]
      intro hlt
      rw [hborn (Nat.le_of_not_lt hn) hlt]
      simp
  · refine List.nodup_append.2 ⟨hc.once, Handle.nodup_gone _ _ _, fun n hn m hm ↦ ?_⟩
    rintro rfl
    have hbefore := (Handle.mem_gone.1 hm).2.1
    rw [((hc.ended n).1 hn).2] at hbefore
    cases hbefore
  · have hold : (c.note s command).idsOf c.ended = c.idsOf c.ended :=
      Chronicle.idsOf_of_prefix (c.made_note s command) fun n hn ↦ ((hc.ended n).1 hn).1
    have hnew : (c.note s command).idsOf (c.lost s command) = c.idsOf (c.lost s command) :=
      Chronicle.idsOf_of_prefix (c.made_note s command) fun n hn ↦ (Handle.mem_gone.1 hn).1
    have hpending : (s.step command).2.ledger.pending =
        command.restored ++ s.ledger.pending ++ c.idsOf (c.lost s command) := hmoves.pending
    change ((c.note s command).idsOf (c.ended ++ c.lost s command) ++
      (c.restored ++ command.restored)).Perm
        (c.taken ++ (s.step command).1.taken ++ (s.step command).2.ledger.pending)
    rw [Chronicle.idsOf_append, hold, hnew, hpending, taken_step hcommand, List.append_nil]
    have hconserved := hc.conserved
    simp only [List.perm_iff_count, List.count_append] at hconserved ⊢
    intro id
    have hid := hconserved id
    omega

/-- Shelf and chronicle from the beginning. -/
private theorem chronicled_follow (hc : Chronicled c s) (commands : List Command) :
    Chronicled (follow (c, s) commands).1 (follow (c, s) commands).2 := by
  induction commands generalizing c s with
  | nil => exact hc
  | cons command commands ih => exact ih (hc.step command)

/-- Following commands carries them out. -/
private theorem follow_run (commands : List Command) :
    (follow (c, s) commands).2 = s.run commands := by
  induction commands generalizing c s with
  | nil => rfl
  | cons command commands ih => exact ih

/-- An empty shelf. -/
private theorem chronicled_empty : Chronicled .empty empty where
  orderly := ⟨Slots.wf_empty, Ledger.accounts_empty, rfl⟩
  ended n := by simp [Chronicle.empty]
  once := List.nodup_nil
  conserved := .refl _

/-- Chronicles only grow. -/
private theorem follow_grows (c : Chronicle) (s : Shelf) (commands : List Command) :
    c.made <+: (follow (c, s) commands).1.made ∧ c.ended <+: (follow (c, s) commands).1.ended := by
  induction commands generalizing c s with
  | nil => exact ⟨List.prefix_rfl, List.prefix_rfl⟩
  | cons command commands ih =>
    obtain ⟨hmade, hended⟩ := ih (c.note s command) (s.step command).2
    exact ⟨(List.prefix_append _ _).trans hmade, (List.prefix_append _ _).trans hended⟩

/-- What later commands put back stands in front. -/
private theorem putBack_cons (command : Command) (commands : List Command) :
    putBack (command :: commands) = putBack commands ++ command.restored := by
  have hfold (ids : List Nat) : commands.foldl (fun ids c ↦ c.restored ++ ids) ids =
      putBack commands ++ ids := by
    unfold putBack
    induction commands generalizing ids with
    | nil => rfl
    | cons next commands ih =>
      rw [List.foldl_cons, List.foldl_cons, ih, ih (next.restored ++ []), List.append_nil,
        List.append_assoc]
  rw [putBack, List.foldl_cons, hfold, List.append_nil]

/-- The queue while nothing is taken. -/
private theorem Chronicled.order (hc : Chronicled c s) {commands : List Command}
    (htake : .take ∉ commands) : (s.run commands).ledger.pending =
      putBack commands ++ s.ledger.pending ++
        (follow (c, s) commands).1.idsOf
          ((follow (c, s) commands).1.ended.drop c.ended.length) := by
  induction commands generalizing c s with
  | nil => simp [run, putBack, follow, Chronicle.idsOf]
  | cons command commands ih =>
    rw [List.mem_cons, not_or] at htake
    have hpending : (s.step command).2.ledger.pending =
        command.restored ++ s.ledger.pending ++ c.idsOf (c.lost s command) :=
      (hc.orderly.step (Ne.symm htake.1)).pending
    have hnext := ih (hc.step command) htake.2
    obtain ⟨hmade, ended, hended⟩ := follow_grows (c.note s command) (s.step command).2 commands
    change (run (s.step command).2 commands).ledger.pending = putBack (command :: commands) ++
      s.ledger.pending ++ (follow (c.note s command, (s.step command).2) commands).1.idsOf
        ((follow (c.note s command, (s.step command).2) commands).1.ended.drop c.ended.length)
    generalize (follow (c.note s command, (s.step command).2) commands).1 = last at *
    have hlost : last.idsOf (c.lost s command) = c.idsOf (c.lost s command) :=
      Chronicle.idsOf_of_prefix ((c.made_note s command).trans hmade)
        fun n hn ↦ (Handle.mem_gone.1 hn).1
    have hnote : (c.note s command).ended = c.ended ++ c.lost s command := rfl
    rw [hnext, hpending, putBack_cons, ← hended, List.drop_left, hnote, List.append_assoc c.ended,
      List.drop_left, Chronicle.idsOf_append, hlost]
    simp only [List.append_assoc]

/-- What the slots hold after a command. -/
private theorem find?_step (ho : Orderly c s) (command : Command) (slot : String) :
    (s.step command).2.slots.find? slot = heldAfter c.made.length s slot command := by
  cases command with
  | own target id typeName =>
    have hlength : c.made.length = s.ledger.owners.length := by simp [← ho.ids, Ledger.ids]
    rw [heldAfter, hlength]
    exact Slots.find?_put s.slots target slot _
  | permanent target id typeName => exact Slots.find?_put s.slots target slot _
  | copy target source =>
    simp only [Shelf.step, heldAfter]
    split
    next h hfound =>
      rw [hfound, Option.some_or]
      exact Slots.find?_put s.slots target slot h
    next hnone =>
      rw [hnone, Option.none_or]
      split
      next heq => rw [heq]
      next => rfl
  | drop target => exact Slots.find?_remove s.slots target slot
  | same a b => rfl
  | take => rfl
  | restore ids => rfl

/-- In every run on a shelf the ids that wait for release are accounted for: they are those of
the owned handles that have lost their last copy, once for each of them and in this order, behind
those that were put back, as long as they are not taken. -/
theorem releases_accounted (commands : List Command) :
    (follow (.empty, empty) commands).2 = run empty commands ∧
      Accountable (follow (.empty, empty) commands).1 (run empty commands) := by
  have hrun := follow_run (c := .empty) (s := empty) commands
  refine ⟨hrun, ?_⟩
  have hc := chronicled_follow chronicled_empty commands
  rw [hrun] at hc
  generalize (follow (.empty, empty) commands).1 = c at hc ⊢
  generalize run empty commands = s at hc ⊢
  constructor
  · exact find?_step hc.orderly
  · intro h hh n hn
    rw [← hc.orderly.ids]
    exact hc.orderly.accounts.owned h hh n hn
  · exact hc.ended
  · exact hc.once
  · exact hc.conserved
  · exact ⟨rfl, rfl⟩
  · exact fun commands htake ↦ hc.order htake
  · intro command
    by_cases hcommand : command = .take
    · subst hcommand
      have hlost : c.lost s .take = [] := Handle.gone_eq_nil fun _ _ h ↦ h
      simp [hlost]
    · exact (hc.orderly.step hcommand).single
  · intro slot h hfound hn
    simp only [Shelf.step, Slots.remove, hfound]
    exact Ledger.dropHandle_unowned hn

end Shelf

end GuestBridge
