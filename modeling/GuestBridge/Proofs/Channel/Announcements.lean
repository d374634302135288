import GuestBridge.Channel.Link
import GuestBridge.Proofs.Wire.FrameReader
import GuestBridge.Proofs.Wire.Handover

/-!
# Releases are announced once

The host of a child program asks it for things, copies handles that it holds, and drops them.
Writing and reading may fail at any time, and replies may be no replies. Every id that came to
wait for release is either announced in a frame that was written, or still waits; and frames
announce ids in the order in which they came to wait.
-/

namespace GuestBridge.Channel

variable {τ : Type}

/-- A link that keeps the texts that were written without a failure, oldest first. -/
def recorded (l : Link τ) : Link (τ × List String) where
  run program args t := ((l.run program args t.1).1, (l.run program args t.1).2, t.2)
  write text t :=
    match l.write text t.1 with
    | (.ok _, u) => (.ok (), u, t.2 ++ [text])
    | (.error fault, u) => (.error fault, u, t.2)
  readLine t := ((l.readLine t.1).1, (l.readLine t.1).2, t.2)

/-- What the host of a child does. -/
inductive Deed where
  /-- Send a request and wait for the answer, whose handles are held from then on. -/
  | ask (r : Request)
  /-- Copy a handle that is held. -/
  | copy (i : Nat)
  /-- Drop a handle that is held. -/
  | drop (i : Nat)
  deriving Repr

/-- A child whose texts are kept, and its host. -/
structure Dealings (τ : Type) where
  /-- The child, the texts written to it, and the ledger of the handles held. -/
  world : World (τ × List String)
  /-- The handles that are held. -/
  held : List Handle
  /-- The ids that ever came to wait for release, in order. -/
  queued : List Nat

namespace Dealings

/-- Nothing is held of a child that has just been started. -/
def begin (t : τ) : Dealings τ := ⟨⟨(t, []), .empty⟩, [], []⟩

/-- The texts that were written without a failure. -/
def written (d : Dealings τ) : List String := d.world.guest.2

/-- The ids that wait for release. -/
def pending (d : Dealings τ) : List Nat := d.world.ledger.pending

/-- What writing the frame of a request comes to. -/
def attempt (l : Link τ) (d : Dealings τ) (r : Request) : Except IoFault Unit × τ :=
  l.write (Wire.frame (Wire.code r) d.pending) d.world.guest.1

/-- The ids that come to wait when an answer is read: those of the handles in a reply that
cannot be decoded. -/
def letGoFrom (l : Link τ) (t : τ) : List Nat :=
  match l.readLine t with
  | (.error _, _) => []
  | (.ok bytes, _) =>
    match replyLine bytes with
    | .error _ => []
    | .ok line => Wire.letGo line

/-- The ids that come to wait with a request. -/
def letGoBy (l : Link τ) (d : Dealings τ) (r : Request) : List Nat :=
  match d.attempt l r with
  | (.error _, _) => []
  | (.ok _, t) => letGoFrom l t

/-- What a deed comes to. -/
def step (l : Link τ) (d : Dealings τ) : Deed → Dealings τ
  | .ask r =>
    let (result, world) := request (recorded l) (Wire.code r) d.world
    { world, held := brought Value.handles result ++ d.held, queued := d.queued ++ d.letGoBy l r }
  | .copy i =>
    match d.held[i]? with
    | none => d
    | some h =>
      { d with
        world := { d.world with ledger := d.world.ledger.retainHandle h }
        held := h :: d.held }
  | .drop i =>
    match d.held[i]? with
    | none => d
    | some h =>
      let rest := d.held.eraseIdx i
      { world := { d.world with ledger := d.world.ledger.dropHandle h }
        held := rest
        queued := d.queued ++ Ledger.lastOf h rest }

/-- What deeds come to, one after the other. -/
def run (l : Link τ) (d : Dealings τ) (deeds : List Deed) : Dealings τ :=
  deeds.foldl (step l) d

/-! ### Requests -/

variable {l : Link τ} {d d' : Dealings τ} {r : Request} {t : τ}

/-- A request that cannot be written fails with the fault, and leaves everything as it was but
the child. -/
theorem request_of_refused {fault : IoFault} (h : d.attempt l r = (.error fault, t)) :
    request (recorded l) (Wire.code r) d.world =
      (.error (.io fault), ⟨(t, d.written), d.world.ledger⟩) := by
  have hwrite : (recorded l).write (Wire.frame (Wire.code r) d.world.ledger.take.1)
      d.world.guest = (.error fault, t, d.written) := by
    simp only [recorded]
    rw [show l.write (Wire.frame (Wire.code r) d.world.ledger.take.1) d.world.guest.1 =
      (.error fault, t) from h]
    rfl
  simp only [request, send, hwrite]
  rw [Ledger.restore_take]

/-- A request that is written has all ids that wait in its frame, and waits for the answer. -/
theorem request_of_written (h : d.attempt l r = (.ok (), t)) :
    request (recorded l) (Wire.code r) d.world =
      receive (recorded l)
        ⟨(t, d.written ++ [Wire.frame (Wire.code r) d.pending]), d.world.ledger.take.2⟩ := by
  have hwrite : (recorded l).write (Wire.frame (Wire.code r) d.world.ledger.take.1)
      d.world.guest = (.ok (), t, d.written ++ [Wire.frame (Wire.code r) d.pending]) := by
    simp only [recorded]
    rw [show l.write (Wire.frame (Wire.code r) d.world.ledger.take.1) d.world.guest.1 =
      (.ok (), t) from h]
    rfl
  simp only [request, send, hwrite]

/-- Reading an answer writes nothing. -/
theorem written_receive (l : Link τ) (w : World (τ × List String)) :
    (receive (recorded l) w).2.guest.2 = w.guest.2 := by
  unfold receive
  simp only [recorded]
  rcases l.readLine w.guest.1 with ⟨_ | bytes, u⟩
  · rfl
  · cases hline : replyLine bytes <;> simp only [hline]

/-- Reading an answer hands over the handles of the answer. -/
theorem moves_receive (l : Link τ) {w : World (τ × List String)} {hs : List Handle}
    (ha : w.ledger.Accounts hs) :
    w.ledger.Moves (receive (recorded l) w).2.ledger
      (brought Value.handles (receive (recorded l) w).1 ++ hs) (letGoFrom l w.guest.1) := by
  unfold receive letGoFrom
  simp only [recorded]
  rcases l.readLine w.guest.1 with ⟨_ | bytes, u⟩
  · exact .refl ha
  · cases hline : replyLine bytes with
    | error e =>
      simp only [hline]
      exact .refl ha
    | ok line =>
      simp only [hline]
      exact Wire.moves_decodeReply line ha

/-- A request that is written adds its frame to what was written. -/
theorem written_ask (h : d.attempt l r = (.ok (), t)) :
    (d.step l (.ask r)).written = d.written ++ [Wire.frame (Wire.code r) d.pending] := by
  have hreceive := written_receive l
    ⟨(t, d.written ++ [Wire.frame (Wire.code r) d.pending]), d.world.ledger.take.2⟩
  rw [step, request_of_written h]
  exact hreceive

/-! ### Books -/

/-- The ledger accounts for the handles that are held, and what was written are frames: those
of some requests, which announce in order what came to wait first and does not wait any more. -/
structure Kept (d : Dealings τ) (frames : List (List Nat × String)) : Prop where
  accounts : d.world.ledger.Accounts d.held
  spent : d.world.ledger.spent.Perm d.queued
  written : d.written = frames.map fun r ↦ Wire.frame r.2 r.1
  queued : d.queued = frames.flatMap (·.1) ++ d.pending

/-- Nothing has been announced yet. -/
theorem kept_begin (t : τ) : (begin t).Kept [] where
  accounts := Ledger.accounts_empty
  spent := .refl _
  written := rfl
  queued := rfl

variable {frames : List (List Nat × String)}

/-- What happens to the handles that are held keeps the books. -/
theorem Kept.moves {held : List Handle} {lost : List Nat} {ledger : Ledger}
    (h : d.Kept frames) (hm : d.world.ledger.Moves ledger held lost) :
    Kept ⟨{ d.world with ledger }, held, d.queued ++ lost⟩ frames where
  accounts := hm.accounts
  spent := hm.spent.trans (h.spent.append_right lost)
  written := h.written
  queued := by
    have hpending : ledger.pending = d.pending ++ lost := hm.pending
    rw [h.queued, List.append_assoc, ← hpending]
    rfl

/-- A request keeps the books; if it was written there is one more frame. -/
theorem Kept.ask (h : d.Kept frames) (r : Request) :
    ∃ more, (d.step l (.ask r)).Kept (frames ++ more) := by
  rcases hattempt : d.attempt l r with ⟨fault | u, t⟩
  · refine ⟨[], ?_⟩
    have hlost : d.letGoBy l r = [] := by rw [letGoBy, hattempt]
    rw [List.append_nil, step, request_of_refused hattempt, hlost, List.append_nil]
    exact ⟨h.accounts, h.spent, h.written, h.queued⟩
  · refine ⟨[(d.pending, Wire.code r)], ?_⟩
    have hlost : d.letGoBy l r = letGoFrom l t := by rw [letGoBy, hattempt]
    have htaken : d.world.ledger.take.2.Accounts d.held :=
      ⟨h.accounts.copies, h.accounts.owned⟩
    have hmoves := moves_receive l
      (w := ⟨(t, d.written ++ [Wire.frame (Wire.code r) d.pending]), d.world.ledger.take.2⟩) htaken
    have hwritten := written_ask hattempt
    rw [step, request_of_written hattempt, hlost] at hwritten ⊢
    generalize receive (recorded l) _ = answer at hwritten hmoves ⊢
    obtain ⟨result, world⟩ := answer
    refine ⟨hmoves.accounts, hmoves.spent.trans (h.spent.append_right _), ?_, ?_⟩
    · rw [List.map_append, ← h.written]
      exact hwritten
    · have hpending : world.ledger.pending = letGoFrom l t := hmoves.pending
      have hqueued : d.queued ++ letGoFrom l t =
          (frames ++ [(d.pending, Wire.code r)]).flatMap (·.1) ++ world.ledger.pending := by
        rw [List.flatMap_append, List.flatMap_singleton, h.queued, hpending]
      exact hqueued

/-- Every deed keeps the books. -/
theorem Kept.step (h : d.Kept frames) (deed : Deed) :
    ∃ more, (d.step l deed).Kept (frames ++ more) := by
  cases deed with
  | ask r => exact h.ask r
  | copy i =>
    refine ⟨[], ?_⟩
    rw [List.append_nil, Dealings.step]
    cases hi : d.held[i]? with
    | none => exact h
    | some k =>
      have hheld : Handle.Borrowed d.held [k] :=
        Handle.borrowed_of_subset (by simpa using List.mem_of_getElem? hi)
      have hkept := h.moves (Ledger.moves_retainHandle h.accounts hheld)
      rw [List.append_nil] at hkept
      exact hkept
  | drop i =>
    refine ⟨[], ?_⟩
    rw [List.append_nil, Dealings.step]
    cases hi : d.held[i]? with
    | none => exact h
    | some k =>
      have hperm : d.held.Perm (k :: d.held.eraseIdx i) := by
        obtain ⟨hlt, rfl⟩ := List.getElem?_eq_some_iff.1 hi
        exact (List.getElem_cons_eraseIdx_perm hlt).symm
      exact h.moves (Ledger.moves_dropHandle (h.accounts.perm hperm))

/-- Deeds keep the books. -/
theorem Kept.run (h : d.Kept frames) (deeds : List Deed) :
    ∃ more, (d.run l deeds).Kept (frames ++ more) := by
  induction deeds generalizing d frames with
  | nil => exact ⟨[], by rw [List.append_nil]; exact h⟩
  | cons deed deeds ih =>
    obtain ⟨first, hfirst⟩ := h.step (l := l) deed
    obtain ⟨more, hmore⟩ := ih hfirst
    exact ⟨first ++ more, by rw [← List.append_assoc]; exact hmore⟩

/-- More ids come to wait behind those that came before, whatever is done. -/
theorem queued_prefix_step (l : Link τ) (d : Dealings τ) (deed : Deed) :
    d.queued <+: (d.step l deed).queued := by
  cases deed with
  | ask r => exact List.prefix_append _ _
  | copy i =>
    rw [step]
    split <;> exact List.prefix_refl _
  | drop i =>
    rw [step]
    split
    · exact List.prefix_refl _
    · exact List.prefix_append _ _

/-- Ids come to wait behind those that came before. -/
theorem queued_prefix_run (l : Link τ) (d : Dealings τ) (deeds : List Deed) :
    d.queued <+: (d.run l deeds).queued := by
  induction deeds generalizing d with
  | nil => exact List.prefix_refl _
  | cons deed deeds ih => exact (queued_prefix_step l d deed).trans (ih _)

/-- What is read from the texts that were written. -/
theorem Kept.serve (h : d.Kept frames) :
    Wire.FrameReader.serve (fun _ ↦ true) (d.written.flatMap Wire.utf8) = some frames := by
  have hfits : frames.all (Wire.FrameReader.fits fun _ ↦ true) := by
    simp [Wire.FrameReader.fits]
  rw [h.written, List.flatMap_map, Wire.FrameReader.serve_frames, if_pos hfits]

/-- As long as nothing is written, the ids that wait stay in front, and others come to wait
behind them. -/
theorem Kept.pending_append (h : d.Kept frames) {frames' : List (List Nat × String)}
    (h' : d'.Kept frames') (hwritten : d'.written = d.written) (hqueued : d.queued <+: d'.queued) :
    ∃ newer, d'.queued = d.queued ++ newer ∧ d'.pending = d.pending ++ newer := by
  have hframes : frames' = frames := by
    have hserve := h'.serve
    rw [hwritten, h.serve] at hserve
    exact (Option.some.inj hserve).symm
  obtain ⟨newer, hnewer⟩ := hqueued
  refine ⟨newer, hnewer.symm, ?_⟩
  rw [h'.queued, h.queued, hframes, List.append_assoc] at hnewer
  exact (List.append_cancel_left hnewer).symm

/-- Every id that came to wait is announced once or still waits. -/
structure Announced (d : Dealings τ) : Prop where
  /-- The ledger counts the copies of the handles that are held. -/
  held : d.world.ledger.Accounts d.held
  /-- The ids that came to wait are those of the owners whose last copy is gone, each once. -/
  once : d.queued.Perm d.world.ledger.spent
  /-- The guest reads frames from what was written to it. They announce, in order, the ids that
  came to wait first, and the other ones still wait. -/
  order : ∃ frames,
    Wire.FrameReader.serve (fun _ ↦ true) (d.written.flatMap Wire.utf8) = some frames ∧
      d.queued = frames.flatMap (·.1) ++ d.pending

/-- A request that could not be written leaves the ids that wait to the next one. -/
structure Retried (l : Link τ) (d : Dealings τ) (r : Request) (fault : IoFault) (t : τ) :
    Prop where
  /-- The request fails with the fault, and the ledger is as it was. -/
  refused : request (recorded l) (Wire.code r) d.world =
    (.error (.io fault), ⟨(t, d.written), d.world.ledger⟩)
  /-- Whatever is done until a request is written, its frame announces the ids that waited
  before, and behind them those that came to wait in the meantime. -/
  first : ∀ (deeds : List Deed) (r' : Request) (t' : τ),
    let d' := (d.step l (.ask r)).run l deeds
    d'.written = d.written → d'.attempt l r' = (.ok (), t') →
      ∃ newer, d'.queued = d.queued ++ newer ∧
        (d'.step l (.ask r')).written =
          d.written ++ [Wire.frame (Wire.code r') (d.pending ++ newer)]

/-- Whatever a host does with a child, and whatever fails, every id that came to wait for
release is announced in one written frame or still waits, in the order in which they came. A
request that cannot be written fails and takes no id with it. -/
theorem releases_announced (l : Link τ) (t : τ) (deeds : List Deed) :
    let d := (begin t).run l deeds
    d.Announced ∧ ∀ r fault u, d.attempt l r = (.error fault, u) → d.Retried l r fault u := by
  intro d
  obtain ⟨frames, hkept⟩ := (kept_begin t).run (l := l) deeds
  refine ⟨⟨hkept.accounts, hkept.spent.symm, _, hkept.serve, hkept.queued⟩, ?_⟩
  intro r fault u hrefused
  refine ⟨request_of_refused hrefused, ?_⟩
  intro later r' u' d' hwritten hattempt
  obtain ⟨more, hkept'⟩ := hkept.run (l := l) (.ask r :: later)
  obtain ⟨newer, hqueued, hpending⟩ := hkept.pending_append hkept' hwritten
    (queued_prefix_run l d (.ask r :: later))
  refine ⟨newer, hqueued, ?_⟩
  rw [written_ask hattempt, hwritten, ← hpending]
  rfl

end Dealings

end GuestBridge.Channel
