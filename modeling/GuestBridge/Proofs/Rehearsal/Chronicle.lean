import GuestBridge.Proofs.Bridge.Projection
import GuestBridge.Proofs.Bridge.SessionCustody
import GuestBridge.Proofs.Rehearsal.Requests

/-!
# The chronicle of a rehearsal

The requests recorded so far tell which ids were handed out and for which objects. A rehearsal
that records its requests is an interpreter whose handles are in custody, and its records stay
true whatever happens.
-/

namespace GuestBridge.Rehearsal

/-- Everything that was handed out in answer to recorded requests. -/
def exportsIn (log : List (Asked Stage)) : List (Nat × Object) :=
  log.flatMap fun a ↦ Scene.exportsOf a.world a.request

/-- A record tells the truth about a scene: these ids were handed out for these objects, which
are still what they were or have been forgotten. -/
structure Chronicle (log : List (Asked Stage)) (w : Scene) : Prop where
  ids : w.ledger.ids = (exportsIn log).map Prod.fst
  objects : ∀ x ∈ exportsIn log, x.1 ≤ w.guest.lastId ∧
    (w.guest.object? x.1 = none ∨ w.guest.object? x.1 = some x.2)
  shrinks : ∀ a ∈ log, a.world.guest.Shrinks w.guest

/-- At first nothing is recorded. -/
theorem chronicle_nil {w : Scene} (h : w.ledger.ids = []) : Chronicle [] w where
  ids := h
  objects x hx := by cases hx
  shrinks a ha := by cases ha

namespace Chronicle

variable {log : List (Asked Stage)} {w w' : Scene}

/-- What was handed out before stays true. -/
private theorem objects_of_shrinks (c : Chronicle log w) (h : w.guest.Shrinks w'.guest)
    {x : Nat × Object} (hx : x ∈ exportsIn log) : x.1 ≤ w'.guest.lastId ∧
      (w'.guest.object? x.1 = none ∨ w'.guest.object? x.1 = some x.2) := by
  obtain ⟨hle, hobject⟩ := c.objects x hx
  refine ⟨Nat.le_trans hle h.1, ?_⟩
  rcases h.2 x.1 hle with hgone | hsame
  · exact .inl hgone
  · rw [hsame]
    exact hobject

/-- What hands nothing out need not be recorded. -/
theorem quiet (c : Chronicle log w) (h : Quiet w w') : Chronicle log w' where
  ids := by rw [h.ids, c.ids]
  objects _ hx := c.objects_of_shrinks h.shrinks hx
  shrinks a ha := (c.shrinks a ha).trans h.shrinks

/-- A request that is answered is recorded. -/
theorem answered {r : Request} (c : Chronicle log w) (h : Later w w' (w.exportsOf r)) :
    Chronicle (log ++ [⟨r, w⟩]) w' where
  ids := by
    rw [h.ids, c.ids]
    simp [exportsIn]
  objects x hx := by
    simp only [exportsIn, List.flatMap_append, List.flatMap_singleton, List.mem_append] at hx
    rcases hx with hx | hx
    · exact c.objects_of_shrinks h.shrinks hx
    · exact (h.new x hx).2
  shrinks a ha := by
    rcases List.mem_append.1 ha with ha | ha
    · exact (c.shrinks a ha).trans h.shrinks
    · obtain rfl := List.mem_singleton.1 ha
      exact h.shrinks

end Chronicle

/-- Play a line of a script beside recorded requests. -/
def playRecorded (line : Line) (w : World (Stage × List (Asked Stage))) :
    World (Stage × List (Asked Stage)) :=
  let scene := Scene.play (w.map Prod.fst) line
  ⟨(scene.guest, w.guest.2), scene.ledger⟩

/-- A rehearsal with its recorded requests is in order: so are its scene and its chronicle,
and so they were whenever a request was asked. -/
structure Recorded (w : World (Stage × List (Asked Stage))) (hs : List Handle) : Prop where
  sound : Sound (w.map Prod.fst) hs []
  chronicle : Chronicle w.guest.2 (w.map Prod.fst)
  asked : ∀ n a, w.guest.2[n]? = some a →
    (∃ held, Sound a.world held [] ∧ Handle.Borrowed held a.request.handles) ∧
      Chronicle (w.guest.2.take n) a.world

namespace Recorded

variable {w : World (Stage × List (Asked Stage))} {hs : List Handle} {h : Handle}

/-- Something happens that hands nothing out. -/
private theorem quiet {hs' : List Handle} {stage : Stage} {l : Ledger} (r : Recorded w hs)
    (hsound : Sound ⟨stage, l⟩ hs' []) (hquiet : Quiet (w.map Prod.fst) ⟨stage, l⟩) :
    Recorded ⟨(stage, w.guest.2), l⟩ hs' :=
  ⟨hsound, r.chronicle.quiet hquiet, r.asked⟩

/-- The order of the handles does not matter. -/
theorem perm {hs' : List Handle} (r : Recorded w hs) (hp : hs.Perm hs') : Recorded w hs' :=
  ⟨r.sound.perm hp, r.chronicle, r.asked⟩

/-- Another copy of a handle is held. -/
theorem retain (r : Recorded w hs) (hb : Handle.Borrowed hs [h]) :
    Recorded { w with ledger := w.ledger.retainHandle h } (h :: hs) :=
  r.quiet (r.sound.retain (hb.mono (List.subset_append_left _ _)))
    ⟨.refl _, Ledger.ids_retainHandle _ _⟩

/-- A copy of a handle is dropped. -/
theorem drop (r : Recorded w (h :: hs)) :
    Recorded { w with ledger := w.ledger.dropHandle h } hs := by
  have ha : w.ledger.Accounts (h :: (hs ++ w.guest.1.kept)) := r.sound.books.accounts
  exact r.quiet r.sound.drop ⟨.refl _, ha.ids_dropHandle⟩

/-- The rehearsal starts, or refuses to. -/
theorem start (r : Recorded w hs) :
    Recorded { w with guest := (interpreter.recorded.start w.guest).2 }
      (Failure.shownBy (fun _ ↦ []) (interpreter.recorded.start w.guest).1 ++ hs) := by
  refine r.quiet r.sound.start ⟨?_, rfl⟩
  show w.guest.1.Shrinks w.guest.1.start.2
  unfold Stage.start
  split <;> exact .refl _

/-- A line of a script is played. -/
theorem play {line : Line} (r : Recorded w hs) (hb : Handle.Borrowed hs line.handles) :
    Recorded (playRecorded line w) hs := by
  obtain ⟨hsound, hquiet⟩ := r.sound.play hb
  exact r.quiet hsound hquiet

/-- A request is answered and recorded. -/
theorem answer {q : Request} (r : Recorded w hs) (hb : Handle.Borrowed hs q.handles) :
    Recorded (interpreter.recorded.answer q w).2
      (Failure.shownBy Value.handles (interpreter.recorded.answer q w).1 ++ hs) := by
  refine ⟨(r.sound.answer hb).1, r.chronicle.answered (r.sound.later_answer hb),
    fun n a ha ↦ ?_⟩
  have ha : (w.guest.2 ++ [Asked.mk q (w.map Prod.fst)])[n]? = some a := ha
  show _ ∧ Chronicle ((w.guest.2 ++ [Asked.mk q (w.map Prod.fst)]).take n) a.world
  rcases Nat.lt_trichotomy n w.guest.2.length with hlt | heq | hgt
  · rw [List.getElem?_append_left hlt] at ha
    rw [List.take_append_of_le_length (Nat.le_of_lt hlt)]
    exact r.asked n a ha
  · subst heq
    obtain rfl : Asked.mk q (w.map Prod.fst) = a := by simpa using ha
    rw [List.take_left]
    exact ⟨⟨hs, r.sound, hb⟩, r.chronicle⟩
  · rw [List.getElem?_eq_none (by simp; omega)] at ha
    cases ha

/-- The handles of a rehearsal that records its requests are in custody. -/
def custody : Custody interpreter.recorded where
  Sound := Recorded
  perm := perm
  retain := retain
  drop := drop
  start := start
  answer := answer

end Recorded

end GuestBridge.Rehearsal
