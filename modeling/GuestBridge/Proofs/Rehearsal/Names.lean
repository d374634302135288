import GuestBridge.Proofs.Rehearsal.Lifetime

/-!
# Names of a rehearsal

The functions that a rehearsal knows by name stay what they are: their objects were never
handed out, so they are never forgotten, and only a definition changes what a name stands for.
Whatever holds of a rehearsal and goes on to hold when objects are forgotten, added and handed
out holds in every rehearsed session.
-/

namespace GuestBridge.Rehearsal

variable {w w' w'' : Scene} {hs hs' : List Handle} {due : List Nat} {h : Handle}
  {xs : List (Nat × Object)}

/-! ### What requests leave alone -/

/-- What was scripted, and what names stand for, is the same. -/
structure Stage.SameScript (s s' : Stage) : Prop where
  bodies : s'.bodies = s.bodies
  expressions : s'.expressions = s.expressions
  packages : s'.packages = s.packages
  moduleObjects : s'.moduleObjects = s.moduleObjects
  globals : s'.globals = s.globals

/-- Nothing changes at once. -/
theorem Stage.SameScript.refl (s : Stage) : s.SameScript s := ⟨rfl, rfl, rfl, rfl, rfl⟩

/-- What changes in two steps. -/
theorem Stage.SameScript.trans {s t u : Stage} (h : s.SameScript t) (h' : t.SameScript u) :
    s.SameScript u :=
  ⟨h'.bodies.trans h.bodies, h'.expressions.trans h.expressions, h'.packages.trans h.packages,
    h'.moduleObjects.trans h.moduleObjects, h'.globals.trans h.globals⟩

/-- Forgetting objects leaves the script alone. -/
theorem sameScript_forget (ids : List Nat) (w : Scene) :
    w.guest.SameScript (ids.foldl Scene.forget w).guest := by
  induction ids generalizing w with
  | nil => exact .refl _
  | cons id ids ih =>
    have hfirst : w.guest.SameScript (w.forget id).guest := by
      unfold Scene.forget
      split
      · exact ⟨rfl, rfl, rfl, rfl, rfl⟩
      · exact .refl _
    exact hfirst.trans (ih _)

/-- A request that begins leaves the script alone. -/
theorem sameScript_begin (w : Scene) : w.guest.SameScript w.begin.guest :=
  sameScript_forget w.ledger.take.1 { w with ledger := w.ledger.take.2 }

/-- A code is about to be evaluated: the request has begun, and the code is noted. -/
def Scene.evaluating (w : Scene) (code : String) : Scene :=
  w.begin.onStage fun s ↦ { s with evals := s.evals + 1, evaluated := s.evaluated ++ [code] }

/-- A code that is about to be evaluated leaves the script alone. -/
theorem sameScript_evaluating (w : Scene) (code : String) :
    w.guest.SameScript (w.evaluating code).guest :=
  (sameScript_begin w).trans ⟨rfl, rfl, rfl, rfl, rfl⟩

/-- A code is about to be evaluated. -/
theorem Sound.evaluating (s : Sound w hs []) (code : String) :
    Sound (w.evaluating code) hs [] ∧ Quiet w (w.evaluating code) :=
  ⟨s.beginRequest.note _ _ _ _ _ _ _, s.quiet_begin.shrinks, s.quiet_begin.ids⟩

/-- Handing a handle out leaves the script alone. -/
theorem sameScript_handOut (w : Scene) (h : Handle) :
    w.guest.SameScript (w.handOut h).2.guest := by
  unfold Scene.handOut
  split
  · exact ⟨rfl, rfl, rfl, rfl, rfl⟩
  · exact .refl _

/-- Handing handles out leaves the script alone. -/
theorem sameScript_handOutEach (hs : List Handle) (w : Scene) :
    w.guest.SameScript (w.handOutEach hs).2.guest := by
  induction hs generalizing w with
  | nil => exact .refl _
  | cons h hs ih => exact (sameScript_handOut w h).trans (ih _)

/-- Answering leaves the script alone. -/
theorem sameScript_reply (result : Except Failure Value) (w : Scene) :
    w.guest.SameScript (w.reply result).2.guest := by
  cases result with
  | error e => exact .refl _
  | ok v =>
    simp only [Scene.reply, (Scene.handOutValue_eq v w).2]
    exact sameScript_handOutEach v.handles w

/-! ### Names stay what they are -/

/-- A handle shows a function that was never handed out. -/
structure Anchored (w : Scene) (h : Handle) : Prop where
  notMem : h.id ∉ w.ledger.ids
  function : ∃ f, w.guest.object? h.id = some (.function f)

/-- What was never handed out is never forgotten. -/
theorem Anchored.object? (a : Anchored w h) (s : Sound w hs due) (s' : Sound w' hs' due)
    (l : Later w w' xs) : w'.guest.object? h.id = w.guest.object? h.id := by
  obtain ⟨f, hf⟩ := a.function
  obtain ⟨hpos, hle⟩ := s.table.given h.id (by simp [hf])
  have hids : h.id ∉ w'.ledger.ids := by
    rw [l.ids, List.mem_append, not_or]
    refine ⟨a.notMem, fun hmem ↦ ?_⟩
    obtain ⟨x, hx, hxid⟩ := List.mem_map.1 hmem
    have hnew := (l.new x hx).1
    omega
  have hthere := s'.table.permanent h.id hpos (Nat.le_trans hle l.shrinks.1) hids
  exact (l.shrinks.2 h.id hle).resolve_left hthere

/-- What was never handed out stays what it is. -/
theorem Anchored.later (a : Anchored w h) (s : Sound w hs due) (s' : Sound w' hs' due)
    (l : Later w w' xs) : Anchored w' h where
  notMem := by
    obtain ⟨f, hf⟩ := a.function
    have hgiven := s.table.given h.id (by simp [hf])
    rw [l.ids, List.mem_append, not_or]
    refine ⟨a.notMem, fun hmem ↦ ?_⟩
    obtain ⟨x, hx, hxid⟩ := List.mem_map.1 hmem
    have hnew := (l.new x hx).1
    omega
  function := by
    rw [a.object? s s' l]
    exact a.function

/-- One scene comes after another: objects are forgotten, stored and handed out, and what a
name stands for is what some name stood for before, or a function that is new. -/
structure Advances (w w' : Scene) : Prop where
  later : ∃ xs, Later w w' xs
  named : ∀ h ∈ w'.guest.globals.toList, h ∈ w.guest.globals.toList ∨ Anchored w' h

/-- A scene comes after another one with the same names. -/
theorem Later.advances (l : Later w w' xs) (hg : w'.guest.globals = w.guest.globals) :
    Advances w w' :=
  ⟨⟨xs, l⟩, fun _ hm ↦ .inl (hg ▸ hm)⟩

/-- A scene comes after another one in two steps, of which the second leaves the names. -/
theorem Advances.trans_later (a : Advances w w') (s : Sound w' hs due) (s' : Sound w'' hs' due)
    (l : Later w' w'' xs) (hg : w''.guest.globals = w'.guest.globals) : Advances w w'' := by
  obtain ⟨ys, hys⟩ := a.later
  refine ⟨⟨_, hys.trans l⟩, fun h hm ↦ ?_⟩
  rcases a.named h (hg ▸ hm) with hold | hnew
  · exact .inl hold
  · exact .inr (hnew.later s s' l)

/-- A scene comes after another one in two steps, of which the first leaves the names. -/
theorem Advances.of_later (l : Later w w' xs) (hg : w'.guest.globals = w.guest.globals)
    (a : Advances w' w'') : Advances w w'' := by
  obtain ⟨ys, hys⟩ := a.later
  exact ⟨⟨_, l.trans hys⟩, fun h hm ↦ hg ▸ a.named h hm⟩

/-- The function that is bound to a name is found there, and was never handed out. -/
theorem Sound.object?_bindFunction (s : Sound w hs due) (name : String) (f : Native) (k : Nat) :
    (w.bindFunction name f).guest.object? k =
      if k = w.guest.lastId + 1 then some (.function f) else w.guest.object? k :=
  (Sound.add_adds w (.function f)).object? s.table.fresh k

/-- Binding a function to a name. -/
theorem Sound.advances_bindFunction (s : Sound w hs due) (name : String) (f : Native) :
    Advances w (w.bindFunction name f) := by
  have hquiet := (s.extends_bindFunction name f).quiet
  refine ⟨⟨[], hquiet.later⟩, fun h hm ↦ ?_⟩
  rcases Slots.mem_toList_put hm with rfl | hold
  · refine .inr ⟨?_, f, ?_⟩
    · rw [hquiet.ids]
      exact s.table.fresh_notMem
    · rw [s.object?_bindFunction]
      exact if_pos rfl
  · exact .inl hold

/-- What a code comes to. -/
theorem Sound.advances_outcome (s : Sound w hs []) (code : String) :
    Advances w (w.outcome code).2 := by
  have hsame : Advances w w := (Quiet.refl w).later.advances rfl
  unfold Scene.outcome
  split
  · exact hsame
  · unfold Scene.run
    split
    · split <;> exact hsame
    · unfold Scene.define
      split
      · exact s.advances_bindFunction _ _
      · exact hsame
    · unfold Scene.defineBatch
      split
      · exact s.advances_bindFunction _ _
      · exact hsame
    · unfold Scene.lookUp
      split
      · exact hsame
      · split
        · refine (s.extends_moduleObject _).later.advances ?_
          unfold Scene.moduleObject
          split <;> rfl
        · exact hsame
    · exact hsame

/-- What a request comes to before it is handed out. -/
theorem Sound.advances_respond {r : Request} (s : Sound w hs [])
    (hb : Handle.Borrowed hs r.handles) : Advances w (w.respond r).2 := by
  have hscript := sameScript_begin w
  have hlater := s.quiet_begin.later.trans (s.respond hb).adds.later
  cases r with
  | eval code =>
    obtain ⟨hsound, hquiet⟩ := s.evaluating code
    exact (hsound.advances_outcome code).of_later hquiet.later
      (sameScript_evaluating w code).globals
  | call callee args =>
    have hglobals : (w.call callee args).2.guest.globals = w.guest.globals := by
      simp only [Scene.call]
      split <;> exact hscript.globals
    exact hlater.advances hglobals
  | getAttr target name =>
    have hglobals : (w.getAttr target name).2.guest.globals = w.guest.globals := by
      simp only [Scene.getAttr]
      split
      · exact hscript.globals
      · split <;> exact hscript.globals
      · exact hscript.globals
    exact hlater.advances hglobals
  | convert type value => exact hlater.advances hscript.globals
  | newModule name =>
    have hglobals : (w.newModule name).2.guest.globals = w.guest.globals := by
      unfold Scene.newModule Scene.addPackage
      split <;> exact hscript.globals
    exact hlater.advances hglobals

/-- The answer to a request. -/
theorem Sound.advances_answer {r : Request} (s : Sound w hs [])
    (hb : Handle.Borrowed hs r.handles) : Advances w (w.answer r).2 := by
  have hresponds := s.respond hb
  have hadvances := s.advances_respond hb
  have hglobals := (sameScript_reply (w.respond r).1 (w.respond r).2).globals
  have hanswer : w.answer r = (w.respond r).2.reply (w.respond r).1 := rfl
  rw [hanswer]
  have hborrowed := hresponds.borrowed
  cases hv : (w.respond r).1 with
  | error e =>
    rw [hv] at hglobals hborrowed
    obtain ⟨hsound, hextends⟩ := hresponds.sound.retainHandles hborrowed
    exact hadvances.trans_later hresponds.sound hsound hextends.later hglobals
  | ok v =>
    rw [hv] at hglobals hborrowed
    obtain ⟨hsound, hextends⟩ := hresponds.sound.handOutValue hborrowed
    exact hadvances.trans_later hresponds.sound hsound hextends.later hglobals

/-- A line of a script. -/
theorem Sound.advances_play {line : Line} (s : Sound w hs due)
    (hb : Handle.Borrowed hs line.handles) : Advances w (w.play line) := by
  refine (s.play hb).2.later.advances ?_
  cases line <;> rfl

/-! ### What goes on to hold -/

/-- What goes on to hold in every scene that comes after one in which it holds. -/
def Persists (P : Scene → Prop) : Prop :=
  ∀ w w' hs hs', Sound w hs [] → Sound w' hs' [] → Advances w w' → P w → P w'

/-- The handles of a rehearsal are in custody, and what goes on to hold does so. -/
def custodyOf (P : Scene → Prop) (hP : Persists P) : Custody interpreter where
  Sound w hs := Sound w hs [] ∧ P w
  perm s hp := ⟨s.1.perm hp, s.2⟩
  retain := by
    rintro w hs h ⟨s, p⟩ hb
    have hs' := s.retain (hb.mono (List.subset_append_left _ _))
    have hquiet : Quiet w { w with ledger := w.ledger.retainHandle h } :=
      ⟨.refl _, Ledger.ids_retainHandle _ _⟩
    exact ⟨hs', hP _ _ _ _ s hs' (hquiet.later.advances rfl) p⟩
  drop := by
    rintro w hs h ⟨s, p⟩
    have ha : w.ledger.Accounts (h :: (hs ++ w.guest.kept)) := s.books.accounts
    have hquiet : Quiet w { w with ledger := w.ledger.dropHandle h } :=
      ⟨.refl _, ha.ids_dropHandle⟩
    exact ⟨s.drop, hP _ _ _ _ s s.drop (hquiet.later.advances rfl) p⟩
  start := by
    rintro w hs ⟨s, p⟩
    have hquiet : Quiet w { w with guest := w.guest.start.2 } := by
      unfold Stage.start
      split <;> exact ⟨.refl _, rfl⟩
    have hglobals : w.guest.start.2.globals = w.guest.globals := by
      unfold Stage.start
      split <;> rfl
    have hadvances : Advances w { w with guest := w.guest.start.2 } :=
      hquiet.later.advances hglobals
    exact ⟨s.start, hP _ _ _ _ s s.start hadvances p⟩
  answer := by
    rintro w hs r ⟨s, p⟩ hb
    have hanswer := (s.answer hb).1
    exact ⟨hanswer, hP _ _ _ _ s hanswer (s.advances_answer hb) p⟩

/-- What holds on a bare stage and goes on to hold holds in every rehearsed session. -/
theorem keepsAll_rehearse {P : Scene → Prop} (hP : Persists P) {s : Session Stage}
    (events : List Event) (h : (custodyOf P hP).KeepsAll s []) :
    (custodyOf P hP).KeepsAll (rehearse s events) [] :=
  keepsAll_events events (fun _ _ _ hs hb ↦
    ⟨(hs.1.play hb).1, hP _ _ _ _ hs.1 (hs.1.play hb).1 (hs.1.advances_play hb) hs.2⟩) h

/-- All names stand for functions that were never handed out. -/
def AllAnchored (w : Scene) : Prop :=
  ∀ h ∈ w.guest.globals.toList, Anchored w h

/-- Names go on to stand for functions that were never handed out. -/
theorem persists_allAnchored : Persists AllAnchored := by
  intro w w' hs hs' s s' a p h hm
  rcases a.named h hm with hold | hnew
  · obtain ⟨xs, hxs⟩ := a.later
    exact (p h hold).later s s' hxs
  · exact hnew

/-- In every rehearsed session the handles are in custody, and all names stand for functions
that were never handed out. -/
theorem keepsAll_anchored (refusals : List (Option String))
    (expressionCapacity functionCapacity : Nat) (ready : Bool) (events : List Event) :
    (custodyOf AllAnchored persists_allAnchored).KeepsAll
      (rehearse (opening (Stage.bare refusals) expressionCapacity functionCapacity ready) events)
      [] := by
  apply keepsAll_rehearse
  have hbare : AllAnchored ⟨Stage.bare refusals, Ledger.empty⟩ := by
    intro h hm
    simp [Stage.bare, Slots.empty, Slots.toList] at hm
  exact keepsAll_opening (c := custodyOf AllAnchored persists_allAnchored)
    ⟨Sound.bare refusals, hbare⟩ _ _ _

end GuestBridge.Rehearsal
