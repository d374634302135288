import GuestBridge.Proofs.Rehearsal.Chronicle

/-!
# The lifetime of handles

What happens in a rehearsed session: commands are carried out, lines of a script are played,
and the host keeps failures, and values that it puts together from copies of handles that it
holds. Whatever happens in whatever order, an id that was handed out shows its object as long as
a copy of its handle is held anywhere, and the first request after the last copy was dropped
forgets it.
-/

namespace GuestBridge.Rehearsal

/-- What happens in a rehearsed session. -/
inductive Event where
  /-- A command is carried out. -/
  | command (c : Command)
  /-- A query is carried out, and if it fails then the host keeps what the failure holds. -/
  | attempt (q : Query) (slot : String)
  /-- A line of a script is played. -/
  | script (line : Line)
  /-- The host keeps a value put together from copies of what it holds. -/
  | hold (slot : String) (v : Value)

/-- The handles that an event names. -/
def Event.handles : Event → List Handle
  | .command c => c.handles
  | .attempt q _ => q.handles
  | .script line => line.handles
  | .hold _ v => v.handles

/-- A session that begins, with the capacities of its caches; it may have been started. -/
def opening {σ : Type} (guest : σ) (expressionCapacity functionCapacity : Nat) (ready : Bool) :
    Session σ :=
  .ofBridge { Bridge.fresh guest expressionCapacity functionCapacity with ready }

/-- Carry out a query, drop its value, and keep what its failure holds. -/
def attempt {σ : Type} (i : Interpreter σ) (s : Session σ) (q : Query) (slot : String) :
    Session σ :=
  match s.ask i q with
  | some (.ok v, s) => s.keep none v
  | some (.error e, s) => s.keep (some slot) (.tuple e.values)
  | none => s

/-- One event. The host can only name owned handles that it holds itself. -/
def follow {σ : Type} (i : Interpreter σ) (play : Line → World σ → World σ) (s : Session σ)
    (e : Event) : Session σ :=
  if Handle.Borrowed (Value.handlesAll s.values.toList) e.handles then
    match e with
    | .command c => (s.step i c).2
    | .attempt q slot => attempt i s q slot
    | .script line => { s with bridge.toWorld := play line s.bridge.toWorld }
    | .hold slot v => Session.keep { s with bridge := s.bridge.retain v } (some slot) v
  else s

/-- A rehearsed session after some events. -/
def rehearse (s : Session Stage) (events : List Event) : Session Stage :=
  events.foldl (follow interpreter fun line w ↦ Scene.play w line) s

/-- A rehearsed session after some events, with the requests recorded. -/
def rehearseRecorded (s : Session (Stage × List (Asked Stage))) (events : List Event) :
    Session (Stage × List (Asked Stage)) :=
  events.foldl (follow interpreter.recorded playRecorded) s

/-- Recording requests changes nothing. -/
theorem rehearseRecorded_map (s : Session (Stage × List (Asked Stage))) (events : List Event) :
    (rehearseRecorded s events).map Prod.fst = rehearse (s.map Prod.fst) events := by
  induction events generalizing s with
  | nil => rfl
  | cons e events ih =>
    rw [rehearseRecorded, List.foldl_cons, ← rehearseRecorded, ih, rehearse, rehearse,
      List.foldl_cons]
    congr 1
    unfold follow
    rw [show (s.map Prod.fst).values = s.values from rfl]
    split
    · cases e with
      | command c =>
        have hstep := interpreter.recorded_shows.step s c
        simp only [hstep]
      | attempt q slot =>
        simp only [attempt, interpreter.recorded_shows.askSession]
        rcases s.ask interpreter.recorded q with _ | ⟨_ | _, _⟩ <;> rfl
      | script line => rfl
      | hold slot v => rfl
    · rfl

/-- What a failure holds can be kept. -/
theorem keepsAll_attempt {σ : Type} {i : Interpreter σ} {c : Custody i} {s : Session σ}
    {q : Query} (slot : String) (h : c.KeepsAll s [])
    (hb : Handle.Borrowed (Value.handlesAll s.values.toList) q.handles) :
    c.KeepsAll (attempt i s q slot) [] := by
  have hask := fun o ho ↦ Custody.KeepsAll.ask (o := o) h hb ho
  unfold attempt
  cases ho : s.ask i q with
  | none => exact h
  | some o =>
    have hs' := hask o ho
    rcases o with ⟨e | v, s'⟩
    · exact Custody.KeepsAll.keep hs'
    · exact Custody.KeepsAll.keep hs'

/-- Every event leaves the handles in custody, if playing a line of a script does. -/
theorem keepsAll_follow {σ : Type} {i : Interpreter σ} {c : Custody i}
    {play : Line → World σ → World σ} {s : Session σ} (e : Event)
    (hplay : ∀ line w hs, c.Sound w hs → Handle.Borrowed hs line.handles →
      c.Sound (play line w) hs) (h : c.KeepsAll s []) : c.KeepsAll (follow i play s e) [] := by
  unfold follow
  split
  · next hb =>
    have hheld : Handle.Borrowed (s.handles ++ s.bridge.cached) e.handles :=
      hb.mono (List.subset_append_of_subset_left _ (List.subset_append_left _ _))
    cases e with
    | command command => exact h.step hb
    | attempt q slot => exact keepsAll_attempt slot h hb
    | script line =>
      have hplayed := hplay line s.bridge.toWorld _ h.keeps.sound hheld
      exact ⟨⟨hplayed, h.keeps.expressions, h.keeps.functions⟩, h.values, h.functions,
        h.modules, h.members⟩
    | hold slot v =>
      apply Custody.KeepsAll.keep
      exact ⟨h.keeps.retain hheld, h.values, h.functions, h.modules, h.members⟩
  · exact h

/-- Any number of events leaves the handles in custody. -/
theorem keepsAll_events {σ : Type} {i : Interpreter σ} {c : Custody i}
    {play : Line → World σ → World σ} {s : Session σ} (events : List Event)
    (hplay : ∀ line w hs, c.Sound w hs → Handle.Borrowed hs line.handles →
      c.Sound (play line w) hs) (h : c.KeepsAll s []) :
    c.KeepsAll (events.foldl (follow i play) s) [] := by
  induction events generalizing s with
  | nil => exact h
  | cons e events ih => exact ih (keepsAll_follow e hplay h)

/-- A session that begins has nothing in custody. -/
theorem keepsAll_opening {σ : Type} {i : Interpreter σ} {c : Custody i} {guest : σ}
    (h : c.Sound ⟨guest, Ledger.empty⟩ []) (expressionCapacity functionCapacity : Nat)
    (ready : Bool) :
    c.KeepsAll (opening guest expressionCapacity functionCapacity ready) [] where
  keeps := ⟨h, Recency.wf_empty _, Recency.wf_empty _⟩
  values := Slots.wf_empty
  functions := Slots.wf_empty
  modules := Slots.wf_empty
  members m hm := by simp [opening, Session.ofBridge, Slots.empty, Slots.toList] at hm

/-- Any number of events leaves the handles of a session that records its requests in
custody. -/
theorem keepsAll_rehearseRecorded (refusals : List (Option String))
    (expressionCapacity functionCapacity : Nat) (ready : Bool) (events : List Event) :
    Recorded.custody.KeepsAll (rehearseRecorded
      (opening (Stage.bare refusals, []) expressionCapacity functionCapacity ready) events) [] := by
  have hbare : Recorded ⟨(Stage.bare refusals, []), Ledger.empty⟩ [] :=
    ⟨Sound.bare refusals, chronicle_nil rfl, by simp⟩
  exact keepsAll_events events (fun _ _ _ hs hb ↦ Recorded.play hs hb)
    (keepsAll_opening hbare _ _ _)

/-! ### What the chronicle tells -/

/-- All handles held anywhere: in slots, by functions and modules, in the caches, and by the
script and the objects of the rehearsal. -/
def everywhere (s : Session Stage) : List Handle :=
  (s.handles ++ s.bridge.cached) ++ s.bridge.guest.kept

/-- When a request has begun in a scene, after some recorded requests: the table holds exactly
the objects that were never handed out, and those that were handed out and of whose handles
copies are held. -/
structure Begun (log : List (Asked Stage)) (w : Scene) : Prop where
  table : ∀ id, (w.begin.guest.object? id).isSome ↔
    (0 < id ∧ id ≤ w.guest.lastId ∧ id ∉ (exportsIn log).map Prod.fst) ∨
      ∃ o ∈ w.ledger.owners, o.id = id ∧ 0 < o.copies
  objects : ∀ x ∈ exportsIn log, ∀ o, w.begin.guest.object? x.1 = some o → o = x.2
  forgotten : ∀ id, w.begin.guest.object? id =
    if id ∈ w.ledger.pending then none else w.guest.object? id

/-- When a request has been answered in a scene, after some recorded requests. -/
structure Leaves (log : List (Asked Stage)) (r : Request) (w w' : Scene) : Prop where
  /-- It has begun, and from then on objects were only added. -/
  begun : w.begin.guest.Grows w'.guest
  /-- So of the objects that it found exactly those are gone whose ids were waiting. -/
  forgotten : ∀ id ≤ w.guest.lastId, w'.guest.object? id =
    if id ∈ w.ledger.pending then none else w.guest.object? id
  /-- No id is left waiting. -/
  settled : w'.ledger.pending = []
  /-- What was handed out in answer is there, under new ids. -/
  handedOut : ∀ x ∈ w.exportsOf r, w.guest.lastId < x.1 ∧ w'.guest.object? x.1 = some x.2
  /-- The table holds exactly the objects that were never handed out, and those that were handed
  out and of whose handles copies are held. -/
  table : ∀ id, (w'.guest.object? id).isSome ↔
    (0 < id ∧ id ≤ w'.guest.lastId ∧ id ∉ (exportsIn (log ++ [⟨r, w⟩])).map Prod.fst) ∨
      ∃ o ∈ w'.ledger.owners, o.id = id ∧ 0 < o.copies

/-- An owner has copies exactly if its id is shown by a handle that is held. -/
theorem exists_owner_iff {l : Ledger} {held : List Handle} {present : Nat → Bool}
    {due : List Nat} (b : Books l held present due) (id : Nat) :
    (∃ o ∈ l.owners, o.id = id ∧ 0 < o.copies) ↔ Handle.LiveIn held id := by
  constructor
  · rintro ⟨o, ho, rfl, hpos⟩
    obtain ⟨n, hn⟩ := List.getElem?_of_mem ho
    rw [b.accounts.copies n o hn] at hpos
    obtain ⟨h, hm, howner⟩ := Ledger.copiesIn_pos_iff.1 hpos
    have hid := b.accounts.owned h hm n howner
    rw [Ledger.ids, List.getElem?_map, hn] at hid
    exact ⟨h, hm, by simp [howner], by simpa [eq_comm] using hid⟩
  · rintro ⟨h, hm, hne, rfl⟩
    obtain ⟨n, hn⟩ := Option.ne_none_iff_exists'.1 hne
    have hid := b.accounts.owned h hm n hn
    rw [Ledger.ids, List.getElem?_map, Option.map_eq_some_iff] at hid
    obtain ⟨o, ho, hoid⟩ := hid
    have hpos : 0 < Ledger.copiesIn n held := Ledger.copiesIn_pos_iff.2 ⟨h, hm, hn⟩
    exact ⟨o, List.mem_of_getElem? ho, hoid, by rwa [b.accounts.copies n o ho]⟩

/-- What the table holds when a request has begun. -/
theorem begun {w : Scene} {hs : List Handle} {log : List (Asked Stage)} (s : Sound w hs [])
    (c : Chronicle log w) : Begun log w where
  forgotten := s.object?_begin
  objects x hx o ho := by
    rw [s.object?_begin] at ho
    split at ho
    · cases ho
    · rcases (c.objects x hx).2 with hgone | hsame
      · rw [hgone] at ho
        cases ho
      · rw [hsame] at ho
        exact (Option.some.inj ho).symm
  table id := by
    rw [s.object?_begin, exists_owner_iff s.books, ← c.ids]
    by_cases hid : id ∈ w.ledger.ids
    · have htable := s.books.table id hid
      have hwaiting := s.books.waiting id
      rw [List.nil_append] at htable hwaiting
      split
      · next hw => simp [hid, (hwaiting hw).2]
      · next hw =>
        rw [htable]
        simp [hid, hw]
    · have hnot : id ∉ w.ledger.pending := fun hw ↦
        hid (s.books.waiting id (by simpa using hw)).1
      have hdead : ¬ Handle.LiveIn (hs ++ w.guest.kept) id := by
        rintro ⟨h, hm, hne, rfl⟩
        exact hid (s.books.mem_ids hm hne)
      rw [if_neg hnot]
      simp only [hid, not_false_eq_true, and_true, hdead, or_false, Option.isSome_iff_ne_none]
      exact ⟨s.table.given id, fun h ↦ s.table.permanent id h.1 h.2 hid⟩

/-- What an answered request leaves. -/
theorem leaves {w : Scene} {hs : List Handle} {log : List (Asked Stage)} {r : Request}
    (s : Sound w hs []) (c : Chronicle log w) (hb : Handle.Borrowed hs r.handles) :
    Leaves log r w (w.answer r).2 := by
  obtain ⟨hsound, hextends⟩ := s.answer hb
  have hlater := s.later_answer hb
  have hsettled : (w.answer r).2.ledger.pending = [] := hextends.pending.trans s.pending_begin
  have hnext := begun hsound (c.answered hlater)
  refine ⟨hextends.grows, fun id hid ↦ ?_, hsettled, fun x hx ↦ ?_, fun id ↦ ?_⟩
  · have hbegun := hextends.grows.object? id (Nat.le_trans hid s.quiet_begin.shrinks.1)
    rw [hbegun, s.object?_begin]
  · exact ⟨(hlater.new x hx).1, (hextends.new x hx).2⟩
  -- With no id waiting, the next request would forget nothing.
  · have hsame := hnext.forgotten id
    rw [hsettled, if_neg List.not_mem_nil] at hsame
    rw [← hsame]
    exact hnext.table id

/-- An answered request leaves an object that was handed out before exactly if it is shown by a
handle that is held. -/
theorem remains_iff {w : Scene} {hs : List Handle} {log : List (Asked Stage)} {r : Request}
    {id : Nat} (s : Sound w hs []) (c : Chronicle log w) (hb : Handle.Borrowed hs r.handles)
    (hid : id ∈ w.ledger.ids) :
    ((w.answer r).2.guest.object? id).isSome ↔ Handle.LiveIn (hs ++ w.guest.kept) id := by
  have hpresent := s.books.table id hid
  have hwaiting := s.books.waiting id
  rw [List.nil_append] at hpresent hwaiting
  rw [(leaves s c hb).forgotten id (s.table.issued id hid).2]
  split
  · next hw => simp [(hwaiting hw).2]
  · next hw => simpa [hw] using hpresent

/-- The life of the handles that were handed out in a session, whose requests are recorded. -/
structure Lifetime (s : Session Stage) (log : List (Asked Stage)) : Prop where
  /-- The handles handed out have one owner each, in order, which counts the copies that are
  held anywhere. -/
  owners : s.bridge.ledger.ids = (exportsIn log).map Prod.fst
  counted : ∀ n o, s.bridge.ledger.owners[n]? = some o →
    o.copies = Ledger.copiesIn n (everywhere s)
  /-- A handle that is held anywhere shows the object for which it was handed out. -/
  resolves : ∀ h ∈ everywhere s, ∀ n, h.owner = some n →
    ∃ o, (exportsIn log)[n]? = some (h.id, o) ∧ s.bridge.guest.object? h.id = some o
  /-- Between requests an id that was handed out is there as long as a copy of its handle is
  held, and from then on until it is released; it does not wait before. -/
  present : ∀ id ∈ (exportsIn log).map Prod.fst, (s.bridge.guest.object? id).isSome ↔
    Handle.LiveIn (everywhere s) id ∨ id ∈ s.bridge.ledger.pending
  waiting : ∀ id ∈ s.bridge.ledger.pending, ¬ Handle.LiveIn (everywhere s) id
  /-- Every request finds exactly what has to be there, and leaves exactly what has to be
  there. -/
  requests : ∀ n a, log[n]? = some a → Begun (log.take n) a.world ∧
    Leaves (log.take n) a.request a.world (interpreter.answer a.request a.world).2
  /-- So will the next one, whatever it is. Of what was handed out before, it leaves what is
  shown by a handle that is held anywhere, and forgets the rest. -/
  next : Begun log s.bridge.toWorld
  leaves : ∀ r : Request, Handle.Borrowed (s.handles ++ s.bridge.cached) r.handles →
    Leaves log r s.bridge.toWorld (interpreter.answer r s.bridge.toWorld).2
  forgets : ∀ r : Request, Handle.Borrowed (s.handles ++ s.bridge.cached) r.handles →
    ∀ id ∈ (exportsIn log).map Prod.fst,
      ((interpreter.answer r s.bridge.toWorld).2.guest.object? id).isSome ↔
        Handle.LiveIn (everywhere s) id
  /-- No object ever changes. -/
  unchanged : ∀ a ∈ log, a.world.guest.Shrinks s.bridge.guest
  /-- No id is given out twice. -/
  increasing : ((exportsIn log).map Prod.fst).Pairwise (· < ·)
  fresh : ∀ a ∈ log, ∀ x ∈ Scene.exportsOf a.world a.request, a.world.guest.lastId < x.1
  /-- The counters count what was handed out and what of it is gone. -/
  exported : s.bridge.guest.exported = (exportsIn log).length
  released : s.bridge.guest.released ≤ s.bridge.guest.exported
  live : s.bridge.guest.live =
    (exportsIn log).countP fun x ↦ (s.bridge.guest.object? x.1).isSome

/-- The difference of the counters counts the ids that are still there. -/
private theorem live_eq {s : Stage} {xs : List (Nat × Object)}
    (t : s.Table (xs.map Prod.fst)) :
    s.released ≤ s.exported ∧ s.live = xs.countP fun x ↦ (s.object? x.1).isSome := by
  have hsplit := List.length_eq_countP_add_countP (fun x ↦ (s.object? x.1).isSome) (l := xs)
  have hreleased : s.released = xs.countP fun x ↦ !(s.object? x.1).isSome := by
    rw [t.released, List.countP_map]
    rfl
  have hexported : s.exported = xs.length := by rw [t.exported, List.length_map]
  have hnot : (xs.countP fun x ↦ decide ¬(s.object? x.1).isSome = true) =
      xs.countP fun x ↦ !(s.object? x.1).isSome := by
    apply List.countP_congr
    intro x _
    simp
  rw [hnot] at hsplit
  unfold Stage.live
  omega

/-- Handles live as long as copies of them are held, in every session in order. -/
theorem lifetime_of_keepsAll {s : Session (Stage × List (Asked Stage))}
    (h : Recorded.custody.KeepsAll s []) : Lifetime (s.map Prod.fst) s.bridge.guest.2 := by
  have hr : Recorded s.bridge.toWorld (s.handles ++ s.bridge.cached) := h.keeps.sound
  have hbooks := hr.sound.books
  have hids : s.bridge.ledger.ids = (exportsIn s.bridge.guest.2).map Prod.fst := hr.chronicle.ids
  have htable : s.bridge.guest.1.Table ((exportsIn s.bridge.guest.2).map Prod.fst) :=
    hids ▸ hr.sound.table
  obtain ⟨hreleased, hlive⟩ := live_eq htable
  constructor
  · exact hids
  · exact hbooks.accounts.copies
  · intro k hk n hn
    have howned : s.bridge.ledger.ids[n]? = some k.id := hbooks.accounts.owned k hk n hn
    rw [hids, List.getElem?_map, Option.map_eq_some_iff] at howned
    obtain ⟨x, hx, hxid⟩ := howned
    have hpresent := hbooks.present_of_mem hk (by simp [hn])
    obtain ⟨-, hobject⟩ := hr.chronicle.objects x (List.mem_of_getElem? hx)
    rw [hxid] at hobject
    rcases hobject with hgone | hsame
    · rw [hgone] at hpresent
      cases hpresent
    · exact ⟨x.2, by rw [hx, ← hxid], hsame⟩
  · intro id hid
    exact hbooks.table id (hr.chronicle.ids ▸ hid)
  · exact fun id hid ↦ (hbooks.waiting id hid).2
  · intro n a ha
    obtain ⟨⟨held, hsound, hb⟩, hchronicle⟩ := hr.asked n a ha
    exact ⟨begun hsound hchronicle, leaves hsound hchronicle hb⟩
  · exact begun hr.sound hr.chronicle
  · exact fun r hb ↦ leaves hr.sound hr.chronicle hb
  · exact fun r hb id hid ↦ remains_iff hr.sound hr.chronicle hb (hr.chronicle.ids ▸ hid)
  · exact hr.chronicle.shrinks
  · exact hids ▸ hbooks.increasing
  · intro a ha x hx
    obtain ⟨n, hn⟩ := List.getElem?_of_mem ha
    obtain ⟨⟨held, hsound, hb⟩, -⟩ := hr.asked n a hn
    exact ((hsound.later_answer hb).new x hx).1
  · exact htable.exported.trans (List.length_map _)
  · exact hreleased
  · exact hlive

/-- In every run of a rehearsed session handles live as long as copies of them are held. -/
theorem handle_lifetime (refusals : List (Option String))
    (expressionCapacity functionCapacity : Nat) (ready : Bool) (events : List Event) :
    let recorded := rehearseRecorded
      (opening (Stage.bare refusals, []) expressionCapacity functionCapacity ready) events
    let s := rehearse (opening (Stage.bare refusals) expressionCapacity functionCapacity ready)
      events
    recorded.map Prod.fst = s ∧ Lifetime s recorded.bridge.guest.2 := by
  intro recorded s
  have hsame : recorded.map Prod.fst = s := rehearseRecorded_map _ events
  have hkeeps : Recorded.custody.KeepsAll recorded [] :=
    keepsAll_rehearseRecorded refusals _ _ ready events
  exact ⟨hsame, hsame ▸ lifetime_of_keepsAll hkeeps⟩

end GuestBridge.Rehearsal
