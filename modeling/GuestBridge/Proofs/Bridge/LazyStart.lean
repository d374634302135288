import GuestBridge.Proofs.Bridge.SessionDemand

/-!
# Starting late, and again

An interpreter is started by the first command that needs it. If that fails the command fails
as the start did, nothing else has changed, and the next command that needs the interpreter
tries again. Once it has been started it is never started again, and before that it is not
asked for anything. Commands that need no interpreter do not start one.
-/

namespace GuestBridge

variable {σ : Type}

/-! ### What is seen of an interpreter -/

/-- What happens to an interpreter: it is started, which may fail, and it is asked. -/
inductive Event (σ : Type) where
  | started (result : Except Failure Unit)
  | asked (a : Asked σ)

/-- An interpreter that records everything that happens to it. -/
def Interpreter.watched (i : Interpreter σ) : Interpreter (σ × List (Event σ)) where
  start g := ((i.start g.1).1, (i.start g.1).2, g.2 ++ [.started (i.start g.1).1])
  answer r w :=
    let before : World σ := w.map Prod.fst
    let after := i.answer r before
    (after.1, ⟨(after.2.guest, w.guest.2 ++ [.asked ⟨r, before⟩]), after.2.ledger⟩)

/-- Watching changes nothing. -/
theorem Interpreter.watched_shows (i : Interpreter σ) : i.watched.Shows Prod.fst i where
  start _ := rfl
  answer _ _ := rfl

/-- A session whose interpreter is watched from now on. -/
def Session.watching (s : Session σ) : Session (σ × List (Event σ)) :=
  { bridge :=
      { guest := (s.bridge.guest, []), ledger := s.bridge.ledger, ready := s.bridge.ready
        expressions := s.bridge.expressions, functions := s.bridge.functions }
    names := s.names, values := s.values, functions := s.functions, modules := s.modules }

/-! ### Reports -/

namespace Session

/-- What a command found, what it answered, and what happened to the interpreter. -/
structure Report (σ : Type) where
  command : Command
  found : Session σ
  answer : Except Failure Answer
  left : Session σ
  events : List (Event σ)

/-- Carry out a command and report. -/
def report (i : Interpreter σ) (s : Session σ) (c : Command) : Report σ :=
  let (answer, left) := s.watching.step i.watched c
  ⟨c, s, answer, left.map Prod.fst, left.bridge.guest.2⟩

/-- Carry out one command after the other. -/
def reports (i : Interpreter σ) : List Command → Session σ → List (Report σ)
  | [], _ => []
  | c :: cs, s => s.report i c :: reports i cs (s.report i c).left

namespace Report

variable (i : Interpreter σ) (r : Report σ)

/-- A report tells what the command does. -/
def Faithful : Prop :=
  r.found.step i r.command = (r.answer, r.left)

/-- The interpreter is started if it has to be. -/
structure StartsLazily : Prop where
  /-- A command that does not need the interpreter leaves it alone. -/
  idle : r.command.needs r.found = false →
    r.events = [] ∧ r.left.bridge.ready = r.found.bridge.ready
  /-- An interpreter that has been started is asked. -/
  asks : r.command.needs r.found → r.found.bridge.ready →
    (∃ as : List (Asked σ), as ≠ [] ∧ r.events = as.map .asked) ∧ r.left.bridge.ready
  /-- Another one is started first. -/
  starts : r.command.needs r.found → r.found.bridge.ready = false →
    (i.start r.found.bridge.guest).1 = .ok () →
    (∃ as : List (Asked σ), as ≠ [] ∧ r.events = .started (.ok ()) :: as.map .asked) ∧
      r.left.bridge.ready
  /-- If that fails then so does the command, and all that is dropped is the failure. The bridge
  is not ready, its caches are as they were, and no function is compiled. -/
  refused : r.command.needs r.found → r.found.bridge.ready = false →
    ∀ e g, i.start r.found.bridge.guest = (.error e, g) →
      r.events = [.started (.error e)] ∧ r.answer = .error e ∧
        r.found.Resumes ({ r.found.bridge with guest := g }.dropAll e.values) r.left ∧
          ∀ slot f, r.left.functions.find? slot = some f → f.compiled = none

end Report

/-- What happens to the interpreter through the bridge. -/
def events (rs : List (Report σ)) : List (Event σ) :=
  (rs.filter (·.command.viaBridge)).flatMap (·.events)

end Session

/-- Starts that fail, and then at most one that does not, with all requests behind it. -/
def Event.StartsOnce (es : List (Event σ)) : Prop :=
  ∃ (failures : List Failure) (rest : List (Event σ)),
    es = failures.map (fun e ↦ .started (.error e)) ++ rest ∧
      (rest = [] ∨ ∃ as : List (Asked σ), rest = .started (.ok ()) :: as.map .asked)

namespace Session

variable {i : Interpreter σ} {s : Session σ}

/-! ### One command -/

/-- Watching does not change what needs the interpreter. -/
theorem needs_watching (s : Session σ) (c : Command) : c.needs s.watching = c.needs s := by
  cases c with
  | query q keep => cases q <;> rfl
  | _ => rfl

/-- Watching does not touch a session. -/
theorem Dormant.watching (hs : s.Dormant) : s.watching.Dormant := fun h ↦
  ⟨(hs h).expressions, (hs h).functions, (hs h).uncompiled, (hs h).unopened⟩

/-- Requests are seen behind what was seen before. -/
theorem follows_watched (i : Interpreter σ) (g : σ) (log : List (Event σ)) :
    i.watched.Follows (g, log) fun g' ↦
      ∃ as : List (Asked σ), as ≠ [] ∧ g'.2 = log ++ as.map .asked where
  first r w hw := by
    refine ⟨[⟨r, w.map Prod.fst⟩], List.cons_ne_nil _ _, ?_⟩
    show w.guest.2 ++ _ = _
    rw [hw]
    rfl
  keeps r w h := by
    obtain ⟨as, -, hlog⟩ := h
    refine ⟨as ++ [⟨r, w.map Prod.fst⟩], by simp, ?_⟩
    show w.guest.2 ++ _ = _
    rw [hlog, List.map_append, List.append_assoc]
    rfl

/-- A start that succeeds is seen. -/
theorem require_watching_ok {g : σ} (hready : s.bridge.ready = false)
    (hstart : i.start s.bridge.guest = (.ok (), g)) :
    s.watching.bridge.require i.watched =
      (.ok (), { s.watching.bridge with guest := (g, [.started (.ok ())]), ready := true }) := by
  simp [Bridge.require, watching, Interpreter.watched, hready, hstart]

/-- A start that fails is seen. -/
theorem require_watching_error {e : Failure} {g : σ} (hready : s.bridge.ready = false)
    (hstart : i.start s.bridge.guest = (.error e, g)) :
    s.watching.bridge.require i.watched =
      (.error e, { s.watching.bridge with guest := (g, [.started (.error e)]) }) := by
  simp [Bridge.require, watching, Interpreter.watched, hready, hstart]

/-- A session that is watched resumes as it is shown. -/
theorem Resumes.shown {b : Bridge (σ × List (Event σ))} {s' : Session (σ × List (Event σ))}
    (h : s.watching.Resumes b s') : s.Resumes (b.map Prod.fst) (s'.map Prod.fst) where
  bridge := congrArg (Bridge.map Prod.fst) h.bridge
  names := h.names
  values := h.values
  functions := h.functions
  modules := h.modules

/-- A command starts the interpreter if it has to. -/
theorem report_startsLazily (hs : s.Dormant) (i : Interpreter σ) {c : Command}
    (hvia : c.viaBridge) : (s.report i c).StartsLazily i where
  idle hc := by
    have hrests := step_rests (i := i.watched) ((needs_watching s c).trans hc) hvia
    exact ⟨congrArg Prod.snd hrests.guest, hrests.ready⟩
  asks hc hready := by
    have hbegins := begins_step (i := i.watched) hs.watching ((needs_watching s c).trans hc)
    have hruns := hbegins.reached _ (Bridge.require_ready hready) _ (follows_watched i _ _)
    exact ⟨hruns.guest, hruns.ready⟩
  starts hc hready hstart := by
    have hbegins := begins_step (i := i.watched) hs.watching ((needs_watching s c).trans hc)
    have hrequire := require_watching_ok hready (Prod.ext hstart rfl)
    have hruns := hbegins.reached _ hrequire _ (follows_watched i _ _)
    exact ⟨hruns.guest, hruns.ready⟩
  refused hc hready e g hstart := by
    have hbegins := begins_step (i := i.watched) hs.watching ((needs_watching s c).trans hc)
    have hrequire := require_watching_error hready hstart
    obtain ⟨hanswer, hresumes⟩ := hbegins.refused e _ hrequire
    refine ⟨congrArg (·.guest.2) hresumes.bridge, hanswer, hresumes.shown, fun slot f hf ↦ ?_⟩
    exact (hs hready).uncompiled slot f ((hresumes.functions slot).symm.trans hf)

/-- A report tells what the command does. -/
theorem report_faithful (i : Interpreter σ) (s : Session σ) (c : Command) :
    (s.report i c).Faithful i :=
  i.watched_shows.step s.watching c

/-- A session stays dormant. -/
theorem Dormant.report (hs : s.Dormant) (i : Interpreter σ) (c : Command) :
    (s.report i c).left.Dormant := by
  have hstep := hs.step (i := i) c
  rw [show s.step i c = _ from report_faithful i s c] at hstep
  exact hstep

/-! ### One command after the other -/

/-- What happens through the bridge, one command after the other. -/
theorem events_reports_cons (i : Interpreter σ) (c : Command) (cs : List Command)
    (s : Session σ) :
    events (s.reports i (c :: cs)) =
      (if c.viaBridge then (s.report i c).events else []) ++
        events ((s.report i c).left.reports i cs) := by
  have hcommand : (s.report i c).command = c := rfl
  cases hvia : c.viaBridge <;> simp [events, reports, hcommand, hvia]

/-- A request past the bridge does not start or stop the interpreter. -/
theorem step_direct_ready (i : Interpreter σ) (s : Session σ) (r : Request)
    (keep : Option String) :
    (s.step i (.query (.direct r) keep)).2.bridge.ready = s.bridge.ready := by
  rw [step_query, ask, settle, direct]
  cases (i.answer r s.bridge.toWorld).1 with
  | ok v => cases keep <;> rfl
  | error e => rfl

/-- No command stops an interpreter. -/
theorem report_stays_ready (i : Interpreter σ) (hready : s.bridge.ready = true) (c : Command) :
    (s.report i c).left.bridge.ready = true :=
  step_stays_ready (s := s.watching) hready c

/-- An interpreter that has been started is only asked. -/
theorem Report.StartsLazily.asked {r : Report σ} (h : r.StartsLazily i)
    (hready : r.found.bridge.ready = true) : ∃ as : List (Asked σ), r.events = as.map .asked := by
  cases hneeds : r.command.needs r.found with
  | false => exact ⟨[], (h.idle hneeds).1⟩
  | true =>
    obtain ⟨⟨as, -, has⟩, -⟩ := h.asks hneeds hready
    exact ⟨as, has⟩

/-- An interpreter that has been started is only asked, whatever is done. -/
theorem reports_ready (i : Interpreter σ) (cs : List Command) (hs : s.Dormant)
    (hready : s.bridge.ready = true) :
    ∃ as : List (Asked σ), events (s.reports i cs) = as.map .asked := by
  induction cs generalizing s with
  | nil => exact ⟨[], rfl⟩
  | cons c cs ih =>
    obtain ⟨rest, hrest⟩ := ih (hs.report i c) (report_stays_ready i hready c)
    rw [events_reports_cons, hrest]
    cases hvia : c.viaBridge with
    | false => exact ⟨rest, rfl⟩
    | true =>
      obtain ⟨as, has⟩ := (report_startsLazily hs i hvia).asked hready
      exact ⟨as ++ rest, by rw [has, List.map_append]; rfl⟩

/-- An interpreter is started at most once, whatever is done. -/
theorem reports_startsOnce (i : Interpreter σ) (cs : List Command) (hs : s.Dormant)
    (hready : s.bridge.ready = false) : Event.StartsOnce (events (s.reports i cs)) := by
  induction cs generalizing s with
  | nil => exact ⟨[], [], rfl, .inl rfl⟩
  | cons c cs ih =>
    have hrest := hs.report i c
    rw [events_reports_cons]
    cases hvia : c.viaBridge with
    | false =>
      unfold Command.viaBridge at hvia
      split at hvia
      · next r keep =>
        have hleft := step_direct_ready i.watched s.watching r keep
        exact ih hrest (hleft.trans hready)
      · cases hvia
    | true =>
      have h : (s.report i c).StartsLazily i := report_startsLazily hs i hvia
      cases hneeds : c.needs s with
      | false =>
        obtain ⟨hevents, hleft⟩ := h.idle hneeds
        rw [hevents]
        exact ih hrest (hleft.trans hready)
      | true =>
        rcases hstart : i.start s.bridge.guest with ⟨e | u, g⟩
        · obtain ⟨hevents, -, hresumes, -⟩ := h.refused hneeds hready e g hstart
          have hleft : (s.report i c).left.bridge.ready = false := by
            rw [hresumes.bridge]
            exact hready
          obtain ⟨failures, rest, hes, hlast⟩ := ih hrest hleft
          rw [hevents, hes]
          exact ⟨e :: failures, rest, rfl, hlast⟩
        · obtain ⟨⟨as, -, has⟩, hleft⟩ := h.starts hneeds hready (congrArg Prod.fst hstart)
          obtain ⟨as', has'⟩ := reports_ready i cs hrest hleft
          rw [has, has']
          exact ⟨[], _, rfl, .inr ⟨as ++ as', by rw [List.map_append]; rfl⟩⟩

/-- The interpreter is started by each command if it has to be. -/
theorem reports_startsLazily (i : Interpreter σ) (cs : List Command) (hs : s.Dormant) :
    ∀ r ∈ s.reports i cs, r.Faithful i ∧ (r.command.viaBridge → r.StartsLazily i) := by
  induction cs generalizing s with
  | nil => simp [reports]
  | cons c cs ih =>
    rw [reports, List.forall_mem_cons]
    exact ⟨⟨report_faithful i s c, fun hvia ↦ report_startsLazily hs i hvia⟩, ih (hs.report i c)⟩

/-- However an interpreter behaves, and whatever is done in a session: the interpreter is
started by the first command that needs it, and again by the next one as long as that fails;
then it is asked, and never started again. -/
theorem starts_lazily (i : Interpreter σ) (guest : σ) (c c' : Nat) (commands : List Command) :
    let rs := (ofBridge (Bridge.fresh guest c c')).reports i commands
    (∀ r ∈ rs, r.Faithful i ∧ (r.command.viaBridge → r.StartsLazily i)) ∧
      Event.StartsOnce (events rs) := by
  have hs : (ofBridge (Bridge.fresh guest c c')).Dormant := fun _ ↦
    ⟨fun _ ↦ rfl, fun _ ↦ rfl, fun _ _ ↦ nofun, fun _ ↦ rfl⟩
  exact ⟨reports_startsLazily i commands hs, reports_startsOnce i commands hs rfl⟩

end Session

end GuestBridge
