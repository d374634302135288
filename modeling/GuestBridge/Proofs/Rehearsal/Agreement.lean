import GuestBridge.Proofs.Bridge.Compilation
import GuestBridge.Proofs.Bridge.Readiness
import GuestBridge.Proofs.Rehearsal.Copies
import GuestBridge.Proofs.Rehearsal.Definitions

/-!
# Batches agree with calls

A function that a rehearsal understands is compiled to two handles: one shows what was scripted
for its body, and the other one applies that to every element of a batch. As long as the
function is kept both go on to show this, so that a batch comes to what the calls of its
elements come to, with a single request.
-/

namespace GuestBridge.Rehearsal

variable {w w' : Scene} {hs : List Handle} {h k : Handle} {o : Object} {n f : Native}
  {name body : String} {b : Bridge Stage}

/-! ### What a handle goes on to show -/

/-- An id shows an object, or has shown it and was forgotten. -/
structure Stage.Points (s : Stage) (id : Nat) (o : Object) : Prop where
  given : id ≤ s.lastId
  object : s.object? id = none ∨ s.object? id = some o

/-- What an id shows does not change. -/
theorem Stage.Points.shrinks {s s' : Stage} {id : Nat} (p : s.Points id o) (h : s.Shrinks s') :
    s'.Points id o where
  given := Nat.le_trans p.given h.1
  object := by
    rcases h.2 id p.given with hgone | hsame
    · exact .inl hgone
    · rw [hsame]
      exact p.object

/-- A handle that is held shows its object when a request has begun. -/
theorem Sound.object?_begin_of_held (s : Sound w hs []) (hm : h ∈ hs) (ho : h.owner ≠ none)
    (p : w.guest.Points h.id o) : w.begin.guest.object? h.id = some o := by
  have hmem : h ∈ hs ++ w.guest.kept := List.mem_append_left _ hm
  have hpresent := s.books.present_of_mem hmem ho
  have hnot : h.id ∉ w.ledger.pending := fun hw ↦
    (s.books.waiting h.id (by simpa using hw)).2 ⟨h, hmem, ho, rfl⟩
  rw [s.object?_begin, if_neg hnot]
  rcases p.object with hgone | hsame
  · rw [hgone] at hpresent
    cases hpresent
  · exact hsame

/-! ### Calling -/

/-- An object is about to be called: the request has begun and is counted. -/
def Scene.calling (w : Scene) : Scene :=
  w.begin.onStage fun s ↦ { s with calls := s.calls + 1 }

/-- A function that is called does what was scripted. -/
theorem answer_call (ho : w.begin.guest.object? h.id = some (.function n)) (args : List Value) :
    w.answer (.call h args) = w.calling.reply (n.apply args) := by
  have hobject : w.calling.guest.object h = .ok (.function n) := by
    have hcalling : w.calling.guest.object? h.id = some (.function n) := ho
    simp only [Stage.object, hcalling]
  have hcall : w.call h args = (n.apply args, w.calling) := by
    unfold Scene.calling at hobject ⊢
    simp only [Scene.call, hobject]
  simp only [Scene.answer, Scene.respond, hcall]

/-- What a call comes to: what was scripted, handed out. -/
theorem exports_answer_call (hb : w.begin.guest.Bounded)
    (ho : w.begin.guest.object? h.id = some (.function n)) (args : List Value) :
    match n.apply args with
    | .ok v => ∃ r w', w.answer (.call h args) = (.ok r, w') ∧ Exports w.begin w' v r
    | .error e => (w.answer (.call h args)).1 = .error e := by
  have hb' : w.calling.guest.Bounded := hb
  rw [answer_call ho]
  cases n.apply args with
  | error e => rfl
  | ok v =>
    obtain ⟨hexports, -⟩ := exports_handOutValue hb' v
    exact ⟨_, _, rfl, hexports.shape, hexports.handles.imp fun _ _ s ↦
      ⟨s.typeName, s.object, s.same⟩⟩

/-- What a batch comes to: the array of what was scripted for every element, handed out, or
the first failure. -/
theorem exports_answer_batch (hb : w.begin.guest.Bounded)
    (ho : w.begin.guest.object? k.id = some (.function n.batch)) (batch : List (List Value)) :
    match batch.mapM n.apply with
    | .ok vs => ∃ items w', w.answer (.call k [.array (batch.map .tuple)]) =
        (.ok (.array items), w') ∧ List.Forall₂ (Exports w.begin w') vs items
    | .error e => (w.answer (.call k [.array (batch.map .tuple)])).1 = .error e := by
  have hb' : w.calling.guest.Bounded := hb
  rw [answer_call ho, n.batch_apply]
  cases batch.mapM n.apply with
  | error e => rfl
  | ok vs =>
    obtain ⟨hexports, -⟩ := exports_handOutAll hb' vs
    exact ⟨_, _, rfl, hexports.imp fun _ _ e ↦ ⟨e.shape, e.handles.imp fun _ _ s ↦
      ⟨s.typeName, s.object, s.same⟩⟩⟩

/-! ### Compiling -/

/-- A name that stands for a function is bound to a handle that shows it. -/
theorem exists_of_global (hf : w.global name = .ok f) :
    ∃ h, w.guest.globals.find? name = some h ∧ w.guest.object? h.id = some (.function f) := by
  unfold Scene.global at hf
  split at hf
  · next h hfind =>
    refine ⟨h, hfind, ?_⟩
    unfold Stage.object at hf
    cases ho : w.guest.object? h.id with
    | none => simp [ho, raise] at hf
    | some o =>
      cases o with
      | function g =>
        obtain rfl : g = f := by simpa [ho] using hf
        rfl
      | module m => simp [ho, raise] at hf
  · cases hf

/-- Looking the name of a function up hands out a handle that shows it. -/
theorem Sound.answer_name (s : Sound w hs []) (a : AllAnchored w)
    (hcode : w.guest.expressions.find? name = none) (hname : isName name.toList = true)
    (hf : w.global name = .ok f) :
    ∃ h w', w.answer (.eval name) = (.ok (.handle h), w') ∧ h.owner ≠ none ∧
      w'.guest.Points h.id (.function f) ∧ w.guest.SameScript w'.guest ∧
      w.guest.Shrinks w'.guest ∧ w'.global name = .ok f ∧ Sound w' (h :: hs) [] ∧
      AllAnchored w' := by
  obtain ⟨hsound, hquiet⟩ := s.evaluating name
  have hscript := sameScript_evaluating w name
  have hglobal : (w.evaluating name).global name = .ok f := by
    rw [← hf]
    exact a.global_eq s hsound hquiet.later (congrArg (·.find? name) hscript.globals)
  obtain ⟨h₀, hfind, hobject⟩ := exists_of_global hglobal
  have houtcome : w.eval name = (.ok (.handle h₀), w.evaluating name) := by
    show (w.evaluating name).outcome name = _
    have hkey : Scene.bodyKey name = name := by
      rw [Scene.bodyKey, trim_name hname, String.ofList_toList]
    simp only [Scene.outcome, hscript.expressions, hcode, Scene.run, hkey, form_name hname,
      Scene.lookUp, hfind]
  have hanswer : w.answer (.eval name) =
      (.ok (.handle ((w.evaluating name).handOut h₀).1), ((w.evaluating name).handOut h₀).2) := by
    simp only [Scene.answer, Scene.respond, houtcome]
    rfl
  obtain ⟨hid, -, howner, hadds⟩ := handOut_adds hobject
  obtain ⟨hgrows, hnew⟩ := hadds.grows hsound.bounded
  have hpoints : ((w.evaluating name).handOut h₀).2.guest.Points
      ((w.evaluating name).handOut h₀).1.id (.function f) :=
    ⟨Nat.le_of_eq (hid.trans hadds.lastId.symm), .inr (by rw [hid]; exact hnew)⟩
  have hkept := (custodyOf AllAnchored persists_allAnchored).answer (r := .eval name) ⟨s, a⟩
    (Handle.borrowed_nil _)
  have hlater := s.later_answer (r := .eval name) (Handle.borrowed_nil _)
  rw [show interpreter.answer (.eval name) w = w.answer (.eval name) from rfl, hanswer] at hkept
  rw [hanswer] at hlater
  have hscript' := hscript.trans (sameScript_handOut _ h₀)
  have hglobal' := a.global_eq s hkept.1 hlater (congrArg (·.find? name) hscript'.globals)
  exact ⟨_, _, hanswer, howner, hpoints, hscript', hlater.shrinks, hglobal'.trans hf, hkept⟩

/-- A function is understood by a rehearsal: its source reads as a definition of its name, for
whose body something was scripted, and none of the texts that compile it is scripted itself. -/
structure Understood (s : Stage) (g : GuestFunction) (body : String) (n : Native) : Prop where
  form : Form.of (Text.trim g.source.toList) = .define g.guestName body
  scripted : s.bodies.find? (Scene.bodyKey (Text.dedent body)) = some n
  plain : ∀ text ∈ g.texts, s.expressions.find? text = none

/-- A function that is understood is compiled to handles that show what was scripted and its
application to every element of a batch. -/
theorem compile_understood {g : GuestFunction}
    (hk : (custodyOf AllAnchored persists_allAnchored).Keeps b hs) (hr : b.ready = true)
    (hg : Understood b.guest g body n) :
    ∃ h k b', g.compile interpreter b = (.ok ⟨.handle h, .handle k⟩, b') ∧ b'.ready = true ∧
      h.owner ≠ none ∧ k.owner ≠ none ∧ b'.guest.Points h.id (.function n) ∧
      b'.guest.Points k.id (.function n.batch) := by
  have hname := isName_of_define hg.form
  have hplain : b.guest.expressions.find? g.source = none ∧
      b.guest.expressions.find? g.guestName = none ∧
      b.guest.expressions.find? g.helper.source = none ∧
      b.guest.expressions.find? g.helper.name = none := by
    simpa [GuestFunction.texts] using hg.plain
  obtain ⟨hsource, hguest, hbatch, hmap⟩ := hplain
  obtain ⟨s₀, a₀⟩ := hk.sound
  -- the definition binds the name, and the name is looked up
  obtain ⟨w₁, h₁, hbinds₁, s₁, a₁⟩ := s₀.answer_define a₀ hsource hg.form hg.scripted
  obtain ⟨h, w₂, h₂, howner, hpoints, hscript₂, -, hglobal₂, s₂, a₂⟩ := s₁.answer_name a₁
    (by rw [hbinds₁.expressions]; exact hguest) hname hbinds₁.bound
  -- so are the helper and its name
  have hform₃ : Form.of (Text.trim g.helper.source.toList) =
      .defineBatch g.helper.name g.guestName := by
    show Form.of (Text.trim (Definition.buildMap g.guestName).source.toList) = _
    rw [trim_buildMap hname, form_buildMap hname]
    rfl
  obtain ⟨w₃, h₃, hbinds₃, s₃, a₃⟩ := s₂.answer_defineBatch a₂
    (by rw [hscript₂.expressions, hbinds₁.expressions]; exact hbatch) hform₃ hglobal₂
  obtain ⟨k, w₄, h₄, hkowner, hkpoints, -, hshrinks₄, -⟩ := s₃.answer_name a₃
    (by rw [hbinds₃.expressions, hscript₂.expressions, hbinds₁.expressions]; exact hmap)
    (isName_mapName hname) hbinds₃.bound
  refine ⟨h, k, b.onto w₄, ?_, hr, howner, hkowner,
    (hpoints.shrinks hbinds₃.objects).shrinks hshrinks₄, hkpoints⟩
  have hexec₁ : b.exec interpreter g.source = (.ok (), b.onto w₁) :=
    Bridge.exec_answered (v := .nothing) (w := w₁) hr h₁
  have heval₂ : (b.onto w₁).eval interpreter g.guestName = (.ok (.handle h), b.onto w₂) :=
    Bridge.eval_answered (b := b.onto w₁) hr h₂
  have hexec₃ : (b.onto w₂).exec interpreter g.helper.source = (.ok (), b.onto w₃) :=
    Bridge.exec_answered (b := b.onto w₂) (v := .nothing) (w := w₃) hr h₃
  have heval₄ : (b.onto w₃).eval interpreter g.helper.name = (.ok (.handle k), b.onto w₄) :=
    Bridge.eval_answered (b := b.onto w₃) hr h₄
  simp only [GuestFunction.compile, GuestFunction.compileBatch, hexec₁, heval₂, hexec₃, heval₄,
    Outcome.andThen_ok]

/-- What is understood goes on to be as long as the script is the same. -/
theorem Understood.of_sameScript {s s' : Stage} {g : GuestFunction} (u : Understood s g body n)
    (h : s.SameScript s') : Understood s' g body n where
  form := u.form
  scripted := by rw [h.bodies]; exact u.scripted
  plain text ht := by rw [h.expressions]; exact u.plain text ht

/-- Starting leaves the script alone. -/
theorem sameScript_require (b : Bridge Stage) :
    b.guest.SameScript (b.require interpreter).2.guest := by
  have hstart : ∀ s : Stage, s.SameScript s.start.2 := by
    intro s
    unfold Stage.start
    split <;> exact ⟨rfl, rfl, rfl, rfl, rfl⟩
  unfold Bridge.require
  split
  · exact .refl _
  · have hguest := hstart b.guest
    rcases hs : interpreter.start b.guest with ⟨e | x, g⟩
    · rw [show b.guest.start = (.error e, g) from hs] at hguest
      exact hguest
    · rw [show b.guest.start = (.ok x, g) from hs] at hguest
      exact hguest

/-! ### Using a function in a session -/

/-- Two handles show, as long as they show anything, a function and its application to every
element of a batch. -/
def ShowsBoth (h k : Handle) (n : Native) (w : Scene) : Prop :=
  w.guest.Points h.id (.function n) ∧ w.guest.Points k.id (.function n.batch)

/-- What the handles show does not change. -/
theorem persists_showsBoth (h k : Handle) (n : Native) : Persists (ShowsBoth h k n) := by
  rintro w w' _ _ - - ⟨⟨xs, hlater⟩, -⟩ ⟨hh, hk⟩
  exact ⟨hh.shrinks hlater.shrinks, hk.shrinks hlater.shrinks⟩

/-- A function that is understood is compiled by its first use, and its handles go on to show
what they are for. -/
theorem use_understood {g : GuestFunction} {u : Use}
    (hkeeps : (custodyOf AllAnchored persists_allAnchored).Keeps b hs)
    (hstart : (b.require interpreter).1 = .ok ()) (hu : g.compiled = none)
    (hg : Understood b.guest g body n) (hargs : Handle.Borrowed hs (Value.handlesAll u.args)) :
    ∃ h k, (g.use interpreter u b).2.1 =
        { g with compiled := some ⟨.handle h, .handle k⟩ } ∧
      (g.use interpreter u b).2.2.ready = true ∧ h.owner ≠ none ∧ k.owner ≠ none ∧
      ShowsBoth h k n (g.use interpreter u b).2.2.toWorld := by
  have hkeeps₀ := hkeeps.require
  have hscript := sameScript_require b
  rcases Bridge.require_cases interpreter b with ⟨b₀, hb, h₀⟩ | ⟨e, g, -, -, hb⟩
  · rw [hb] at hkeeps₀ hscript
    obtain ⟨h, k, b₁, hcompile, h₁, howner, hkowner, hshows⟩ :=
      compile_understood hkeeps₀ h₀ (hg.of_sameScript hscript)
    have hcompiled := Custody.Keeps.compile (f := g) hkeeps₀
    rw [hcompile] at hcompiled
    have hshown : (custodyOf (ShowsBoth h k n) (persists_showsBoth h k n)).Keeps b₁
        (Compiled.handles ⟨.handle h, .handle k⟩ ++ hs) :=
      ⟨⟨hcompiled.sound.1, hshows⟩, hcompiled.expressions, hcompiled.functions⟩
    have htarget : u.target ⟨.handle h, .handle k⟩ ∈ [.handle h, .handle k] := by
      cases u <;> simp [Use.target]
    have hcalled := hshown.callCompiled htarget hargs
    have huse : g.use interpreter u b = ((u.run interpreter ⟨.handle h, .handle k⟩ b₁).1,
        { g with compiled := some ⟨.handle h, .handle k⟩ },
        (u.run interpreter ⟨.handle h, .handle k⟩ b₁).2) := by
      rw [GuestFunction.use_eq]
      simp only [GuestFunction.withCompiled, hu, compile_required hb h₀, hcompile]
    have hready := Bridge.callValue_stays_ready (i := interpreter) h₁
      (u.target ⟨.handle h, .handle k⟩) u.args
    obtain ⟨hguest, hready'⟩ := u.finish_guest
      (b₁.callValue interpreter (u.target ⟨.handle h, .handle k⟩) u.args).1
      (b₁.callValue interpreter (u.target ⟨.handle h, .handle k⟩) u.args).2
    rw [huse]
    refine ⟨h, k, rfl, hready'.trans hready, howner, hkowner, ?_⟩
    have hboth := hcalled.sound.2
    unfold ShowsBoth at hboth ⊢
    rw [← hguest] at hboth
    exact hboth
  · rw [hb] at hstart
    cases hstart

/-- An attempt does not stop the interpreter. -/
private theorem attempt_stays_ready {s : Session Stage} (h : s.bridge.ready = true) (q : Query)
    (slot : String) : (attempt interpreter s q slot).bridge.ready = true := by
  unfold attempt
  cases ho : s.ask interpreter q with
  | none => exact h
  | some o =>
    have hasked := Session.ask_runs (P := fun _ ↦ True) (fun _ _ _ ↦ trivial) ⟨h, trivial⟩ ho
    rcases o with ⟨e | v, s'⟩
    · exact hasked.ready
    · exact hasked.ready

/-- Events do not stop the interpreter. -/
theorem rehearse_stays_ready {s : Session Stage} (h : s.bridge.ready = true)
    (events : List Event) : (rehearse s events).bridge.ready = true := by
  induction events generalizing s with
  | nil => exact h
  | cons e events ih =>
    apply ih
    unfold follow
    split
    · cases e with
      | command c => exact Session.step_stays_ready h c
      | attempt q slot => exact attempt_stays_ready h q slot
      | script line => exact h
      | hold slot v => exact h
    · exact h

/-- A session in which the function of a slot is compiled, some time after another one. -/
structure LaterUse (s₁ : Session Stage) (slot : String) (c : Compiled) (s : Session Stage)
    (g : GuestFunction) : Prop where
  later : ∃ events, s = rehearse s₁ events
  function : s.functions.find? slot = some g
  compiled : g.compiled = some c

/-- A session that is as it was. -/
theorem LaterUse.now {s : Session Stage} {slot : String} {c : Compiled} {g : GuestFunction}
    (hf : s.functions.find? slot = some g) (hc : g.compiled = some c) : LaterUse s slot c s g :=
  ⟨⟨[], rfl⟩, hf, hc⟩

/-- A bridge on which two handles serve a function and its application to every element of a
batch. -/
structure Serves (b : Bridge Stage) (h k : Handle) (n : Native) : Prop where
  ready : b.ready = true
  bounded : (Scene.begin b.toWorld).guest.Bounded
  function : (Scene.begin b.toWorld).guest.object? h.id = some (.function n)
  batch : (Scene.begin b.toWorld).guest.object? k.id = some (.function n.batch)

/-- The function that a slot holds is used for the first time: it is compiled, and its handles
serve it as long as it is kept. -/
theorem first_use_serves {s₀ : Session Stage} {slot : String} {g : GuestFunction} {u : Use}
    (hkeeps : (custodyOf AllAnchored persists_allAnchored).KeepsAll s₀ [])
    (hf : s₀.functions.find? slot = some g) (hu : g.compiled = none)
    (hg : Understood s₀.bridge.guest g body n)
    (hstart : (s₀.bridge.require interpreter).1 = .ok ())
    (hargs : Handle.Borrowed (Value.handlesAll s₀.values.toList) (u.query slot).handles)
    (keepIn : Option String) :
    let s₁ := rehearse s₀ [.command (.query (u.query slot) keepIn)]
    ∃ h k, s₁.functions.find? slot =
        some { g with compiled := some ⟨.handle h, .handle k⟩ } ∧
      ∀ s g', LaterUse s₁ slot ⟨.handle h, .handle k⟩ s g' → Serves s.bridge h k n := by
  intro s₁
  have huargs : Handle.Borrowed ([] ++ s₀.handles) (Value.handlesAll u.args) := by
    have hsame : (u.query slot).handles = Value.handlesAll u.args := by
      cases u <;> simp [Use.query, Use.args, Query.handles, Value.handlesAll, Value.handles]
    rw [← hsame]
    exact hargs.mono (List.subset_append_left _ _)
  obtain ⟨h, k, hafter, hready, howner, hkowner, hshows⟩ :=
    use_understood hkeeps.keeps hstart hu hg huargs
  have hs₁ : s₁ = (s₀.step interpreter (.query (u.query slot) keepIn)).2 := if_pos hargs
  -- whatever becomes of the result, the bridge and the slot are as the use leaves them
  obtain ⟨hguest, hready₁, hslot⟩ : s₁.bridge.guest = (g.use interpreter u s₀.bridge).2.2.guest ∧
      s₁.bridge.ready = true ∧ s₁.functions.find? slot =
        some { g with compiled := some ⟨.handle h, .handle k⟩ } := by
    have hput := Slots.find?_put s₀.functions slot slot (g.use interpreter u s₀.bridge).2.1
    rw [if_pos rfl, hafter] at hput
    rw [hs₁, Session.step_query, Session.ask_use hf, hafter]
    cases (g.use interpreter u s₀.bridge).1 with
    | error e => exact ⟨rfl, hready, hput⟩
    | ok v => cases keepIn <;> exact ⟨rfl, hready, hput⟩
  have hkeeps₁ := keepsAll_rehearse persists_allAnchored
    [.command (.query (u.query slot) keepIn)] hkeeps
  have hshown₁ : (custodyOf (ShowsBoth h k n) (persists_showsBoth h k n)).KeepsAll s₁ [] := by
    have hboth : ShowsBoth h k n s₁.bridge.toWorld := by
      unfold ShowsBoth at hshows ⊢
      rw [hguest]
      exact hshows
    exact ⟨⟨⟨hkeeps₁.keeps.sound.1, hboth⟩, hkeeps₁.keeps.expressions, hkeeps₁.keeps.functions⟩,
      hkeeps₁.values, hkeeps₁.functions, hkeeps₁.modules, hkeeps₁.members⟩
  refine ⟨h, k, hslot, ?_⟩
  rintro s g' ⟨⟨events, rfl⟩, hfunction, hcompiled⟩
  have hkeeps' := keepsAll_rehearse (persists_showsBoth h k n) events hshown₁
  obtain ⟨hsound, hh, hk⟩ := hkeeps'.keeps.sound
  -- the session holds the handles of the function
  have hheld : ∀ x ∈ [h, k], x ∈ [] ++ (rehearse s₁ events).handles ++
      (rehearse s₁ events).bridge.cached := by
    intro x hx
    have hg' : g'.handles = [h, k] := by
      simp [GuestFunction.handles, GuestFunction.held, hcompiled, Value.handlesAll, Value.handles]
    have hmem : x ∈ (rehearse s₁ events).functions.toList.flatMap GuestFunction.handles :=
      List.mem_flatMap.2 ⟨g', Slots.mem_toList_of_find? hfunction, hg' ▸ hx⟩
    simp only [Session.handles, List.nil_append, List.mem_append]
    exact .inl (.inr (.inl hmem))
  exact ⟨rehearse_stays_ready hready₁ events, hsound.beginRequest.bounded,
    hsound.object?_begin_of_held (hheld h (by simp)) howner hh,
    hsound.object?_begin_of_held (hheld k (by simp)) hkowner hk⟩

/-! ### Batches and calls -/

/-- A call of a function in a session. -/
structure Call where
  args : List Value
  session : Session Stage
  function : GuestFunction

/-- What a call comes to. -/
def Call.outcome (x : Call) : Except Failure Value × GuestFunction × Bridge Stage :=
  x.function.call interpreter x.args x.session.bridge

/-- A call comes to what was scripted, handed out, or fails as it does. -/
theorem Serves.call {g : GuestFunction} (s : Serves b h k n)
    (hg : g.compiled = some ⟨.handle h, .handle k⟩) (args : List Value) :
    match n.apply args with
    | .ok v => ∃ r, (g.call interpreter args b).1 = .ok r ∧
        Exports (Scene.begin b.toWorld) (g.call interpreter args b).2.2.toWorld v r
    | .error e => (g.call interpreter args b).1 = .error e := by
  have hcall : g.call interpreter args b =
      ((Scene.answer (.call h args) b.toWorld).1, g,
        b.onto (Scene.answer (.call h args) b.toWorld).2) := by
    simp only [GuestFunction.call, GuestFunction.withCompiled, hg, Bridge.callValue,
      Bridge.callHandle, Bridge.ask_ready s.ready]
    rfl
  have hexports := exports_answer_call s.bounded s.function args
  rw [hcall]
  cases ha : n.apply args with
  | error e =>
    rw [ha] at hexports
    exact hexports
  | ok v =>
    rw [ha] at hexports
    obtain ⟨r, w', hanswer, hr⟩ := hexports
    rw [hanswer]
    exact ⟨r, rfl, hr⟩

/-- A batch comes with one request to what was scripted for every element, handed out, or to
the first failure. -/
theorem Serves.map {g : GuestFunction} (s : Serves b h k n)
    (hg : g.compiled = some ⟨.handle h, .handle k⟩) (batch : List (List Value)) :
    (g.report interpreter (.map batch) b).asked =
      [⟨.call k [.array (batch.map .tuple)], b.toWorld⟩] ∧
    match batch.mapM n.apply with
    | .ok vs => ∃ items, (g.report interpreter (.map batch) b).result = .ok (.array items) ∧
        List.Forall₂ (Exports (Scene.begin b.toWorld)
          (g.report interpreter (.map batch) b).left.toWorld) vs items
    | .error e => (g.report interpreter (.map batch) b).result = .error e := by
  obtain ⟨hasked, houtcome⟩ := (g.report_compiled interpreter (.map batch) hg s.ready).1.direct
  have hexports := exports_answer_batch s.bounded s.batch batch
  change _ = Use.finish (.map batch) (Scene.answer (.call k [.array (batch.map .tuple)])
    b.toWorld).1 (b.onto (Scene.answer (.call k [.array (batch.map .tuple)]) b.toWorld).2)
    at houtcome
  obtain ⟨hresult, hleft⟩ := Prod.mk.inj houtcome
  refine ⟨hasked, ?_⟩
  cases hvs : batch.mapM n.apply with
  | error e =>
    rw [hvs] at hexports
    rw [hresult, hexports]
  | ok vs =>
    rw [hvs] at hexports
    obtain ⟨items, w', hanswer, hitems⟩ := hexports
    refine ⟨items, ?_, ?_⟩
    · rw [hresult, hanswer]
    · rw [hleft, hanswer]
      exact hitems

/-- A result of a call and an item of a batch, which was handed out from a scene to a later one,
are the same value up to the ids of handles: both were handed out for what was scripted. -/
def Call.Matches (x : Call) (w w' : Scene) (item : Value) : Prop :=
  ∃ v result, x.outcome.1 = .ok result ∧
    Exports (Scene.begin x.session.bridge.toWorld) x.outcome.2.2.toWorld v result ∧
    Exports w w' v item

/-- A result without handles and the item that matches it are equal. -/
theorem Call.Matches.eq {x : Call} {result item : Value} (m : x.Matches w w' item)
    (hresult : x.outcome.1 = .ok result) (hnone : result.handles = []) : item = result := by
  obtain ⟨v, r, hr, hcall, hitem⟩ := m
  obtain rfl : r = result := Except.ok.inj (hr.symm.trans hresult)
  have hv : v.handles = [] := by
    have hlength := hcall.handles.length_eq
    rw [hnone] at hlength
    exact List.eq_nil_of_length_eq_zero hlength
  rw [hitem.eq_of_handles hv, hcall.eq_of_handles hv]

/-- What a batch came to on a bridge agrees with what the calls of its elements come to: the
results match in their order, or the failure is that of the first call that fails. -/
def Call.Agree (calls : List Call) (b : Bridge Stage) (r : Report Stage) : Prop :=
  match calls.mapM (·.outcome.1) with
  | .ok _ => ∃ items, r.result = .ok (.array items) ∧ List.Forall₂
      (fun x item ↦ x.Matches (Scene.begin b.toWorld) r.left.toWorld item) calls items
  | .error e => r.result = .error e

/-- If all calls succeed the results match. -/
theorem Call.Agree.items {calls : List Call} {r : Report Stage} {results : List Value}
    (a : Call.Agree calls b r) (h : calls.mapM (·.outcome.1) = .ok results) :
    ∃ items, r.result = .ok (.array items) ∧ List.Forall₂
      (fun x item ↦ x.Matches (Scene.begin b.toWorld) r.left.toWorld item) calls items := by
  unfold Call.Agree at a
  rw [h] at a
  exact a

/-- Calls come to what was scripted, handed out, or the first that fails fails as it does. -/
theorem mapM_outcome {h k : Handle} (calls : List Call)
    (hserves : ∀ x ∈ calls, Serves x.session.bridge h k n ∧
      x.function.compiled = some ⟨.handle h, .handle k⟩) :
    match (calls.map Call.args).mapM n.apply with
    | .ok vs => (∃ results, calls.mapM (·.outcome.1) = .ok results) ∧
        List.Forall₂ (fun x v ↦ ∃ result, x.outcome.1 = .ok result ∧
          Exports (Scene.begin x.session.bridge.toWorld) x.outcome.2.2.toWorld v result) calls vs
    | .error e => calls.mapM (·.outcome.1) = .error e := by
  induction calls with
  | nil => exact ⟨⟨[], rfl⟩, .nil⟩
  | cons x calls ih =>
    obtain ⟨⟨hx, hcompiled⟩, hrest⟩ := List.forall_mem_cons.1 hserves
    have hcall := hx.call hcompiled x.args
    specialize ih hrest
    rw [List.map_cons, List.mapM_cons, List.mapM_cons]
    cases ha : n.apply x.args with
    | error e =>
      rw [ha] at hcall
      have houtcome : x.outcome.1 = .error e := hcall
      rw [houtcome]
      rfl
    | ok v =>
      rw [ha] at hcall
      obtain ⟨r, hr, hexports⟩ := hcall
      have houtcome : x.outcome.1 = .ok r := hr
      rw [houtcome]
      cases hvs : (calls.map Call.args).mapM n.apply with
      | error e =>
        rw [hvs] at ih
        rw [ih]
        rfl
      | ok vs =>
        rw [hvs] at ih
        obtain ⟨⟨results, hresults⟩, hforall⟩ := ih
        rw [hresults]
        exact ⟨⟨r :: results, rfl⟩, .cons ⟨r, houtcome, hexports⟩ hforall⟩

/-- A batch and the calls of its elements, on bridges on which the same handles serve the same
function. -/
theorem Serves.map_agrees {g : GuestFunction} (s : Serves b h k n)
    (hg : g.compiled = some ⟨.handle h, .handle k⟩) (calls : List Call)
    (hcalls : ∀ x ∈ calls, Serves x.session.bridge h k n ∧
      x.function.compiled = some ⟨.handle h, .handle k⟩) :
    Call.Agree calls b (g.report interpreter (.map (calls.map Call.args)) b) := by
  unfold Call.Agree
  have hmap := (s.map hg (calls.map Call.args)).2
  have hmapM := mapM_outcome calls hcalls
  cases hvs : (calls.map Call.args).mapM n.apply with
  | error e =>
    rw [hvs] at hmap hmapM
    rw [hmapM]
    exact hmap
  | ok vs =>
    rw [hvs] at hmap hmapM
    obtain ⟨items, hresult, hitems⟩ := hmap
    obtain ⟨⟨results, hresults⟩, hvalues⟩ := hmapM
    rw [hresults]
    refine ⟨items, hresult, (List.forall₂_iff_get.2 ⟨?_, fun j h₁ h₂ ↦ ?_⟩)⟩
    · exact hvalues.length_eq.trans hitems.length_eq
    · have hj : j < vs.length := hvalues.length_eq ▸ h₁
      obtain ⟨result, hr, hcall⟩ := (List.forall₂_iff_get.1 hvalues).2 j h₁ hj
      exact ⟨_, result, hr, hcall, (List.forall₂_iff_get.1 hitems).2 j hj h₂⟩

/-- In every rehearsed session in which a slot holds a function that is understood: its first
use compiles it, and from then on, as long as the slot holds it and whatever else happens in the
session, a batch comes with a single call to the results that the calls of its elements come to
at any time, in their order and up to the ids of handles, or to the failure of the first call
that fails. -/
theorem map_agrees_with_call (refusals : List (Option String))
    (expressionCapacity functionCapacity : Nat) (ready : Bool) (before : List Event)
    (slot : String) (g : GuestFunction) (body : String) (n : Native) (u : Use)
    (keepIn : Option String) :
    let s₀ := rehearse
      (opening (Stage.bare refusals) expressionCapacity functionCapacity ready) before
    let s₁ := rehearse s₀ [.command (.query (u.query slot) keepIn)]
    s₀.functions.find? slot = some g → g.compiled = none →
    Understood s₀.bridge.guest g body n → (s₀.bridge.require interpreter).1 = .ok () →
    Handle.Borrowed (Value.handlesAll s₀.values.toList) (u.query slot).handles →
    ∃ c, s₁.functions.find? slot = some { g with compiled := some c } ∧
      ∀ s g', LaterUse s₁ slot c s g' → ∀ calls : List Call,
        (∀ x ∈ calls, LaterUse s₁ slot c x.session x.function) →
        let r := g'.report interpreter (.map (calls.map Call.args)) s.bridge
        r.Faithful interpreter ∧
        (∃ k, r.asked = [⟨.call k [.array (calls.map (.tuple ·.args))], s.bridge.toWorld⟩]) ∧
        Call.Agree calls s.bridge r := by
  intro s₀ s₁ hf hu hg hstart hargs
  have hkeeps := keepsAll_anchored refusals expressionCapacity functionCapacity ready before
  obtain ⟨h, k, hslot, hserves⟩ := first_use_serves hkeeps hf hu hg hstart hargs keepIn
  refine ⟨⟨.handle h, .handle k⟩, hslot, fun s g' hlater calls hcalls ↦ ⟨?_, ⟨k, ?_⟩, ?_⟩⟩
  · exact g'.report_faithful interpreter _ s.bridge
  · have hasked := ((hserves s g' hlater).map hlater.compiled (calls.map Call.args)).1
    rw [List.map_map] at hasked
    exact hasked
  · exact (hserves s g' hlater).map_agrees hlater.compiled calls fun x hx ↦
      ⟨hserves x.session x.function (hcalls x hx), (hcalls x hx).compiled⟩

/-- A function that adds two numbers, in a session in which something was scripted for it. -/
theorem map_agrees_with_call_sum :
    let s₀ := rehearse (opening (Stage.bare []) 2 2 true)
      [.script (.implement "x + y" Native.sum),
        .command (.makeFunction "add" ⟨"add", ["x", "y"], "x + y", some "add", none⟩)]
    let s₁ := rehearse s₀ [.command (.query ((Use.call []).query "add") none)]
    ∃ g, s₁.functions.find? "add" = some g ∧
      let calls : List Call := [⟨[.int 1, .int 2], s₁, g⟩, ⟨[], s₁, g⟩]
      let r := g.report interpreter (.map (calls.map Call.args)) s₁.bridge
      r.asked.length = 1 ∧ Call.Agree calls s₁.bridge r ∧
        ∃ results, calls.mapM (·.outcome.1) = .ok results := by
  intro s₀ s₁
  let f := (GuestFunction.ofParts Names.empty
    ⟨"add", ["x", "y"], "x + y", some "add", none⟩).1
  have hslot₀ : s₀.functions.find? "add" = some f := by
    show ((Slots.empty.put "add" f).2.find? "add") = some f
    rw [Slots.find?_put, if_pos rfl]
  have hd : Definition.build "add" ["x", "y"] "x + y" =
      ⟨"add", Definition.wrap "add" ["x", "y"] "x + y", false⟩ := by
    have hnone : Definition.definedName? "x + y" = none := by decide +kernel
    simp only [Definition.build, hnone]
  have hunderstood : Understood s₀.bridge.guest f (Text.indent Definition.bodyMargin "x + y")
      Native.sum := by
    refine ⟨?_, ?_, fun text _ ↦ rfl⟩
    · show Form.of (Text.trim (Definition.build "add" ["x", "y"] "x + y").source.toList) =
        .define (Definition.build "add" ["x", "y"] "x + y").name _
      rw [hd, trim_wrap, form_wrap (by decide) (by decide)]
    · show (Slots.empty.put (Scene.bodyKey "x + y") Native.sum).2.find? _ = _
      rw [Slots.find?_put, if_pos (by decide +kernel)]
  obtain ⟨c, hslot, hagrees⟩ := map_agrees_with_call [] 2 2 true
    [.script (.implement "x + y" Native.sum),
        .command (.makeFunction "add" ⟨"add", ["x", "y"], "x + y", some "add", none⟩)]
    "add" f _ Native.sum (.call []) none hslot₀ rfl hunderstood rfl (Handle.borrowed_nil _)
  have hlater := LaterUse.now hslot rfl
  refine ⟨_, hslot, ?_⟩
  intro calls r
  have hcalls : ∀ x ∈ calls, LaterUse s₁ "add" c x.session x.function := by
    simp only [calls, List.forall_mem_cons]
    exact ⟨hlater, hlater, by simp⟩
  obtain ⟨-, ⟨k, hasked⟩, hagree⟩ := hagrees s₁ _ hlater calls hcalls
  refine ⟨by rw [hasked, List.length_singleton], hagree, ?_⟩
  -- both calls succeed
  obtain ⟨h, l, hslot', hserves⟩ := first_use_serves
    (keepsAll_anchored [] 2 2 true _) hslot₀ rfl hunderstood rfl (u := .call [])
    (Handle.borrowed_nil _) none
  obtain rfl : c = ⟨.handle h, .handle l⟩ := by
    have hsame := Option.some.inj (hslot.symm.trans hslot')
    exact Option.some.inj (congrArg GuestFunction.compiled hsame)
  exact (mapM_outcome (n := Native.sum) (h := h) (k := l) calls
    fun x hx ↦ ⟨hserves _ _ (hcalls x hx), (hcalls x hx).compiled⟩).1

end GuestBridge.Rehearsal
