import GuestBridge.Bridge.Session

/-!
# Interpreters seen through a projection

An interpreter may carry more in its states than another one that behaves the same. Everything
that can be done in a session then comes to the same result with both, and to states of which
one shows the other. In particular an interpreter may record all requests that it is asked,
each with the world in which it was asked, without anyone taking notice.
-/

namespace GuestBridge

variable {σ τ α β : Type}

/-! ### Worlds, bridges and sessions seen through a projection -/

/-- A world with what is shown of the guest. -/
def World.map (p : σ → τ) (w : World σ) : World τ :=
  ⟨p w.guest, w.ledger⟩

/-- A bridge with what is shown of the guest. -/
def Bridge.map (p : σ → τ) (b : Bridge σ) : Bridge τ :=
  { toWorld := b.toWorld.map p, ready := b.ready, expressions := b.expressions,
    functions := b.functions }

/-- A session with what is shown of the guest. -/
def Session.map (p : σ → τ) (s : Session σ) : Session τ :=
  { bridge := s.bridge.map p, names := s.names, values := s.values, functions := s.functions,
    modules := s.modules }

/-- An outcome with what is shown of the guest. -/
def Outcome.map (p : σ → τ) (o : Outcome σ α) : Outcome τ α :=
  (o.1, o.2.map p)

/-- One interpreter behaves like another one of which it shows the states. -/
structure Interpreter.Shows (p : σ → τ) (i : Interpreter σ) (j : Interpreter τ) : Prop where
  start : ∀ g, j.start (p g) = ((i.start g).1, p (i.start g).2)
  answer : ∀ r w, j.answer r (w.map p) = ((i.answer r w).1, (i.answer r w).2.map p)

namespace Interpreter.Shows

variable {p : σ → τ} {i : Interpreter σ} {j : Interpreter τ}

/-- Going on with a result. -/
theorem andThen {o : Outcome σ α} {next : α → Bridge σ → Outcome σ β}
    {next' : α → Bridge τ → Outcome τ β} (h : ∀ x b, next' x (b.map p) = (next x b).map p) :
    (o.map p).andThen next' = (o.andThen next).map p := by
  obtain ⟨result, b⟩ := o
  cases result with
  | ok x => exact h x b
  | error e => rfl

variable (hs : i.Shows p j)

include hs

/-! ### Bridges -/

/-- Both start alike. -/
theorem require (b : Bridge σ) : (b.map p).require j = (b.require i).map p := by
  have hstart := hs.start b.guest
  unfold Bridge.require
  by_cases hr : b.ready
  · simp [hr, Bridge.map, Outcome.map]
  · simp only [Bridge.map, World.map, hr, hstart, Bool.false_eq_true, if_false]
    cases i.start b.guest with
    | mk result g => cases result <;> rfl

/-- Both are asked alike. -/
theorem ask (r : Request) (b : Bridge σ) : (b.map p).ask j r = (b.ask i r).map p := by
  unfold Bridge.ask
  rw [hs.require]
  apply andThen
  intro _ b
  have hanswer := hs.answer r b.toWorld
  simp only [Bridge.map, hanswer, Outcome.map]

/-- Both evaluate alike. -/
theorem eval (code : String) (b : Bridge σ) : (b.map p).eval j code = (b.eval i code).map p :=
  hs.ask _ b

/-- Both execute alike. -/
theorem exec (code : String) (b : Bridge σ) : (b.map p).exec j code = (b.exec i code).map p := by
  unfold Bridge.exec
  rw [hs.eval]
  exact andThen fun _ _ ↦ rfl

/-- Both remember alike. -/
theorem evalThrough (m : Bridge.Memo) (code : String) (b : Bridge σ) :
    (b.map p).evalThrough j m code = (b.evalThrough i m code).map p := by
  have hmemo : ∀ b : Bridge σ, (b.map p).memo m = b.memo m := by intro b; cases m <;> rfl
  have hwith : ∀ (b : Bridge σ) (cache : Recency String Value),
      (b.map p).withMemo cache m = (b.withMemo cache m).map p := by
    intro b cache
    cases m <;> rfl
  unfold Bridge.evalThrough
  rw [hmemo]
  cases (b.memo m).get code with
  | mk found cache =>
    cases found with
    | some v =>
      simp only [hwith]
      rfl
    | none =>
      simp only [hs.eval]
      apply andThen
      intro v b
      simp only [Bridge.remember, hmemo, hwith]
      rfl

/-- Both call values alike. -/
theorem callValue (callee : Value) (args : List Value) (b : Bridge σ) :
    (b.map p).callValue j callee args = (b.callValue i callee args).map p := by
  cases callee with
  | handle h => exact hs.ask _ b
  | _ => rfl

/-- Both call functions alike. -/
theorem call (name : String) (args : List Value) (b : Bridge σ) :
    (b.map p).call j name args = (b.call i name args).map p := by
  unfold Bridge.call Bridge.resolve
  rw [hs.evalThrough]
  apply andThen
  intro callee b
  simp only [hs.callValue]
  rfl

omit hs in
/-- Reading a value does not depend on the guest. -/
theorem read (t : HostType) (v : Value) (b : Bridge σ) :
    (b.map p).read t v = (b.read t v).map p := by
  unfold Bridge.read
  cases t.fromValue v <;> rfl

/-! ### Functions and modules -/

/-- An outcome beside something else, with what is shown of the guest. -/
def shown (p : σ → τ) (o : Except Failure α × β × Bridge σ) :
    Except Failure α × β × Bridge τ :=
  (o.1, o.2.1, o.2.2.map p)

/-- Both compile alike. -/
theorem compile (f : GuestFunction) (b : Bridge σ) :
    f.compile j (b.map p) = (f.compile i b).map p := by
  unfold GuestFunction.compile
  rw [hs.exec]
  apply andThen
  intro _ b
  rw [hs.eval]
  apply andThen
  intro function b
  have hbatch : f.compileBatch j (b.map p) = (f.compileBatch i b).map p := by
    unfold GuestFunction.compileBatch
    rw [hs.exec]
    exact andThen fun _ b ↦ hs.eval _ b
  rw [hbatch]
  cases f.compileBatch i b with
  | mk result b => cases result <;> rfl

/-- Both use functions alike. -/
theorem withCompiled {f : GuestFunction} {b : Bridge σ}
    {use : Compiled → Bridge σ → Outcome σ α} {use' : Compiled → Bridge τ → Outcome τ α}
    (h : ∀ k b, use' k (b.map p) = (use k b).map p) :
    f.withCompiled j (b.map p) use' = shown p (f.withCompiled i b use) := by
  unfold GuestFunction.withCompiled
  cases f.compiled with
  | some k =>
    simp only [h]
    rfl
  | none =>
    simp only [hs.compile]
    cases f.compile i b with
    | mk result b =>
      cases result with
      | ok k =>
        simp only [Outcome.map, h]
        rfl
      | error e => rfl

/-- Both apply a helper alike. -/
theorem mapCompiled (batch : List (List Value)) (k : Compiled) (b : Bridge σ) :
    GuestFunction.mapCompiled j batch k (b.map p) =
      (GuestFunction.mapCompiled i batch k b).map p := by
  unfold GuestFunction.mapCompiled
  rw [hs.callValue]
  apply andThen
  intro v b
  cases v <;> rfl

/-- Both open modules alike. -/
theorem openModule (name : String) (b : Bridge σ) :
    GuestModule.open? j name (b.map p) = (GuestModule.open? i name b).map p := by
  unfold GuestModule.open?
  split
  · rw [hs.exec]
    apply andThen
    intro _ b
    rw [hs.eval]
    apply andThen
    intro v b
    cases v <;> rfl
  · rfl

/-- Both look members up alike. -/
theorem getMember (member : String) (m : GuestModule) (b : Bridge σ) :
    m.get j member (b.map p) = shown p (m.get i member b) := by
  unfold GuestModule.get
  split
  · rfl
  · cases m.members.find? member with
    | some v => rfl
    | none =>
      simp only [Bridge.getAttr, hs.ask]
      cases b.ask i (.getAttr m.object member) with
      | mk result b => cases result <;> rfl

/-- Both call members alike. -/
theorem callMember (member : String) (args : List Value) (m : GuestModule)
    (b : Bridge σ) : m.call j member args (b.map p) = shown p (m.call i member args b) := by
  unfold GuestModule.call
  rw [hs.getMember]
  cases m.get i member b with
  | mk result rest =>
    obtain ⟨m, b⟩ := rest
    cases result with
    | ok v =>
      simp only [shown, hs.callValue]
      rfl
    | error e => rfl

/-! ### Sessions -/

omit hs in
/-- Going on with the function in a slot. -/
private theorem withFunction (s : Session σ) (slot : String)
    {op : GuestFunction → Bridge σ → Except Failure α × GuestFunction × Bridge σ}
    {op' : GuestFunction → Bridge τ → Except Failure α × GuestFunction × Bridge τ}
    (h : ∀ f b, op' f (b.map p) = shown p (op f b)) :
    (s.map p).withFunction slot op' =
      (s.withFunction slot op).map fun o ↦ (o.1, o.2.map p) := by
  simp only [Session.withFunction, Session.map, h, Option.map_map]
  rfl

omit hs in
/-- Going on with the module in a slot. -/
private theorem withModule (s : Session σ) (slot : String)
    {op : GuestModule → Bridge σ → Except Failure α × GuestModule × Bridge σ}
    {op' : GuestModule → Bridge τ → Except Failure α × GuestModule × Bridge τ}
    (h : ∀ m b, op' m (b.map p) = shown p (op m b)) :
    (s.map p).withModule slot op' =
      (s.withModule slot op).map fun o ↦ (o.1, o.2.map p) := by
  simp only [Session.withModule, Session.map, h, Option.map_map]
  rfl

omit hs in
/-- Changing a result does not depend on the guest. -/
private theorem mapResult (f : α → β) (o : Option (Except Failure α × Session σ)) :
    Session.mapResult f (o.map fun o ↦ (o.1, o.2.map p)) =
      (Session.mapResult f o).map fun o ↦ (o.1, o.2.map p) := by
  simp only [Session.mapResult, Option.map_map]
  rfl

/-- Both come to the same value. -/
theorem askSession (s : Session σ) (q : Query) :
    (s.map p).ask j q = (s.ask i q).map fun o ↦ (o.1, o.2.map p) := by
  have hcall : ∀ (f : GuestFunction) (args : List Value) (b : Bridge σ),
      f.call j args (b.map p) = shown p (f.call i args b) :=
    fun f args b ↦ hs.withCompiled fun k b ↦ hs.callValue _ _ b
  cases q with
  | direct r =>
    have hanswer := hs.answer r s.bridge.toWorld
    simp only [Session.ask, Session.settle, Session.direct, Session.map, Bridge.map, hanswer]
    rfl
  | eval code => simp only [Session.ask, Session.settle, Session.map, hs.eval]; rfl
  | evalCached code =>
    simp only [Session.ask, Session.settle, Session.map, Bridge.evalCached, hs.evalThrough]
    rfl
  | resolve name =>
    simp only [Session.ask, Session.settle, Session.map, Bridge.resolve, hs.evalThrough]
    rfl
  | call name args => simp only [Session.ask, Session.settle, Session.map, hs.call]; rfl
  | callValue callee args =>
    simp only [Session.ask, Session.settle, Session.map, hs.callValue]
    rfl
  | callHandle callee args =>
    simp only [Session.ask, Session.settle, Session.map, Bridge.callHandle, hs.ask]
    rfl
  | getAttr target name =>
    simp only [Session.ask, Session.settle, Session.map, Bridge.getAttr, hs.ask]
    rfl
  | convert type value =>
    simp only [Session.ask, Session.settle, Session.map, Bridge.convert, hs.ask]
    rfl
  | newModule name =>
    simp only [Session.ask, Session.settle, Session.map, Bridge.newModule, hs.ask]
    rfl
  | copy slot =>
    simp only [Session.ask, Session.map, Option.map_map]
    rfl
  | callFunction slot args => exact withFunction s slot fun f b ↦ hcall f args b
  | callFunctionAs slot args type =>
    simp only [Session.ask]
    rw [withFunction s slot fun f b ↦ ?_, mapResult]
    apply hs.withCompiled
    intro k b
    rw [hs.callValue]
    exact andThen fun v b ↦ read type v b
  | mapFunction slot batch =>
    simp only [Session.ask]
    rw [withFunction s slot fun f b ↦ hs.withCompiled (hs.mapCompiled batch), mapResult]
    rfl
  | mapFunctionAs slot batch type =>
    simp only [Session.ask]
    rw [withFunction s slot fun f b ↦ ?_, mapResult]
    apply hs.withCompiled
    intro k b
    rw [hs.mapCompiled]
    exact andThen fun vs b ↦ read (.list type) (.array vs) b
  | getMember slot name => exact withModule s slot fun m b ↦ hs.getMember name m b
  | callMember slot name args => exact withModule s slot fun m b ↦ hs.callMember name args m b

/-- Both carry out commands alike. -/
theorem step (s : Session σ) (command : Command) :
    (s.map p).step j command = ((s.step i command).1, (s.step i command).2.map p) := by
  cases command with
  | query q slot =>
    rw [Session.step_query, Session.step_query, hs.askSession]
    cases s.ask i q with
    | none => rfl
    | some o =>
      obtain ⟨result, s⟩ := o
      cases result with
      | ok v => cases slot <;> rfl
      | error e => rfl
  | exec code =>
    rw [Session.step_exec, Session.step_exec]
    simp only [Session.settle, Session.map, hs.exec]
    cases s.bridge.exec i code with
    | mk result b => cases result <;> rfl
  | define slot text name =>
    rw [Session.step_define, Session.step_define]
    split <;> rfl
  | openModule slot name =>
    rw [Session.step_openModule, Session.step_openModule]
    simp only [Session.settle, Session.map, hs.openModule]
    cases GuestModule.open? i name s.bridge with
    | mk result b => cases result <;> rfl
  | _ => rfl

end Interpreter.Shows

/-! ### Recorded requests -/

/-- A request, with the world in which it was asked. -/
structure Asked (σ : Type) where
  request : Request
  world : World σ

/-- An interpreter that records the requests that it is asked. -/
def Interpreter.recorded (i : Interpreter σ) : Interpreter (σ × List (Asked σ)) where
  start g := ((i.start g.1).1, (i.start g.1).2, g.2)
  answer r w :=
    let before : World σ := w.map Prod.fst
    let after := i.answer r before
    (after.1, ⟨(after.2.guest, w.guest.2 ++ [⟨r, before⟩]), after.2.ledger⟩)

/-- Recording changes nothing. -/
theorem Interpreter.recorded_shows (i : Interpreter σ) : i.recorded.Shows Prod.fst i where
  start _ := rfl
  answer _ _ := rfl

end GuestBridge
