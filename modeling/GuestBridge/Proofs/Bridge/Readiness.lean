import GuestBridge.Bridge.Session

/-!
# A started interpreter stays started

No operation of a bridge, of a function, of a module or of a session stops an interpreter, and
none of them does anything to a started interpreter but to ask it. So what holds of its state
and is kept by every answer holds after every command.
-/

namespace GuestBridge

variable {σ α β : Type} {i : Interpreter σ} {P : σ → Prop} {b : Bridge σ}

/-- A property of states that no answer breaks. -/
def Interpreter.Keeps (i : Interpreter σ) (P : σ → Prop) : Prop :=
  ∀ r w, P w.guest → P (i.answer r w).2.guest

/-- The interpreter has been started, and its state has a property. -/
structure Bridge.Runs (P : σ → Prop) (b : Bridge σ) : Prop where
  ready : b.ready = true
  guest : P b.guest

/-- Going on with a result. -/
theorem Outcome.andThen_runs {o : Outcome σ α} {next : α → Bridge σ → Outcome σ β}
    (h : o.2.Runs P) (hn : ∀ x b, b.Runs P → (next x b).2.Runs P) :
    (o.andThen next).2.Runs P := by
  obtain ⟨result, b⟩ := o
  cases result with
  | ok x => exact hn x b h
  | error e => exact h

namespace Bridge

/-- What a bridge does with its ledger and its caches does not show in the interpreter. -/
theorem Runs.of_guest {b' : Bridge σ} (h : b.Runs P) (hready : b'.ready = b.ready)
    (hguest : b'.guest = b.guest) : b'.Runs P :=
  ⟨hready.trans h.ready, hguest ▸ h.guest⟩

/-- Keeping a value is not seen by the interpreter. -/
theorem remember_guest (m : Memo) (code : String) (v : Value) (b : Bridge σ) :
    (b.remember m code v).guest = b.guest := by
  cases m <;> rfl

/-- Keeping a value does not start or stop the interpreter. -/
theorem remember_ready (m : Memo) (code : String) (v : Value) (b : Bridge σ) :
    (b.remember m code v).ready = b.ready := by
  cases m <;> rfl

/-- Reading a value is not seen by the interpreter. -/
theorem read_guest (b : Bridge σ) (t : HostType) (v : Value) : (b.read t v).2.guest = b.guest := by
  unfold read
  split <;> rfl

/-- Reading a value does not start or stop the interpreter. -/
theorem read_ready (b : Bridge σ) (t : HostType) (v : Value) : (b.read t v).2.ready = b.ready := by
  unfold read
  split <;> rfl

section Asking

variable (hP : i.Keeps P)

include hP

/-- A request is answered. -/
theorem Runs.ask (h : b.Runs P) (r : Request) : (b.ask i r).2.Runs P := by
  have hrequire : b.require i = (.ok (), b) := by simp [require, h.ready]
  rw [Bridge.ask, hrequire]
  exact ⟨h.ready, hP r b.toWorld h.guest⟩

/-- Code is executed. -/
theorem Runs.exec (h : b.Runs P) (code : String) : (b.exec i code).2.Runs P :=
  Outcome.andThen_runs (h.ask hP _) fun _ _ h ↦ h.of_guest rfl rfl

/-- A cache is looked into first. -/
theorem Runs.evalThrough (h : b.Runs P) (m : Memo) (code : String) :
    (b.evalThrough i m code).2.Runs P := by
  unfold Bridge.evalThrough
  split
  · cases m <;> exact h.of_guest rfl rfl
  · apply Outcome.andThen_runs (h.ask hP _)
    exact fun v b h ↦ h.of_guest (remember_ready m code v b) (remember_guest m code v b)

/-- A value is called. -/
theorem Runs.callValue (h : b.Runs P) (callee : Value) (args : List Value) :
    (b.callValue i callee args).2.Runs P := by
  cases callee with
  | handle k => exact h.ask hP _
  | _ => exact h.of_guest rfl rfl

/-- A function is called by its name. -/
theorem Runs.call (h : b.Runs P) (name : String) (args : List Value) :
    (b.call i name args).2.Runs P :=
  Outcome.andThen_runs (h.evalThrough hP _ _) fun callee _ h ↦
    (h.callValue hP callee args).of_guest rfl rfl

omit hP in
/-- A value is read. -/
theorem Runs.read (h : b.Runs P) (t : HostType) (v : Value) : (b.read t v).2.Runs P :=
  h.of_guest (read_ready b t v) (read_guest b t v)

/-- The definition of a helper is evaluated. -/
theorem Runs.compileBatch (h : b.Runs P) (f : GuestFunction) : (f.compileBatch i b).2.Runs P :=
  Outcome.andThen_runs (h.exec hP _) fun _ _ h ↦ h.ask hP _

/-- Both names of a function are looked up, and the helper is defined in between. -/
theorem Runs.lookUpNames (h : b.Runs P) (f : GuestFunction) :
    ((b.eval i f.guestName).andThen fun function b ↦
      match f.compileBatch i b with
      | (.ok batch, b) => (.ok (⟨function, batch⟩ : Compiled), b)
      | (.error e, b) => (.error e, b.drop function)).2.Runs P := by
  apply Outcome.andThen_runs (h.ask hP _)
  intro function b h
  have hbatch := h.compileBatch hP f
  split
  · next heq => rw [heq] at hbatch; exact hbatch
  · next heq => rw [heq] at hbatch; exact hbatch.of_guest rfl rfl

/-- A function is compiled. -/
theorem Runs.compile (h : b.Runs P) (f : GuestFunction) : (f.compile i b).2.Runs P :=
  Outcome.andThen_runs (h.exec hP _) fun _ _ h ↦ h.lookUpNames hP f

/-- A function is used. -/
theorem Runs.withCompiled {use : Compiled → Bridge σ → Outcome σ α} (h : b.Runs P)
    (f : GuestFunction) (huse : ∀ c b, b.Runs P → (use c b).2.Runs P) :
    (f.withCompiled i b use).2.2.Runs P := by
  have hcompile := h.compile hP f
  unfold GuestFunction.withCompiled
  split
  · exact huse _ _ h
  · split
    · next heq => rw [heq] at hcompile; exact huse _ _ hcompile
    · next heq => rw [heq] at hcompile; exact hcompile

/-- A helper is applied. -/
theorem Runs.mapCompiled (h : b.Runs P) (batch : List (List Value)) (c : Compiled) :
    (GuestFunction.mapCompiled i batch c b).2.Runs P := by
  apply Outcome.andThen_runs (h.callValue hP _ _)
  intro v b h
  cases v <;> exact h.of_guest rfl rfl

/-- The object of a module is looked up. -/
theorem Runs.lookUpModule (h : b.Runs P) (name : String) :
    ((b.eval i name).andThen fun v b ↦
      match v with
      | .handle h => (.ok (⟨name, h, Slots.empty⟩ : GuestModule), b)
      | other => (.error (.conversion "module" other.kind), b.drop other)).2.Runs P := by
  apply Outcome.andThen_runs (h.ask hP _)
  intro v b h
  cases v <;> exact h.of_guest rfl rfl

/-- A module is opened. -/
theorem Runs.openModule (h : b.Runs P) (name : String) :
    (GuestModule.open? i name b).2.Runs P := by
  unfold GuestModule.open?
  split
  · exact Outcome.andThen_runs (h.exec hP _) fun _ _ h ↦ h.lookUpModule hP name
  · exact h

/-- A member is looked up. -/
theorem Runs.getMember (h : b.Runs P) (member : String) (m : GuestModule) :
    (m.get i member b).2.2.Runs P := by
  have hask := h.ask hP (.getAttr m.object member)
  unfold GuestModule.get
  split
  · exact h
  · split
    · exact h.of_guest rfl rfl
    · split
      · next heq => rw [Bridge.getAttr] at heq; rw [heq] at hask; exact hask.of_guest rfl rfl
      · next heq => rw [Bridge.getAttr] at heq; rw [heq] at hask; exact hask

/-- A member is called. -/
theorem Runs.callMember (h : b.Runs P) (member : String) (args : List Value)
    (m : GuestModule) : (m.call i member args b).2.2.Runs P := by
  have hget := h.getMember hP member m
  unfold GuestModule.call
  split
  · next heq => rw [heq] at hget; exact (hget.callValue hP _ _).of_guest rfl rfl
  · next heq => rw [heq] at hget; exact hget

end Asking

/-- Calling a value does not stop the interpreter. -/
theorem callValue_stays_ready (h : b.ready = true) (callee : Value) (args : List Value) :
    (b.callValue i callee args).2.ready = true :=
  (Runs.callValue (P := fun _ ↦ True) (fun _ _ _ ↦ trivial) ⟨h, trivial⟩ callee args).ready

end Bridge

namespace Session

variable {s : Session σ}

/-- What holds of the bridge that an operation on the function in a slot leaves. -/
theorem bridge_withFunction {Q : Bridge σ → Prop} {slot : String}
    {o : Except Failure α × Session σ}
    {op : GuestFunction → Bridge σ → Except Failure α × GuestFunction × Bridge σ}
    (hop : ∀ f, s.functions.find? slot = some f → Q (op f s.bridge).2.2)
    (ho : s.withFunction slot op = some o) : Q o.2.bridge := by
  obtain ⟨f, hf, rfl⟩ := Option.map_eq_some_iff.1 ho
  exact hop f hf

/-- What holds of the bridge that an operation on the module in a slot leaves. -/
theorem bridge_withModule {Q : Bridge σ → Prop} {slot : String}
    {o : Except Failure α × Session σ}
    {op : GuestModule → Bridge σ → Except Failure α × GuestModule × Bridge σ}
    (hop : ∀ m, s.modules.find? slot = some m → Q (op m s.bridge).2.2)
    (ho : s.withModule slot op = some o) : Q o.2.bridge := by
  obtain ⟨m, hm, rfl⟩ := Option.map_eq_some_iff.1 ho
  exact hop m hm

/-- Changing a result does not touch the bridge. -/
theorem bridge_mapResult {Q : Bridge σ → Prop} {f : α → β}
    {o : Option (Except Failure α × Session σ)} {r : Except Failure β × Session σ}
    (ho : ∀ x, o = some x → Q x.2.bridge) (hr : mapResult f o = some r) : Q r.2.bridge := by
  obtain ⟨x, hx, rfl⟩ := Option.map_eq_some_iff.1 hr
  exact ho x hx

/-- What no answer breaks no query breaks. -/
theorem ask_runs (hP : i.Keeps P) (h : s.bridge.Runs P) {q : Query}
    {o : Except Failure Value × Session σ} (ho : s.ask i q = some o) : o.2.bridge.Runs P := by
  cases q with
  | direct r => cases ho; exact ⟨h.ready, hP r s.bridge.toWorld h.guest⟩
  | eval code => cases ho; exact h.ask hP _
  | evalCached code => cases ho; exact h.evalThrough hP _ _
  | resolve name => cases ho; exact h.evalThrough hP _ _
  | call name args => cases ho; exact h.call hP _ _
  | callValue callee args => cases ho; exact h.callValue hP _ _
  | callHandle callee args => cases ho; exact h.ask hP _
  | getAttr target name => cases ho; exact h.ask hP _
  | convert type value => cases ho; exact h.ask hP _
  | newModule name => cases ho; exact h.ask hP _
  | copy slot =>
    obtain ⟨v, -, rfl⟩ := Option.map_eq_some_iff.1 ho
    exact h.of_guest rfl rfl
  | callFunction slot args =>
    have ho : s.withFunction slot (fun f ↦ f.call i args) = some o := ho
    refine bridge_withFunction (fun f _ ↦ ?_) ho
    exact h.withCompiled hP f fun c b h ↦ h.callValue hP _ _
  | callFunctionAs slot args type =>
    refine bridge_mapResult (fun x hx ↦ bridge_withFunction (fun f _ ↦ ?_) hx) ho
    apply h.withCompiled hP f
    intro c b h
    exact Outcome.andThen_runs (h.callValue hP _ _) fun v b h ↦ h.read type v
  | mapFunction slot batch =>
    refine bridge_mapResult (fun x hx ↦ bridge_withFunction (fun f _ ↦ ?_) hx) ho
    exact h.withCompiled hP f fun c b h ↦ h.mapCompiled hP _ _
  | mapFunctionAs slot batch type =>
    refine bridge_mapResult (fun x hx ↦ bridge_withFunction (fun f _ ↦ ?_) hx) ho
    apply h.withCompiled hP f
    intro c b h
    exact Outcome.andThen_runs (h.mapCompiled hP _ _) fun vs b h ↦ h.read _ _
  | getMember slot name => exact bridge_withModule (fun m _ ↦ h.getMember hP name m) ho
  | callMember slot name args => exact bridge_withModule (fun m _ ↦ h.callMember hP name args m) ho

/-- What no answer breaks no command breaks. -/
theorem step_runs (hP : i.Keeps P) (h : s.bridge.Runs P) (command : Command) :
    (s.step i command).2.bridge.Runs P := by
  cases command with
  | query q slot =>
    rw [step_query]
    cases ho : s.ask i q with
    | none => exact h
    | some o =>
      have hasked := ask_runs hP h ho
      obtain ⟨result, s'⟩ := o
      cases result with
      | error e => exact hasked.of_guest rfl rfl
      | ok v => cases slot <;> exact hasked.of_guest rfl rfl
  | exec code =>
    rw [step_exec]
    have hexec := h.exec hP code
    simp only [settle]
    cases (s.bridge.exec i code).1 <;> exact hexec.of_guest rfl rfl
  | define slot text name =>
    rw [step_define]
    split <;> exact h.of_guest rfl rfl
  | openModule slot name =>
    rw [step_openModule]
    have hopen := h.openModule hP name
    simp only [settle]
    cases (GuestModule.open? i name s.bridge).1 <;> exact hopen.of_guest rfl rfl
  | _ => exact h.of_guest rfl rfl

/-- A command does not stop the interpreter. -/
theorem step_stays_ready (h : s.bridge.ready = true) (command : Command) :
    (s.step i command).2.bridge.ready = true :=
  (step_runs (P := fun _ ↦ True) (fun _ _ _ ↦ trivial) ⟨h, trivial⟩ command).ready

end Session

end GuestBridge
