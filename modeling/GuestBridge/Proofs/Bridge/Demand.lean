import GuestBridge.Proofs.Bridge.Readiness
import GuestBridge.Proofs.Bridge.Recording
import GuestBridge.Proofs.Recency.History

/-!
# Operations that need the interpreter

Operations of bridges, functions and modules either begin with a request, and so start an
interpreter that has not been started, or they leave the interpreter alone. Which of the two it
is can be told beforehand, from what is held and kept.
-/

namespace GuestBridge

variable {σ α β γ : Type}

/-! ### What needs the interpreter -/

/-- A value that is an object of the guest. -/
def Value.isHandle : Value → Bool
  | .handle _ => true
  | _ => false

/-- Calling a function by its name needs the interpreter: to look the name up, or to call the
value. -/
def Bridge.callNeeds (name : String) (b : Bridge σ) : Bool :=
  (b.functions.find? name).elim true Value.isHandle

/-- Using one of the values of a function needs the interpreter: to compile the function, or to
call the value. -/
def GuestFunction.needs (target : Compiled → Value) (f : GuestFunction) : Bool :=
  f.compiled.elim true fun c ↦ (target c).isHandle

namespace GuestModule

/-- Looking a member up needs the interpreter. -/
def getNeeds (member : String) (m : GuestModule) : Bool :=
  !isReserved member && (m.members.find? member).isNone

/-- Calling a member needs the interpreter: to look it up, or to call it. -/
def callNeeds (member : String) (m : GuestModule) : Bool :=
  !isReserved member && (m.members.find? member).elim true Value.isHandle

end GuestModule

/-! ### Operations that begin with a request -/

/-- A property of the states of an interpreter after one request or more. -/
structure Interpreter.Follows (i : Interpreter σ) (g : σ) (P : σ → Prop) : Prop where
  first : ∀ r w, w.guest = g → P (i.answer r w).2.guest
  keeps : i.Keeps P

/-- An operation on something with a bridge in it begins with a request: if the interpreter
cannot be started this is all that comes of it, and otherwise requests are made. -/
structure Begins (i : Interpreter σ) (b : Bridge σ) (bridge : γ → Bridge σ)
    (Stays : Failure → Bridge σ → γ → Prop) (o : Except Failure α × γ) : Prop where
  refused : ∀ e b₀, b.require i = (.error e, b₀) → o.1 = .error e ∧ Stays e b₀ o.2
  reached : ∀ b₀, b.require i = (.ok (), b₀) → ∀ P, i.Follows b₀.guest P →
    (bridge o.2).Runs P

section Operations

variable {i : Interpreter σ} {b b₀ : Bridge σ} {bridge : γ → Bridge σ}
  {Stays : Failure → Bridge σ → γ → Prop} {P : σ → Prop}

/-- A bridge is ready when the interpreter has been started. -/
theorem Bridge.ready_of_require (h : b.require i = (.ok (), b₀)) : b₀.ready = true := by
  rcases require_cases i b with ⟨b₁, hb₁, hready⟩ | ⟨e, g, -, -, he⟩
  · obtain ⟨-, rfl⟩ := Prod.mk.inj (h.symm.trans hb₁)
    exact hready
  · cases h.symm.trans he

/-- On a bridge that is ready, an operation begins with a request if it makes one. -/
theorem begins_of_ready {o : Except Failure α × γ} (h : b.ready = true)
    (ho : ∀ P, i.Follows b.guest P → (bridge o.2).Runs P) : Begins i b bridge Stays o where
  refused e b₀ hb := by cases (Bridge.require_ready h).symm.trans hb
  reached b₀ hb P hP := by
    obtain ⟨-, rfl⟩ := Prod.mk.inj ((Bridge.require_ready h).symm.trans hb)
    exact ho P hP

/-- A result may be changed. -/
theorem Begins.mapResult {o : Except Failure α × γ} (h : Begins i b bridge Stays o)
    (f : α → β) : Begins i b bridge Stays (o.1.map f, o.2) where
  refused e b₀ hb := by
    obtain ⟨he, hstays⟩ := h.refused e b₀ hb
    exact ⟨by rw [he]; rfl, hstays⟩
  reached := h.reached

end Operations

/-! ### Operations of bridges, functions and modules -/

namespace Bridge

variable {i : Interpreter σ} {b : Bridge σ}

/-- An operation on a bridge begins with a request. -/
abbrev Begins (i : Interpreter σ) (b : Bridge σ) (o : Outcome σ α) : Prop :=
  GuestBridge.Begins i b id (fun _ b₀ b' ↦ b' = b₀) o

/-- An operation on something beside a bridge begins with a request. -/
abbrev BeginsWith (i : Interpreter σ) (x : β) (b : Bridge σ)
    (o : Except Failure α × β × Bridge σ) : Prop :=
  GuestBridge.Begins i b Prod.snd (fun _ b₀ p ↦ p = (x, b₀)) o

/-- A request begins with itself. -/
theorem begins_ask (i : Interpreter σ) (b : Bridge σ) (r : Request) : b.Begins i (b.ask i r) where
  refused e b₀ h := by
    rw [ask_refused h]
    exact ⟨rfl, rfl⟩
  reached b₀ h P hP := by
    have hready := ready_of_require h
    rw [ask, h]
    exact ⟨hready, hP.first r b₀.toWorld rfl⟩

/-- What begins with a request may go on. -/
theorem Begins.andThen {o : Outcome σ α} {next : α → Bridge σ → Outcome σ β} (h : b.Begins i o)
    (hn : ∀ P, i.Keeps P → ∀ x b, b.Runs P → (next x b).2.Runs P) :
    b.Begins i (o.andThen next) where
  refused e b₀ hb := by
    obtain ⟨he, hstays⟩ := h.refused e b₀ hb
    obtain ⟨result, b'⟩ := o
    obtain rfl : result = .error e := he
    exact ⟨rfl, hstays⟩
  reached b₀ hb P hP := Outcome.andThen_runs (h.reached b₀ hb P hP) (hn P hP.keeps)

/-- Executing code begins with a request. -/
theorem begins_exec (i : Interpreter σ) (b : Bridge σ) (code : String) :
    b.Begins i (b.exec i code) :=
  (begins_ask i b _).andThen fun _ _ _ _ h ↦ h.of_guest rfl rfl

/-- Looking up a text that is not held begins with a request. -/
theorem begins_evalThrough {m : Memo} {code : String} (h : ¬ (b.memo m).contains code) :
    b.Begins i (b.evalThrough i m code) := by
  unfold evalThrough
  rw [Recency.get_eq_of_not_contains h]
  exact (begins_ask i b _).andThen fun _ _ v b h ↦
    h.of_guest (remember_ready m code v b) (remember_guest m code v b)

/-- Calling an object begins with a request. -/
theorem begins_callValue {callee : Value} (h : callee.isHandle) (args : List Value)
    (b : Bridge σ) : b.Begins i (b.callValue i callee args) := by
  cases callee with
  | handle k => exact begins_ask i b _
  | _ => cases h

/-- Applying a helper that is an object begins with a request. -/
theorem begins_mapCompiled {c : Compiled} (h : c.batch.isHandle) (batch : List (List Value))
    (b : Bridge σ) : b.Begins i (GuestFunction.mapCompiled i batch c b) :=
  (begins_callValue h _ b).andThen fun _ _ v _ h ↦ by cases v <;> exact h.of_guest rfl rfl

/-- An object is called on a bridge that is ready. -/
theorem callValue_reached {P : σ → Prop} {callee : Value} (h : callee.isHandle)
    (hb : b.ready = true) (hP : i.Follows b.guest P) (args : List Value) :
    (b.callValue i callee args).2.Runs P :=
  (begins_callValue h args b).reached b (require_ready hb) P hP

/-- Calling a function by its name, when the value of the name is held. -/
theorem call_of_held {name : String} {v : Value} (h : b.functions.find? name = some v)
    (args : List Value) :
    let b' := (b.withMemo (b.functions.touch name) .functions).retain v
    b.call i name args = ((b'.callValue i v args).1, (b'.callValue i v args).2.drop v) := by
  have hget : (b.memo .functions).get name = (some v, b.functions.touch name) := by
    rw [memo, Recency.get, h]
  rw [call, resolve, evalThrough, hget]
  rfl

/-- Looking up a member that is kept. -/
theorem getMember_of_kept {m : GuestModule} {member : String} {v : Value}
    (hreserved : GuestModule.isReserved member = false) (h : m.members.find? member = some v) :
    m.get i member b = (.ok v, m, b.retain v) := by
  rw [GuestModule.get, hreserved, h]
  rfl

/-- Calling a function by its name begins with a request, on a bridge that is ready if the
value of the name is held. -/
theorem begins_call {name : String} (h : b.callNeeds name)
    (hready : b.functions.contains name → b.ready = true) (args : List Value) :
    b.Begins i (b.call i name args) := by
  by_cases hheld : b.functions.contains name
  -- The value is touched and copied before it is called, so the bridge has to be ready.
  · obtain ⟨v, hv, -⟩ := Recency.exists_get_eq hheld
    have hb := hready hheld
    refine begins_of_ready hb fun P hP ↦ ?_
    rw [callNeeds, hv] at h
    rw [call_of_held hv]
    have hcall := callValue_reached (b := (b.withMemo (b.functions.touch name) .functions).retain v)
      h hb hP args
    exact hcall.of_guest rfl rfl
  · exact (begins_evalThrough (m := .functions) hheld).andThen fun P hP callee b h ↦
      (h.callValue hP callee args).of_guest rfl rfl

/-- Compiling begins with a request. -/
theorem begins_compile (i : Interpreter σ) (f : GuestFunction) (b : Bridge σ) :
    b.Begins i (f.compile i b) :=
  (begins_exec i b _).andThen fun _ hP _ _ h ↦ h.lookUpNames hP f

/-- Using a function begins with a request if it is not compiled, or if the use of its values
does. -/
theorem begins_withCompiled {f : GuestFunction} {use : Compiled → Bridge σ → Outcome σ α}
    {target : Compiled → Value} (hneeds : f.needs target)
    (huse : ∀ c, (target c).isHandle → ∀ b : Bridge σ, b.Begins i (use c b))
    (hruns : ∀ P, i.Keeps P → ∀ c b, b.Runs P → (use c b).2.Runs P) :
    b.BeginsWith i f (f.withCompiled i b use) := by
  unfold GuestFunction.needs at hneeds
  unfold GuestFunction.withCompiled
  cases hf : f.compiled with
  | some c =>
    rw [hf] at hneeds
    have hbegins := huse c hneeds b
    refine ⟨fun e b₀ hb ↦ ?_, hbegins.reached⟩
    obtain ⟨he, hstays⟩ := hbegins.refused e b₀ hb
    exact ⟨he, Prod.ext rfl hstays⟩
  | none =>
    have hbegins := begins_compile i f b
    cases hr : f.compile i b with
    | mk result b' =>
      rw [hr] at hbegins
      refine ⟨fun e b₀ hb ↦ ?_, fun b₀ hb P hP ↦ ?_⟩
      · obtain ⟨rfl, rfl⟩ := hbegins.refused e b₀ hb
        exact ⟨rfl, rfl⟩
      · have hreached := hbegins.reached b₀ hb P hP
        cases result with
        | ok c => exact hruns P hP.keeps c b' hreached
        | error e => exact hreached

/-- Opening a module begins with a request if its name is a path. -/
theorem begins_openModule {name : String} (h : GuestModule.isPath name) (b : Bridge σ) :
    b.Begins i (GuestModule.open? i name b) := by
  unfold GuestModule.open?
  rw [if_pos h]
  exact (begins_exec i b _).andThen fun _ hP _ _ h ↦ h.lookUpModule hP name

/-- Looking a member up begins with a request if it needs one. -/
theorem begins_getMember {m : GuestModule} {member : String} (h : m.getNeeds member)
    (b : Bridge σ) : b.BeginsWith i m (m.get i member b) := by
  obtain ⟨hreserved, hmissing⟩ := Bool.and_eq_true_iff.1 h
  rw [Bool.not_eq_true'] at hreserved
  rw [Option.isNone_iff_eq_none] at hmissing
  have hget := begins_ask i b (.getAttr m.object member)
  rw [GuestModule.get, hreserved, hmissing, getAttr]
  simp only [Bool.false_eq_true, if_false]
  cases hr : b.ask i (.getAttr m.object member) with
  | mk result b' =>
    rw [hr] at hget
    refine ⟨fun e b₀ hb ↦ ?_, fun b₀ hb P hP ↦ ?_⟩
    · obtain ⟨rfl, rfl⟩ := hget.refused e b₀ hb
      exact ⟨rfl, rfl⟩
    · have hreached := hget.reached b₀ hb P hP
      cases result with
      | ok v => exact hreached.of_guest rfl rfl
      | error e => exact hreached

/-- On a bridge that is ready, calling a member begins with a request if it needs one. -/
theorem begins_callMember {m : GuestModule} {member : String} (h : m.callNeeds member)
    (hb : b.ready = true) (args : List Value) :
    b.BeginsWith i m (m.call i member args b) := by
  refine begins_of_ready hb fun P hP ↦ ?_
  obtain ⟨hreserved, hvalue⟩ := Bool.and_eq_true_iff.1 h
  cases hkept : m.members.find? member with
  | some v =>
    rw [hkept] at hvalue
    rw [Bool.not_eq_true'] at hreserved
    have hcall := callValue_reached (b := b.retain v) hvalue hb hP args
    rw [GuestModule.call, getMember_of_kept hreserved hkept]
    exact hcall.of_guest rfl rfl
  | none =>
    have hneeds : m.getNeeds member := by
      rw [GuestModule.getNeeds, hreserved, hkept]
      rfl
    have hget := (begins_getMember (i := i) hneeds b).reached b (require_ready hb) P hP
    rw [GuestModule.call]
    cases hr : m.get i member b with
    | mk result p =>
      rw [hr] at hget
      cases result with
      | ok v => exact (Runs.callValue hP.keeps hget v args).of_guest rfl rfl
      | error e => exact hget

end Bridge

/-! ### Operations that do not need the interpreter -/

namespace Bridge

variable {i : Interpreter σ} {b b' : Bridge σ}

/-- Nothing happens to the interpreter. -/
structure Rests (b b' : Bridge σ) : Prop where
  guest : b'.guest = b.guest
  ready : b'.ready = b.ready

/-- A text that is held is looked up without the interpreter. -/
theorem rests_evalThrough {m : Memo} {code : String} (h : (b.memo m).contains code) :
    b.Rests (b.evalThrough i m code).2 := by
  obtain ⟨v, -, hget⟩ := Recency.exists_get_eq h
  unfold evalThrough
  rw [hget]
  cases m <;> exact ⟨rfl, rfl⟩

/-- A value that is not an object is not called. -/
theorem callValue_of_not_isHandle {callee : Value} (h : callee.isHandle = false)
    (args : List Value) (b : Bridge σ) :
    b.callValue i callee args = (.error (.notCallable callee), b.retain callee) := by
  cases callee with
  | handle k => cases h
  | _ => rfl

/-- A value that is not an object is not called by its name either. -/
theorem rests_call {name : String} (h : b.callNeeds name = false) (args : List Value) :
    b.Rests (b.call i name args).2 := by
  cases hv : b.functions.find? name with
  | none =>
    rw [callNeeds, hv] at h
    cases h
  | some v =>
    rw [callNeeds, hv] at h
    rw [call_of_held hv, callValue_of_not_isHandle h]
    exact ⟨rfl, rfl⟩

/-- Using a function that is compiled rests if the use of its values does. -/
theorem rests_withCompiled {f : GuestFunction} {use : Compiled → Bridge σ → Outcome σ α}
    {target : Compiled → Value} (hneeds : f.needs target = false)
    (huse : ∀ c, (target c).isHandle = false → b.Rests (use c b).2) :
    b.Rests (f.withCompiled i b use).2.2 := by
  unfold GuestFunction.needs at hneeds
  unfold GuestFunction.withCompiled
  cases hf : f.compiled with
  | some c =>
    rw [hf] at hneeds
    exact huse c hneeds
  | none =>
    rw [hf] at hneeds
    cases hneeds

/-- A helper that is not an object is not applied. -/
theorem rests_mapCompiled {c : Compiled} (h : c.batch.isHandle = false)
    (batch : List (List Value)) : b.Rests (GuestFunction.mapCompiled i batch c b).2 := by
  rw [GuestFunction.mapCompiled, callValue_of_not_isHandle h]
  exact ⟨rfl, rfl⟩

/-- Nothing is asked for a member that is kept or never looked up. -/
theorem rests_getMember {m : GuestModule} {member : String} (h : m.getNeeds member = false) :
    b.Rests (m.get i member b).2.2 := by
  unfold GuestModule.get
  split
  · exact ⟨rfl, rfl⟩
  · next hreserved =>
    cases hkept : m.members.find? member with
    | some v => exact ⟨rfl, rfl⟩
    | none => simp [GuestModule.getNeeds, hreserved, hkept] at h

/-- Nothing is asked for a member that is kept and no object, or never looked up. -/
theorem rests_callMember {m : GuestModule} {member : String} (h : m.callNeeds member = false)
    (args : List Value) : b.Rests (m.call i member args b).2.2 := by
  cases hreserved : GuestModule.isReserved member with
  | true =>
    rw [GuestModule.call, GuestModule.get, hreserved]
    exact ⟨rfl, rfl⟩
  | false =>
    rw [GuestModule.callNeeds, hreserved] at h
    cases hkept : m.members.find? member with
    | some v =>
      rw [hkept] at h
      rw [GuestModule.call, getMember_of_kept hreserved hkept]
      simp only [callValue_of_not_isHandle h]
      exact ⟨rfl, rfl⟩
    | none =>
      rw [hkept] at h
      cases h

end Bridge

end GuestBridge
