import GuestBridge.Proofs.Bridge.Projection

/-!
# Requests as they are recorded

What the operations of a bridge come to when the interpreter records its requests: the same as
without the record, and the requests that were sent are added to it in order. An interpreter
that has been started is asked at once; one that has not is started first, and if that fails
nothing is asked.
-/

namespace GuestBridge

variable {σ α : Type}

/-- A bridge whose interpreter records its requests, behind those recorded so far. -/
def Bridge.recording (b : Bridge σ) (log : List (Asked σ)) : Bridge (σ × List (Asked σ)) :=
  { guest := (b.guest, log), ledger := b.ledger, ready := b.ready
    expressions := b.expressions, functions := b.functions }

/-- What is recorded does not show. -/
@[simp] theorem Bridge.map_recording (b : Bridge σ) (log : List (Asked σ)) :
    (b.recording log).map Prod.fst = b := rfl

namespace Bridge

/-- A bridge goes on with a world. -/
def onto (b : Bridge σ) (w : World σ) : Bridge σ :=
  { b with toWorld := w }

/-- A bridge that takes over a world keeps its caches. -/
@[simp] theorem onto_ready (b : Bridge σ) (w : World σ) : (b.onto w).ready = b.ready := rfl

/-- A bridge that takes over a world has that world. -/
@[simp] theorem onto_toWorld (b : Bridge σ) (w : World σ) : (b.onto w).toWorld = w := rfl

/-- Of two worlds taken over one after the other, the second one counts. -/
@[simp] theorem onto_onto (b : Bridge σ) (w w' : World σ) : (b.onto w).onto w' = b.onto w' := rfl

/-- Dropping a value changes the world alone. -/
@[simp] theorem drop_onto (b : Bridge σ) (w : World σ) (v : Value) :
    (b.onto w).drop v = b.onto (w.drop v) := rfl

/-- Dropping a value leaves the caches alone. -/
@[simp] theorem drop_ready (b : Bridge σ) (v : Value) : (b.drop v).ready = b.ready := rfl

/-- Copying a value does not touch the record. -/
@[simp] theorem recording_retain (b : Bridge σ) (log : List (Asked σ)) (v : Value) :
    (b.recording log).retain v = (b.retain v).recording log := rfl

/-- Dropping a value does not touch the record. -/
@[simp] theorem recording_drop (b : Bridge σ) (log : List (Asked σ)) (v : Value) :
    (b.recording log).drop v = (b.drop v).recording log := rfl

variable {i : Interpreter σ} {b b₀ : Bridge σ}

/-- A bridge that is ready need not be started. -/
theorem require_ready (h : b.ready = true) : b.require i = (.ok (), b) := by
  simp [require, h]

/-- Starting leaves a bridge ready, or fails as the interpreter does. -/
theorem require_cases (i : Interpreter σ) (b : Bridge σ) :
    (∃ b₀, b.require i = (.ok (), b₀) ∧ b₀.ready = true) ∨
      ∃ e g, b.ready = false ∧ i.start b.guest = (.error e, g) ∧
        b.require i = (.error e, { b with guest := g }) := by
  by_cases hr : b.ready
  · exact .inl ⟨b, require_ready hr, hr⟩
  · have hr : b.ready = false := by simpa using hr
    rcases hs : i.start b.guest with ⟨e | u, g⟩
    · exact .inr ⟨e, g, hr, rfl, by simp [require, hr, hs]⟩
    · exact .inl ⟨{ b with guest := g, ready := true }, by simp [require, hr, hs], rfl⟩

/-- Starting is not recorded. -/
theorem require_recording {result : Except Failure Unit} (h : b.require i = (result, b₀))
    (log : List (Asked σ)) :
    (b.recording log).require i.recorded = (result, b₀.recording log) := by
  by_cases hr : b.ready
  · obtain ⟨rfl, rfl⟩ := Prod.mk.inj ((require_ready hr).symm.trans h)
    exact require_ready hr
  · rcases hs : i.start b.guest with ⟨e | u, g⟩
    · simp only [require, hr, hs] at h
      obtain ⟨rfl, rfl⟩ := Prod.mk.inj h
      simp [require, recording, Interpreter.recorded, hr, hs]
    · simp only [require, hr, hs] at h
      obtain ⟨rfl, rfl⟩ := Prod.mk.inj h
      simp [require, recording, Interpreter.recorded, hr, hs]

/-- A bridge that has been started asks at once. -/
theorem ask_ready (h : b.ready = true) (r : Request) :
    b.ask i r = ((i.answer r b.toWorld).1, b.onto (i.answer r b.toWorld).2) := by
  simp [ask, require_ready h, onto]

/-- A bridge that can be started asks when it has been. -/
theorem ask_required (h : b.require i = (.ok (), b₀)) (h₀ : b₀.ready = true) (r : Request) :
    b.ask i r = b₀.ask i r := by
  simp [ask, h, require_ready h₀]

/-- A bridge that cannot be started does not ask. -/
theorem ask_refused {e : Failure} (h : b.require i = (.error e, b₀)) (r : Request) :
    b.ask i r = (.error e, b₀) := by
  simp [ask, h]

/-- A bridge that has been started records what it asks. -/
theorem ask_recording (h : b.ready = true) (r : Request) (log : List (Asked σ)) :
    (b.recording log).ask i.recorded r =
      ((b.ask i r).1, (b.ask i r).2.recording (log ++ [⟨r, b.toWorld⟩])) := by
  have hrec : (b.recording log).ready = true := h
  rw [ask_ready h, ask_ready hrec]
  rfl

/-- A bridge is started and asks, and records that, or it cannot be started. -/
theorem ask_recording_cases (i : Interpreter σ) (b : Bridge σ) (r : Request)
    (log : List (Asked σ)) :
    (∃ b₀ result w, b.require i = (.ok (), b₀) ∧ i.answer r b₀.toWorld = (result, w) ∧
      (b.recording log).ask i.recorded r =
        (result, (b₀.onto w).recording (log ++ [⟨r, b₀.toWorld⟩]))) ∨
      ∃ e b₀, b.require i = (.error e, b₀) ∧
        (b.recording log).ask i.recorded r = (.error e, b₀.recording log) := by
  rcases require_cases i b with ⟨b₀, hb, h₀⟩ | ⟨e, g, -, -, hb⟩
  · have hready : (b₀.recording log).ready = true := h₀
    refine .inl ⟨b₀, _, _, hb, rfl, ?_⟩
    rw [ask_required (require_recording hb log) hready, ask_recording h₀, ask_ready h₀]
  · exact .inr ⟨e, _, hb, ask_refused (require_recording hb log) r⟩

/-- A value that is called records the call. -/
theorem callValue_recording (i : Interpreter σ) (v : Value) (args : List Value) (b : Bridge σ)
    (log : List (Asked σ)) :
    ∃ rest, (b.recording log).callValue i.recorded v args =
        ((b.callValue i v args).1, (b.callValue i v args).2.recording (log ++ rest)) ∧
      ∀ a ∈ rest, ∃ h, v = .handle h ∧ a.request = .call h args := by
  cases v with
  | handle h =>
    rcases ask_recording_cases i b (.call h args) log with
      ⟨b₀, result, w, hb, ha, hask⟩ | ⟨e, b₀, hb, hask⟩
    · refine ⟨[⟨.call h args, b₀.toWorld⟩], ?_, by simp⟩
      have hcall : b.ask i (.call h args) = (result, b₀.onto w) := by
        rw [ask, hb, Outcome.andThen_ok, ha]
        rfl
      simp only [callValue, callHandle, hcall, hask]
    · refine ⟨[], ?_, by simp⟩
      simp only [callValue, callHandle, ask_refused hb, hask, List.append_nil]
  | _ => exact ⟨[], by simp [callValue], by simp⟩

/-- A bridge that has been started evaluates at once. -/
theorem eval_answered {code : String} {result : Except Failure Value} {w : World σ}
    (h : b.ready = true) (ha : i.answer (.eval code) b.toWorld = (result, w)) :
    b.eval i code = (result, b.onto w) := by
  rw [eval, ask_ready h, ha]

/-- A bridge that has been started executes at once, and drops the value. -/
theorem exec_answered {code : String} {v : Value} {w : World σ} (h : b.ready = true)
    (ha : i.answer (.eval code) b.toWorld = (.ok v, w)) :
    b.exec i code = (.ok (), b.onto (w.drop v)) := by
  rw [exec, eval_answered h ha]
  rfl

end Bridge

end GuestBridge
