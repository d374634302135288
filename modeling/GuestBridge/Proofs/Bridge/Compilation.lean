import GuestBridge.Proofs.Bridge.Recording
import GuestBridge.Proofs.Bridge.SessionCustody

/-!
# Compiling a function at most once

A function is used again and again, by calls and by maps, on a bridge on which anything else may
happen in between. The first uses may fail, each at one of five points: the start of the
interpreter and four evaluations. They leave the function as it was, and nothing is held of them
but the failure. The first use that gets through makes the function keep the two values that it
came by, and every use from then on asks for nothing but one call.
-/

namespace GuestBridge

variable {σ : Type}

/-! ### Uses and their reports -/

/-- A use of a function. -/
inductive Use where
  | call (args : List Value)
  | map (batch : List (List Value))

namespace Use

/-- The value of a compiled function that a use calls. -/
def target (c : Compiled) : Use → Value
  | .call _ => c.function
  | .map _ => c.batch

/-- What a use calls it with: a batch is one array of tuples. -/
def args : Use → List Value
  | .call args => args
  | .map batch => [.array (batch.map .tuple)]

/-- What a use makes of the answer: the results of a batch have to be an array. -/
def finish (u : Use) (result : Except Failure Value) (b : Bridge σ) : Outcome σ Value :=
  match u, result with
  | .call _, result => (result, b)
  | .map _, .ok (.array vs) => (.ok (.array vs), b)
  | .map _, .ok v => (.error (.conversion "array" v.kind), b.drop v)
  | .map _, .error e => (.error e, b)

/-- Use a compiled function. -/
def run (i : Interpreter σ) (u : Use) (c : Compiled) (b : Bridge σ) : Outcome σ Value :=
  u.finish (b.callValue i (u.target c) u.args).1 (b.callValue i (u.target c) u.args).2

end Use

/-- Use a function. The results of a batch are shown as an array. -/
def GuestFunction.use (i : Interpreter σ) (u : Use) (f : GuestFunction) (b : Bridge σ) :
    Except Failure Value × GuestFunction × Bridge σ :=
  match u with
  | .call args => f.call i args b
  | .map batch => ((f.map i batch b).1.map .array, (f.map i batch b).2)

/-- The query that uses the function in a slot. -/
def Use.query (slot : String) : Use → Query
  | .call args => .callFunction slot args
  | .map batch => .mapFunction slot batch

/-- What a use of a function found, what it came to, and the requests that it sent. -/
structure Report (σ : Type) where
  use : Use
  before : GuestFunction
  found : Bridge σ
  result : Except Failure Value
  after : GuestFunction
  left : Bridge σ
  asked : List (Asked σ)

/-- Use a function and report. -/
def GuestFunction.report (i : Interpreter σ) (u : Use) (f : GuestFunction) (b : Bridge σ) :
    Report σ :=
  let (result, after, left) := f.use i.recorded u (b.recording [])
  ⟨u, f, b, result, after, left.map Prod.fst, left.guest.2⟩

/-- A use of a function, after whatever else happens to the bridge. The interpreter is not
stopped by it. -/
structure Visit (σ : Type) where
  elsewhere : Bridge σ → Bridge σ
  ready : ∀ b, b.ready = true → (elsewhere b).ready = true
  use : Use

/-- Use a function again and again. -/
def GuestFunction.reports (i : Interpreter σ) :
    List (Visit σ) → GuestFunction → Bridge σ → List (Report σ)
  | [], _, _ => []
  | visit :: visits, f, b =>
    let r := f.report i visit.use (visit.elsewhere b)
    r :: reports i visits r.after r.left

/-! ### What reports say -/

/-- The texts that compile a function: a definition and its name, twice. -/
def GuestFunction.texts (f : GuestFunction) : List String :=
  [f.source, f.guestName, f.helper.source, f.helper.name]

/-- Requests that compile a function, as far as they go: each was answered with a value before
the next one was sent. The value of a definition is dropped, the value of a name is kept. -/
structure Proceeds (i : Interpreter σ) (f : GuestFunction) (start : World σ)
    (asked : List (Asked σ)) : Prop where
  requests : asked.map (·.request) <+: f.texts.map .eval
  first : ∀ a ∈ asked.head?, a.world = start
  next : ∀ n a a', asked[n]? = some a → asked[n + 1]? = some a' →
    ∃ v w, i.answer a.request a.world = (.ok v, w) ∧
      a'.world = if n % 2 = 0 then w.drop v else w

/-- The values kept by requests the last of which failed: the value of the first name, if the
failure came after it. -/
def kept (i : Interpreter σ) (asked : List (Asked σ)) : List Value :=
  match asked.dropLast[1]? with
  | some a => (i.answer a.request a.world).1.toOption.toList
  | none => []

namespace Report

/-- A report tells what the use of the function comes to. -/
def Faithful (i : Interpreter σ) (r : Report σ) : Prop :=
  r.before.use i r.use r.found = (r.result, r.after, r.left)

/-- A use fails because the function cannot be compiled. -/
structure Fails (i : Interpreter σ) (r : Report σ) : Prop where
  uncompiled : r.before.compiled = none
  unchanged : r.after = r.before
  proceeds : Proceeds i r.before (r.found.require i).2.toWorld r.asked
  /-- Without a request it was the start that failed, and otherwise the last request. What was
  kept is dropped. -/
  result : match r.asked.getLast? with
    | none => r.found.ready = false ∧ ∃ e g, i.start r.found.guest = (.error e, g) ∧
        r.result = .error e ∧ r.left = { r.found with guest := g }
    | some a => ∃ e w, i.answer a.request a.world = (.error e, w) ∧ r.result = .error e ∧
        r.left = (r.found.require i).2.onto (w.dropAll (kept i r.asked))
  /-- If a handle was kept and there is no other copy of it, its id waits for release. -/
  queued : ∀ a h n id, r.asked.getLast? = some a → kept i r.asked = [.handle h] →
    h.owner = some n → (i.answer a.request a.world).2.ledger.owners[n]? = some ⟨id, 1⟩ →
    r.left.ledger.pending = (i.answer a.request a.world).2.ledger.pending ++ [id]
  /-- Nothing is held besides what was held before, and what the failure holds. -/
  custody : ∀ (c : Custody i) (hs : List Handle), c.Keeps r.found hs →
    c.Keeps r.left (Failure.shownBy Value.handles r.result ++ hs)

end Report

/-- A compiled function is used: a handle is called with one request, and anything else is not
callable and copied into the failure. -/
def Direct (i : Interpreter σ) (c : Compiled) (u : Use) (found : Bridge σ)
    (asked : List (Asked σ)) (o : Outcome σ Value) : Prop :=
  match u.target c with
  | .handle h =>
    asked = [⟨.call h u.args, found.toWorld⟩] ∧
      o = u.finish (i.answer (.call h u.args) found.toWorld).1
        (found.onto (i.answer (.call h u.args) found.toWorld).2)
  | v => asked = [] ∧ o = (.error (.notCallable v), found.retain v)

namespace Report

/-- A use compiles the function, with the values of both names, and then uses it. -/
structure Compiles (i : Interpreter σ) (c : Compiled) (r : Report σ) : Prop where
  uncompiled : r.before.compiled = none
  after : r.after = { r.before with compiled := some c }
  requests : (r.asked.take 4).map (·.request) = r.before.texts.map .eval
  proceeds : Proceeds i r.before (r.found.require i).2.toWorld (r.asked.take 4)
  function : ∃ a w, r.asked[1]? = some a ∧ i.answer a.request a.world = (.ok c.function, w)
  batch : ∃ a w, r.asked[3]? = some a ∧ i.answer a.request a.world = (.ok c.batch, w) ∧
    Direct i c r.use ((r.found.require i).2.onto w) (r.asked.drop 4) (r.result, r.left)

/-- A use goes to the compiled function directly. -/
structure GoesDirectly (i : Interpreter σ) (c : Compiled) (r : Report σ) : Prop where
  before : r.before.compiled = some c
  after : r.after = r.before
  direct : Direct i c r.use r.found r.asked (r.result, r.left)

end Report

/-- Reports on a function that is not compiled at first: some uses fail to compile it and leave
it as it was, then one compiles it, and all others go to the compiled function directly. -/
def CompiledOnce (i : Interpreter σ) (f : GuestFunction) (rs : List (Report σ)) : Prop :=
  ∃ failed rest, rs = failed ++ rest ∧ (∀ r ∈ failed, r.before = f ∧ r.Fails i) ∧
    (rest = [] ∨ ∃ c r later, rest = r :: later ∧ r.before = f ∧ r.Compiles i c ∧
      ∀ r' ∈ later, r'.before = { f with compiled := some c } ∧ r'.GoesDirectly i c)

/-! ### Uses as they are recorded -/

variable {i : Interpreter σ} {f : GuestFunction} {b b₀ : Bridge σ} {w w' : World σ}
  {asked log : List (Asked σ)} {a : Asked σ} {c : Compiled} {u : Use}

/-- Without the values of names that were kept, nothing is dropped. -/
@[simp] theorem World.dropAll_nil (w : World σ) : w.dropAll [] = w := rfl

/-- Dropping a single value. -/
@[simp] theorem World.dropAll_singleton (w : World σ) (v : Value) : w.dropAll [v] = w.drop v := by
  simp [World.dropAll, World.drop, Ledger.dropAll, Ledger.drop, Value.handlesAll]

/-- Dropping the last copy of a handle makes its id wait for release. -/
theorem Ledger.pending_dropHandle {l : Ledger} {h : Handle} {n id : Nat}
    (ho : h.owner = some n) (hn : l.owners[n]? = some ⟨id, 1⟩) :
    (l.dropHandle h).pending = l.pending ++ [id] := by
  simp [dropHandle, ho, hn]

/-- A use is a use of the compiled function. -/
theorem GuestFunction.use_eq (i : Interpreter σ) (u : Use) (f : GuestFunction) (b : Bridge σ) :
    f.use i u b = f.withCompiled i b (u.run i) := by
  cases u with
  | call args => rfl
  | map batch =>
    have hrun : ∀ (c : Compiled) (b : Bridge σ), (Use.map batch).run i c b =
        ((GuestFunction.mapCompiled i batch c b).1.map .array,
          (GuestFunction.mapCompiled i batch c b).2) := by
      intro c b
      simp only [Use.run, Use.target, Use.args, GuestFunction.mapCompiled]
      rcases b.callValue i c.batch [.array (batch.map .tuple)] with ⟨_ | v, b'⟩
      · rfl
      · cases v <;> rfl
    simp only [GuestFunction.use, GuestFunction.map, GuestFunction.withCompiled, hrun]
    cases f.compiled with
    | some c => rfl
    | none => rcases f.compile i b with ⟨_ | c, b'⟩ <;> rfl

/-- Using the function in a slot puts it back as the use leaves it. -/
theorem Session.ask_use {s : Session σ} {slot : String} (hf : s.functions.find? slot = some f)
    (i : Interpreter σ) (u : Use) :
    s.ask i (u.query slot) = some ((f.use i u s.bridge).1,
      { s with
        bridge := (f.use i u s.bridge).2.2
        functions := (s.functions.put slot (f.use i u s.bridge).2.1).2 }) := by
  cases u with
  | call args =>
    simp only [Use.query, ask, withFunction, hf, Option.map_some]
    rfl
  | map batch =>
    simp only [Use.query, ask, withFunction, hf, Option.map_some, mapResult]
    rfl

/-- The record takes no part in what a use comes to. -/
theorem GuestFunction.report_faithful (i : Interpreter σ) (u : Use) (f : GuestFunction)
    (b : Bridge σ) : (f.report i u b).Faithful i := by
  have hrun : ∀ (c : Compiled) (b : Bridge (σ × List (Asked σ))),
      u.run i c (b.map Prod.fst) = (u.run i.recorded c b).map Prod.fst := by
    intro c b
    simp only [Use.run, i.recorded_shows.callValue]
    rcases b.callValue i.recorded (u.target c) u.args with ⟨_ | v, b'⟩ <;> cases u
    · rfl
    · rfl
    · rfl
    · cases v <;> rfl
  have hshown := i.recorded_shows.withCompiled (f := f) (b := b.recording []) hrun
  rw [Bridge.map_recording] at hshown
  simp only [Report.Faithful, GuestFunction.report, GuestFunction.use_eq, hshown]
  rfl

/-- Evaluating on a bridge that has been started. -/
theorem eval_recording {code : String} {result : Except Failure Value} (h : b.ready = true)
    (ha : i.answer (.eval code) b.toWorld = (result, w)) (log : List (Asked σ)) :
    (b.recording log).eval i.recorded code =
      (result, (b.onto w).recording (log ++ [⟨.eval code, b.toWorld⟩])) := by
  rw [Bridge.eval, Bridge.ask_recording h, Bridge.ask_ready h, ha]

/-- Executing on a bridge that has been started drops the value. -/
theorem exec_recording_ok {code : String} {v : Value} (h : b.ready = true)
    (ha : i.answer (.eval code) b.toWorld = (.ok v, w)) (log : List (Asked σ)) :
    (b.recording log).exec i.recorded code =
      (.ok (), (b.onto (w.drop v)).recording (log ++ [⟨.eval code, b.toWorld⟩])) := by
  rw [Bridge.exec, eval_recording h ha, Outcome.andThen_ok]
  rfl

/-- Executing on a bridge that has been started fails as the evaluation does. -/
theorem exec_recording_error {code : String} {e : Failure} (h : b.ready = true)
    (ha : i.answer (.eval code) b.toWorld = (.error e, w)) (log : List (Asked σ)) :
    (b.recording log).exec i.recorded code =
      (.error e, (b.onto w).recording (log ++ [⟨.eval code, b.toWorld⟩])) := by
  rw [Bridge.exec, eval_recording h ha, Outcome.andThen_error]

/-- The first text is asked for. -/
theorem Proceeds.start (i : Interpreter σ) (f : GuestFunction) (w : World σ) :
    Proceeds i f w [⟨.eval f.source, w⟩] where
  requests := by simp [GuestFunction.texts]
  first := by simp
  next n a a' ha ha' := by simp at ha'

/-- The next text is asked for when the last one was answered with a value. -/
theorem Proceeds.snoc {v : Value} (asked : List (Asked σ)) (code : String) (next : World σ)
    (h : Proceeds i f w (asked ++ [a])) (hcode : f.texts[asked.length + 1]? = some code)
    (hv : i.answer a.request a.world = (.ok v, w'))
    (hnext : next = if asked.length % 2 = 0 then w'.drop v else w') :
    Proceeds i f w (asked ++ [a] ++ [⟨.eval code, next⟩]) where
  requests := by
    have htake := List.prefix_iff_eq_take.1 h.requests
    have hnext : (f.texts.map Request.eval)[(asked ++ [a]).length]? = some (.eval code) := by
      simp [hcode]
    rw [List.length_map] at htake
    have hmore := List.take_add_one (l := f.texts.map Request.eval) (i := (asked ++ [a]).length)
    rw [hnext, Option.toList_some] at hmore
    rw [List.map_append, htake, List.map_singleton, ← hmore]
    exact List.take_prefix _ _
  first := by
    have hfirst := h.first
    cases asked with
    | nil => simpa using hfirst
    | cons a' asked => simpa using hfirst
  next n x x' hx hx' := by
    rcases Nat.lt_trichotomy n asked.length with hn | rfl | hn
    · rw [List.getElem?_append_left (by simp; omega)] at hx hx'
      exact h.next n x x' hx hx'
    · obtain rfl : a = x := by simpa using hx
      obtain rfl := by simpa using hx'
      exact ⟨v, w', hv, hnext⟩
    · rw [List.getElem?_eq_none (by simp; omega)] at hx'
      cases hx'

/-- What compiling comes to on a bridge that has been started, with the requests that it sends:
the last of them failed, or all four were answered. -/
inductive Compiling (i : Interpreter σ) (f : GuestFunction) (start : World σ)
    (asked : List (Asked σ)) : Except Failure Compiled → World σ → Prop where
  | fails {a : Asked σ} {e : Failure} {w : World σ} (proceeds : Proceeds i f start asked)
      (last : asked.getLast? = some a) (answer : i.answer a.request a.world = (.error e, w)) :
      Compiling i f start asked (.error e) (w.dropAll (kept i asked))
  | compiles {a a' : Asked σ} {c : Compiled} {w w' : World σ}
      (proceeds : Proceeds i f start asked) (all : asked.length = 4)
      (second : asked[1]? = some a) (function : i.answer a.request a.world = (.ok c.function, w))
      (fourth : asked[3]? = some a') (batch : i.answer a'.request a'.world = (.ok c.batch, w')) :
      Compiling i f start asked (.ok c) w'

/-- Compiling on a bridge that has been started. -/
theorem compile_recording (i : Interpreter σ) (f : GuestFunction) (h : b.ready = true) :
    ∃ asked result w, Compiling i f b.toWorld asked result w ∧
      f.compile i.recorded (b.recording []) = (result, (b.onto w).recording asked) := by
  have p₁ := Proceeds.start i f b.toWorld
  unfold GuestFunction.compile GuestFunction.compileBatch
  rcases h₁ : i.answer (.eval f.source) b.toWorld with ⟨e | v, w₁⟩
  · rw [exec_recording_error h h₁]
    exact ⟨_, _, _, .fails p₁ rfl h₁, rfl⟩
  have p₂ := p₁.snoc [] f.guestName (w₁.drop v) rfl h₁ rfl
  have r₂ : (b.onto (w₁.drop v)).ready = true := h
  rw [exec_recording_ok h h₁, Outcome.andThen_ok]
  rcases h₂ : i.answer (.eval f.guestName) (w₁.drop v) with ⟨e | function, w₂⟩
  · rw [eval_recording r₂ h₂]
    exact ⟨_, _, _, .fails p₂ rfl h₂, by simp [kept]⟩
  have p₃ := p₂.snoc [_] f.helper.source w₂ rfl h₂ rfl
  have r₃ : (b.onto w₂).ready = true := h
  rw [eval_recording r₂ h₂, Outcome.andThen_ok, Bridge.onto_onto]
  rcases h₃ : i.answer (.eval f.helper.source) w₂ with ⟨e | v', w₃⟩
  · rw [exec_recording_error r₃ h₃]
    exact ⟨_, _, _, .fails p₃ rfl h₃, by simp [kept, h₂, Except.toOption]⟩
  have p₄ := p₃.snoc [_, _] f.helper.name (w₃.drop v') rfl h₃ (by simp)
  have r₄ : (b.onto (w₃.drop v')).ready = true := h
  rw [exec_recording_ok r₃ h₃, Bridge.onto_onto, Outcome.andThen_ok]
  rcases h₄ : i.answer (.eval f.helper.name) (w₃.drop v') with ⟨e | batch, w₄⟩
  · rw [eval_recording r₄ h₄]
    exact ⟨_, _, _, .fails p₄ rfl h₄, by simp [kept, h₂, Except.toOption]⟩
  · rw [eval_recording r₄ h₄]
    exact ⟨_, _, _, .compiles (c := ⟨function, batch⟩) p₄ rfl rfl h₂ rfl h₄, rfl⟩

/-- Compiling starts the interpreter first. -/
theorem compile_required (h : b.require i = (.ok (), b₀)) (h₀ : b₀.ready = true)
    (f : GuestFunction) : f.compile i b = f.compile i b₀ := by
  simp only [GuestFunction.compile, Bridge.exec, Bridge.eval, Bridge.ask_required h h₀]

/-- Nothing is compiled if the interpreter does not start. -/
theorem compile_refused {e : Failure} (h : b.require i = (.error e, b₀)) (f : GuestFunction) :
    f.compile i b = (.error e, b₀) := by
  simp only [GuestFunction.compile, Bridge.exec, Bridge.eval, Bridge.ask_refused h,
    Outcome.andThen_error]

/-- What is made of an answer does not touch the record. -/
theorem Use.finish_recording (u : Use) (result : Except Failure Value) (b : Bridge σ)
    (log : List (Asked σ)) :
    u.finish result (b.recording log) =
      ((u.finish result b).1, (u.finish result b).2.recording log) := by
  cases u with
  | call args => rfl
  | map batch =>
    rcases result with e | v
    · rfl
    · cases v <;> rfl

/-- What is made of an answer leaves the guest alone, and the bridge as ready as it was. -/
theorem Use.finish_guest (u : Use) (result : Except Failure Value) (b : Bridge σ) :
    (u.finish result b).2.guest = b.guest ∧ (u.finish result b).2.ready = b.ready := by
  cases u with
  | call args => exact ⟨rfl, rfl⟩
  | map batch =>
    rcases result with e | v
    · exact ⟨rfl, rfl⟩
    · cases v <;> exact ⟨rfl, rfl⟩

/-- Using a compiled function leaves the bridge as ready as it was. -/
theorem Direct.ready {o : Outcome σ Value} (h : Direct i c u b asked o) :
    o.2.ready = b.ready := by
  unfold Direct at h
  split at h
  · rw [h.2, (u.finish_guest _ _).2, Bridge.onto_ready]
  · rw [h.2]
    rfl

/-- Using a compiled function on a bridge that has been started. -/
theorem Use.run_recording (i : Interpreter σ) (c : Compiled) (u : Use) (h : b.ready = true)
    (log : List (Asked σ)) :
    ∃ asked o, Direct i c u b asked o ∧
      u.run i.recorded c (b.recording log) = (o.1, o.2.recording (log ++ asked)) := by
  unfold Direct Use.run
  cases u.target c with
  | handle k =>
    refine ⟨_, _, ⟨rfl, rfl⟩, ?_⟩
    simp only [Bridge.callValue, Bridge.callHandle, Bridge.ask_recording h, Bridge.ask_ready h,
      Use.finish_recording]
  | _ =>
    refine ⟨[], _, ⟨rfl, rfl⟩, ?_⟩
    cases u <;> simp [Bridge.callValue, Use.finish]

/-- What a report says, read off a use on a recording bridge. -/
theorem GuestFunction.report_eq {result : Except Failure Value} {after : GuestFunction}
    (h : f.use i.recorded u (b.recording []) = (result, after, b₀.recording asked)) :
    f.report i u b = ⟨u, f, b, result, after, b₀, asked⟩ := by
  unfold GuestFunction.report
  rw [h]
  rfl

/-- A use of a function that is not compiled fails when compiling does. -/
theorem GuestFunction.report_of_compile_error {e : Failure} (hf : f.compiled = none)
    (h : f.compile i.recorded (b.recording []) = (.error e, b₀.recording asked)) :
    f.report i u b = ⟨u, f, b, .error e, f, b₀, asked⟩ := by
  apply report_eq
  rw [use_eq]
  simp only [withCompiled, hf, h]

/-- When compiling fails, what the failure holds is held besides what was held before. -/
theorem keeps_of_compile_error {e : Failure}
    (h : f.compile i.recorded (b.recording []) = (.error e, b₀.recording asked))
    (k : Custody i) (hs : List Handle) (hk : k.Keeps b hs) :
    k.Keeps b₀ (Value.handlesAll e.values ++ hs) := by
  have hshown := i.recorded_shows.compile f (b.recording [])
  rw [h, Bridge.map_recording] at hshown
  have hcompile := Custody.Keeps.compile (f := f) hk
  rw [hshown] at hcompile
  exact hcompile

/-! ### One use after the other -/

/-- A use of a function that is not compiled fails to compile it, or compiles it. -/
theorem GuestFunction.report_uncompiled (i : Interpreter σ) (u : Use) (b : Bridge σ)
    (hf : f.compiled = none) :
    (f.report i u b).Fails i ∨
      ∃ c, (f.report i u b).Compiles i c ∧ (f.report i u b).left.ready = true := by
  rcases Bridge.require_cases i b with ⟨b₀, hb, h₀⟩ | ⟨e, g, hr, hs, hb⟩
  · obtain ⟨asked, result, w, hc, hcompile⟩ := compile_recording i f h₀
    rw [← compile_required (Bridge.require_recording hb []) h₀] at hcompile
    cases hc with
    | fails proceeds last answer =>
      left
      rw [report_of_compile_error hf hcompile]
      refine ⟨hf, rfl, by rw [hb]; exact proceeds, ?_, ?_, keeps_of_compile_error hcompile⟩
      · rw [hb, last]
        exact ⟨_, _, answer, rfl, rfl⟩
      · rintro a h n id hlast hkept howner hcopies
        obtain rfl := Option.some.inj (last.symm.trans hlast)
        rw [answer] at hcopies ⊢
        simp only [hkept, World.dropAll_singleton]
        exact Ledger.pending_dropHandle howner hcopies
    | @compiles a a' c _ w proceeds all second function fourth batch =>
      right
      have h₁ : (b₀.onto w).ready = true := h₀
      obtain ⟨asked', o, hd, hrun⟩ := u.run_recording i c h₁ asked
      have hreport : f.report i u b =
          ⟨u, f, b, o.1, { f with compiled := some c }, o.2, asked ++ asked'⟩ := by
        apply report_eq
        rw [use_eq]
        simp only [withCompiled, hf, hcompile, hrun]
      have htake : (asked ++ asked').take 4 = asked := List.take_left' all
      rw [hreport]
      refine ⟨c, ⟨hf, rfl, ?_, ?_, ⟨a, _, ?_, function⟩, a', w, ?_, batch, ?_⟩, ?_⟩
      · rw [htake]
        exact proceeds.requests.eq_of_length (by simp [all, texts])
      · rw [htake, hb]
        exact proceeds
      · rw [List.getElem?_append_left (by omega), second]
      · rw [List.getElem?_append_left (by omega), fourth]
      · rw [List.drop_left' all, hb]
        exact hd
      · exact hd.ready.trans h₁
  · left
    have hcompile := compile_refused (Bridge.require_recording hb []) f
    rw [report_of_compile_error hf hcompile]
    exact ⟨hf, rfl, ⟨by simp, by simp, by simp⟩, ⟨hr, e, g, hs, rfl, rfl⟩, by simp,
      keeps_of_compile_error hcompile⟩

/-- A use of a compiled function goes to it directly. -/
theorem GuestFunction.report_compiled (i : Interpreter σ) (u : Use) (hf : f.compiled = some c)
    (h : b.ready = true) :
    (f.report i u b).GoesDirectly i c ∧ (f.report i u b).left.ready = true := by
  obtain ⟨asked, o, hd, hrun⟩ := u.run_recording i c h []
  have hreport : f.report i u b = ⟨u, f, b, o.1, f, o.2, asked⟩ := by
    apply report_eq
    rw [use_eq]
    simp only [withCompiled, hf, hrun, List.nil_append]
  rw [hreport]
  exact ⟨⟨hf, rfl, hd⟩, hd.ready.trans h⟩

/-- All uses of a compiled function go to it directly. -/
theorem GuestFunction.reports_compiled (hf : f.compiled = some c) (h : b.ready = true)
    (visits : List (Visit σ)) :
    ∀ r ∈ f.reports i visits b, r.before = f ∧ r.GoesDirectly i c := by
  induction visits generalizing b with
  | nil => simp [reports]
  | cons visit visits ih =>
    obtain ⟨hdirect, hready⟩ :=
      report_compiled (f := f) i visit.use hf (visit.ready b h)
    have hafter : (f.report i visit.use (visit.elsewhere b)).after = f := hdirect.after
    simp only [reports, List.forall_mem_cons]
    refine ⟨⟨rfl, hdirect⟩, ?_⟩
    rw [hafter]
    exact ih hready

/-- Every report tells what the use of the function comes to. -/
theorem GuestFunction.reports_faithful (i : Interpreter σ) (visits : List (Visit σ))
    (f : GuestFunction) (b : Bridge σ) : ∀ r ∈ f.reports i visits b, r.Faithful i := by
  induction visits generalizing f b with
  | nil => simp [reports]
  | cons visit visits ih =>
    simp only [reports, List.forall_mem_cons]
    exact ⟨report_faithful i visit.use f (visit.elsewhere b), ih _ _⟩

/-- A function that is not compiled is compiled at most once. -/
theorem GuestFunction.reports_uncompiled (hf : f.compiled = none) (visits : List (Visit σ))
    (b : Bridge σ) : CompiledOnce i f (f.reports i visits b) := by
  induction visits generalizing b with
  | nil => exact ⟨[], [], rfl, by simp, .inl rfl⟩
  | cons visit visits ih =>
    rcases report_uncompiled i visit.use (visit.elsewhere b) hf with
      hfails | ⟨c, hcompiles, hready⟩
    · have hafter : (f.report i visit.use (visit.elsewhere b)).after = f := hfails.unchanged
      obtain ⟨failed, rest, hreports, hfailed, hrest⟩ :=
        ih (f.report i visit.use (visit.elsewhere b)).left
      refine ⟨f.report i visit.use (visit.elsewhere b) :: failed, rest, ?_, ?_, hrest⟩
      · rw [reports, hafter, hreports, List.cons_append]
      · rw [List.forall_mem_cons]
        exact ⟨⟨rfl, hfails⟩, hfailed⟩
    · refine ⟨[], f.reports i (visit :: visits) b, rfl, by simp, .inr ⟨c, _, _, rfl, rfl,
        hcompiles, ?_⟩⟩
      have hafter : (f.report i visit.use (visit.elsewhere b)).after =
        { f with compiled := some c } := hcompiles.after
      rw [hafter]
      exact reports_compiled rfl hready visits

/-- A function made from its parts is not compiled. -/
theorem GuestFunction.ofParts_uncompiled (names : Names) (parts : FunctionParts) :
    (GuestFunction.ofParts names parts).1.compiled = none := rfl

/-- However an interpreter behaves, however often a function is used, and whatever happens to
the bridge in between: the function is compiled at most once. -/
theorem GuestFunction.compiles_once (i : Interpreter σ) (names : Names) (parts : FunctionParts)
    (visits : List (Visit σ)) (b : Bridge σ) :
    let f := (GuestFunction.ofParts names parts).1
    (∀ r ∈ f.reports i visits b, r.Faithful i) ∧ CompiledOnce i f (f.reports i visits b) :=
  ⟨reports_faithful i visits _ b, reports_uncompiled (ofParts_uncompiled names parts) visits b⟩

end GuestBridge
