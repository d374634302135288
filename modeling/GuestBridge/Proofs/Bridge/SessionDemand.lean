import GuestBridge.Proofs.Bridge.Demand

/-!
# Commands that need the interpreter

Every command either begins with a request or leaves the interpreter alone, a request past the
bridge apart. A session in which the interpreter has not been started yet holds nothing that
came from it: its caches are empty, its functions are not compiled, and it has no modules.
-/

namespace GuestBridge

variable {σ α β : Type}

/-! ### What needs the interpreter -/

/-- A query needs the interpreter. -/
def Query.needs (s : Session σ) : Query → Bool
  | .eval _ | .callHandle _ _ | .getAttr _ _ | .convert _ _ | .newModule _ => true
  | .evalCached code => !s.bridge.expressions.contains code
  | .resolve name => !s.bridge.functions.contains name
  | .call name _ => s.bridge.callNeeds name
  | .callValue callee _ => callee.isHandle
  | .callFunction slot _ | .callFunctionAs slot _ _ =>
    (s.functions.find? slot).any (GuestFunction.needs Compiled.function)
  | .mapFunction slot _ | .mapFunctionAs slot _ _ =>
    (s.functions.find? slot).any (GuestFunction.needs Compiled.batch)
  | .getMember slot name => (s.modules.find? slot).any (GuestModule.getNeeds name)
  | .callMember slot name _ => (s.modules.find? slot).any (GuestModule.callNeeds name)
  | .direct _ | .copy _ => false

namespace Command

/-- A command needs the interpreter. -/
def needs (s : Session σ) : Command → Bool
  | .query q _ => q.needs s
  | .exec _ => true
  | .openModule _ name => GuestModule.isPath name
  | _ => false

/-- A command goes through the bridge. -/
def viaBridge : Command → Bool
  | .query (.direct _) _ => false
  | _ => true

end Command

/-! ### Commands that begin with a request -/

namespace Session

/-- A session goes on with a bridge, and is as it was otherwise. -/
structure Resumes (s : Session σ) (b : Bridge σ) (s' : Session σ) : Prop where
  bridge : s'.bridge = b
  names : s'.names = s.names
  values : s'.values = s.values
  functions : ∀ slot, s'.functions.find? slot = s.functions.find? slot
  modules : ∀ slot, s'.modules.find? slot = s.modules.find? slot

variable {i : Interpreter σ} {s : Session σ} {slot : String}

/-- A query begins with a request. -/
abbrev Begins (i : Interpreter σ) (s : Session σ) (o : Except Failure α × Session σ) : Prop :=
  GuestBridge.Begins i s.bridge Session.bridge (fun _ b₀ ↦ s.Resumes b₀) o

/-- A command begins with a request. If the interpreter cannot be started, what the failure
holds is dropped with it. -/
abbrev BeginsStep (i : Interpreter σ) (s : Session σ) (o : Except Failure α × Session σ) : Prop :=
  GuestBridge.Begins i s.bridge Session.bridge (fun e b₀ ↦ s.Resumes (b₀.dropAll e.values)) o

/-- What is known of a session in which the interpreter has never been needed. -/
structure Untouched (s : Session σ) : Prop where
  expressions : ∀ text, s.bridge.expressions.contains text = false
  functions : ∀ name, s.bridge.functions.contains name = false
  uncompiled : ∀ slot f, s.functions.find? slot = some f → f.compiled = none
  unopened : ∀ slot, s.modules.find? slot = none

/-- A session is untouched unless the interpreter has been started. -/
def Dormant (s : Session σ) : Prop :=
  s.bridge.ready = false → s.Untouched

/-- The function that is used comes back into its slot. -/
private theorem find?_put_self {x : α} {slots : Slots α} (h : slots.find? slot = some x)
    (other : String) : (slots.put slot x).2.find? other = slots.find? other := by
  rw [Slots.find?_put]
  split
  · next heq => rw [heq, h]
  · rfl

/-- An operation on the bridge of a session begins with a request. -/
theorem begins_settle {o : Outcome σ α} (h : s.bridge.Begins i o) : s.Begins i (s.settle o) where
  refused e b₀ hb := by
    obtain ⟨he, hstays⟩ := h.refused e b₀ hb
    exact ⟨he, hstays, rfl, rfl, fun _ ↦ rfl, fun _ ↦ rfl⟩
  reached := h.reached

/-- What an operation on the function in a slot comes to. -/
private theorem withFunction_eq {f : GuestFunction} (hf : s.functions.find? slot = some f)
    (op : GuestFunction → Bridge σ → Except Failure α × GuestFunction × Bridge σ) :
    s.withFunction slot op = some ((op f s.bridge).1,
      { s with
        bridge := (op f s.bridge).2.2
        functions := (s.functions.put slot (op f s.bridge).2.1).2 }) := by
  rw [withFunction, hf]
  rfl

/-- What an operation on the module in a slot comes to. -/
private theorem withModule_eq {m : GuestModule} (hm : s.modules.find? slot = some m)
    (op : GuestModule → Bridge σ → Except Failure α × GuestModule × Bridge σ) :
    s.withModule slot op = some ((op m s.bridge).1,
      { s with
        bridge := (op m s.bridge).2.2
        modules := (s.modules.put slot (op m s.bridge).2.1).2 }) := by
  rw [withModule, hm]
  rfl

/-- An operation on the function in a slot begins with a request. -/
theorem begins_withFunction {f : GuestFunction} (hf : s.functions.find? slot = some f)
    {op : GuestFunction → Bridge σ → Except Failure α × GuestFunction × Bridge σ}
    (h : s.bridge.BeginsWith i f (op f s.bridge)) :
    ∃ o, s.withFunction slot op = some o ∧ s.Begins i o := by
  refine ⟨_, withFunction_eq hf op, fun e b₀ hb ↦ ?_, h.reached⟩
  obtain ⟨he, hstays⟩ := h.refused e b₀ hb
  simp only [he, hstays, true_and]
  exact ⟨rfl, rfl, rfl, find?_put_self hf, fun _ ↦ rfl⟩

/-- An operation on the module in a slot begins with a request. -/
theorem begins_withModule {m : GuestModule} (hm : s.modules.find? slot = some m)
    {op : GuestModule → Bridge σ → Except Failure α × GuestModule × Bridge σ}
    (h : s.bridge.BeginsWith i m (op m s.bridge)) :
    ∃ o, s.withModule slot op = some o ∧ s.Begins i o := by
  refine ⟨_, withModule_eq hm op, fun e b₀ hb ↦ ?_, h.reached⟩
  obtain ⟨he, hstays⟩ := h.refused e b₀ hb
  simp only [he, hstays, true_and]
  exact ⟨rfl, rfl, rfl, fun _ ↦ rfl, find?_put_self hm⟩

/-- A result may be changed. -/
theorem begins_mapResult {o : Option (Except Failure α × Session σ)} (f : α → β)
    (h : ∃ o', o = some o' ∧ s.Begins i o') :
    ∃ o', mapResult f o = some o' ∧ s.Begins i o' := by
  obtain ⟨o', rfl, hbegins⟩ := h
  exact ⟨_, rfl, hbegins.mapResult f⟩

/-- A session in which something is held is ready. -/
theorem Dormant.ready (hs : s.Dormant) (h : ¬ s.Untouched) : s.bridge.ready = true := by
  by_contra hready
  exact h (hs (by simpa using hready))

/-- A query that needs the interpreter begins with a request. -/
theorem begins_query (hs : s.Dormant) {q : Query} (hq : q.needs s) :
    ∃ o, s.ask i q = some o ∧ s.Begins i o := by
  cases q with
  | direct r => cases hq
  | copy slot => cases hq
  | eval code => exact ⟨_, rfl, begins_settle (Bridge.begins_ask i _ _)⟩
  | callHandle callee args => exact ⟨_, rfl, begins_settle (Bridge.begins_ask i _ _)⟩
  | getAttr target name => exact ⟨_, rfl, begins_settle (Bridge.begins_ask i _ _)⟩
  | convert type value => exact ⟨_, rfl, begins_settle (Bridge.begins_ask i _ _)⟩
  | newModule name => exact ⟨_, rfl, begins_settle (Bridge.begins_ask i _ _)⟩
  | evalCached code =>
    have hmissing : ¬ s.bridge.expressions.contains code := by simpa [Query.needs] using hq
    exact ⟨_, rfl, begins_settle (Bridge.begins_evalThrough (m := .expressions) hmissing)⟩
  | resolve name =>
    have hmissing : ¬ s.bridge.functions.contains name := by simpa [Query.needs] using hq
    exact ⟨_, rfl, begins_settle (Bridge.begins_evalThrough (m := .functions) hmissing)⟩
  | call name args =>
    have hready : s.bridge.functions.contains name → s.bridge.ready = true :=
      fun hheld ↦ hs.ready fun h ↦ by simp [h.functions name] at hheld
    exact ⟨_, rfl, begins_settle (Bridge.begins_call hq hready args)⟩
  | callValue callee args => exact ⟨_, rfl, begins_settle (Bridge.begins_callValue hq args _)⟩
  | callFunction slot args =>
    obtain ⟨f, hf, hneeds⟩ := (Option.any_eq_true _ _).1 hq
    show ∃ o, s.withFunction slot (fun f ↦ f.call i args) = some o ∧ _
    refine begins_withFunction hf (Bridge.begins_withCompiled hneeds ?_ ?_)
    · exact fun c hc b ↦ Bridge.begins_callValue hc args b
    · exact fun P hP c b h ↦ h.callValue hP _ _
  | callFunctionAs slot args type =>
    obtain ⟨f, hf, hneeds⟩ := (Option.any_eq_true _ _).1 hq
    refine begins_mapResult _ (begins_withFunction hf (Bridge.begins_withCompiled hneeds ?_ ?_))
    · exact fun c hc b ↦ (Bridge.begins_callValue hc args b).andThen fun _ _ v _ h ↦ h.read type v
    · exact fun P hP c b h ↦ Outcome.andThen_runs (h.callValue hP _ _) fun v _ h ↦ h.read type v
  | mapFunction slot batch =>
    obtain ⟨f, hf, hneeds⟩ := (Option.any_eq_true _ _).1 hq
    refine begins_mapResult _ (begins_withFunction hf (Bridge.begins_withCompiled hneeds ?_ ?_))
    · exact fun c hc b ↦ Bridge.begins_mapCompiled hc batch b
    · exact fun P hP c b h ↦ h.mapCompiled hP _ _
  | mapFunctionAs slot batch type =>
    obtain ⟨f, hf, hneeds⟩ := (Option.any_eq_true _ _).1 hq
    refine begins_mapResult _ (begins_withFunction hf (Bridge.begins_withCompiled hneeds ?_ ?_))
    · exact fun c hc b ↦ (Bridge.begins_mapCompiled hc batch b).andThen fun _ _ v _ h ↦ h.read _ _
    · exact fun P hP c b h ↦ Outcome.andThen_runs (h.mapCompiled hP _ _) fun v _ h ↦ h.read _ _
  | getMember slot name =>
    obtain ⟨m, hm, hneeds⟩ := (Option.any_eq_true _ _).1 hq
    exact begins_withModule hm (Bridge.begins_getMember hneeds _)
  | callMember slot name args =>
    obtain ⟨m, hm, hneeds⟩ := (Option.any_eq_true _ _).1 hq
    have hready : s.bridge.ready = true := hs.ready fun h ↦ by simp [h.unopened slot] at hm
    exact begins_withModule hm (Bridge.begins_callMember hneeds hready args)

/-- A failure is dropped where a session resumes. -/
theorem Resumes.discard {b : Bridge σ} {s' : Session σ} (h : s.Resumes b s') (e : Failure) :
    s.Resumes (b.dropAll e.values) (s'.discard e) where
  bridge := congrArg (Bridge.dropAll · e.values) h.bridge
  names := h.names
  values := h.values
  functions := h.functions
  modules := h.modules

/-- A command begins with a request if what it comes to does, whatever it does with a result. -/
theorem Begins.discard {o : Except Failure α × Session σ} (h : s.Begins i o)
    {k : α → Session σ → Except Failure Answer × Session σ}
    (hn : ∀ (P : σ → Prop) (x : α) (s' : Session σ), s'.bridge.Runs P →
      (k x s').2.bridge.Runs P) :
    s.BeginsStep i (match o with
      | (.ok x, s') => k x s'
      | (.error e, s') => (.error e, s'.discard e)) := by
  obtain ⟨result, s'⟩ := o
  refine ⟨fun e b₀ hb ↦ ?_, fun b₀ hb P hP ↦ ?_⟩
  · obtain ⟨rfl, hresumes⟩ := h.refused e b₀ hb
    exact ⟨rfl, hresumes.discard e⟩
  · have hreached := h.reached b₀ hb P hP
    cases result with
    | ok x => exact hn P x s' hreached
    | error e => exact hreached.of_guest rfl rfl

/-- A command that needs the interpreter begins with a request. -/
theorem begins_step (hs : s.Dormant) {c : Command} (hc : c.needs s) :
    s.BeginsStep i (s.step i c) := by
  cases c with
  | query q keep =>
    obtain ⟨⟨result, s'⟩, ho, hbegins⟩ := begins_query (i := i) hs (q := q) hc
    rw [step_query, ho]
    have hstep := hbegins.discard (k := fun v s ↦ (.ok (.value v), s.keep keep v))
      fun P v s' h ↦ by cases keep <;> exact h.of_guest rfl rfl
    cases result <;> exact hstep
  | exec code =>
    rw [step_exec]
    have hstep := (begins_settle (Bridge.begins_exec i s.bridge code)).discard
      (k := fun _ s' ↦ (.ok .nothing, s')) fun P _ s' h ↦ h
    cases hr : s.settle (s.bridge.exec i code) with
    | mk result s' =>
      rw [hr] at hstep
      cases result <;> exact hstep
  | openModule slot name =>
    rw [step_openModule]
    have hstep := (begins_settle (Bridge.begins_openModule (i := i) hc s.bridge)).discard
      (k := fun m s' ↦ (.ok (.module m), s'.putModule slot m)) fun P _ s' h ↦ h.of_guest rfl rfl
    cases hr : s.settle (GuestModule.open? i name s.bridge) with
    | mk result s' =>
      rw [hr] at hstep
      cases result <;> exact hstep
  | _ => cases hc

/-! ### Commands that do not need the interpreter -/

/-- What holds of what a slot holds. -/
private theorem any_eq_false {x : Option α} {p : α → Bool} (h : x.any p = false) {a : α}
    (ha : x = some a) : p a = false := by
  rw [ha] at h
  exact h

/-- A query that does not need the interpreter leaves it alone, unless it goes past the
bridge. -/
theorem ask_rests {q : Query} (hq : q.needs s = false) (hdirect : ∀ r, q ≠ .direct r)
    {o : Except Failure Value × Session σ} (ho : s.ask i q = some o) :
    s.bridge.Rests o.2.bridge := by
  cases q with
  | direct r => exact absurd rfl (hdirect r)
  | eval code | callHandle callee args | getAttr target name | convert type value
  | newModule name => cases hq
  | copy slot =>
    obtain ⟨v, -, rfl⟩ := Option.map_eq_some_iff.1 ho
    exact ⟨rfl, rfl⟩
  | evalCached code =>
    have hheld : s.bridge.expressions.contains code := by simpa [Query.needs] using hq
    cases ho
    exact Bridge.rests_evalThrough (m := .expressions) hheld
  | resolve name =>
    have hheld : s.bridge.functions.contains name := by simpa [Query.needs] using hq
    cases ho
    exact Bridge.rests_evalThrough (m := .functions) hheld
  | call name args =>
    cases ho
    exact Bridge.rests_call hq args
  | callValue callee args =>
    cases ho
    simp only [settle, Bridge.callValue_of_not_isHandle hq]
    exact ⟨rfl, rfl⟩
  | callFunction slot args =>
    have ho : s.withFunction slot (fun f ↦ f.call i args) = some o := ho
    refine bridge_withFunction (fun f hf ↦ ?_) ho
    refine Bridge.rests_withCompiled (any_eq_false hq hf) fun c hc ↦ ?_
    rw [Bridge.callValue_of_not_isHandle hc]
    exact ⟨rfl, rfl⟩
  | callFunctionAs slot args type =>
    refine bridge_mapResult (fun x hx ↦ bridge_withFunction (fun f hf ↦ ?_) hx) ho
    refine Bridge.rests_withCompiled (any_eq_false hq hf) fun c hc ↦ ?_
    rw [Bridge.callValue_of_not_isHandle hc]
    exact ⟨rfl, rfl⟩
  | mapFunction slot batch =>
    refine bridge_mapResult (fun x hx ↦ bridge_withFunction (fun f hf ↦ ?_) hx) ho
    exact Bridge.rests_withCompiled (any_eq_false hq hf) fun c hc ↦
      Bridge.rests_mapCompiled hc batch
  | mapFunctionAs slot batch type =>
    refine bridge_mapResult (fun x hx ↦ bridge_withFunction (fun f hf ↦ ?_) hx) ho
    refine Bridge.rests_withCompiled (any_eq_false hq hf) fun c hc ↦ ?_
    rw [GuestFunction.mapCompiled, Bridge.callValue_of_not_isHandle hc]
    exact ⟨rfl, rfl⟩
  | getMember slot name =>
    exact bridge_withModule (fun m hm ↦ Bridge.rests_getMember (any_eq_false hq hm)) ho
  | callMember slot name args =>
    exact bridge_withModule (fun m hm ↦ Bridge.rests_callMember (any_eq_false hq hm) args) ho

/-- A command that does not need the interpreter leaves it alone, unless it goes past the
bridge. -/
theorem step_rests {c : Command} (hc : c.needs s = false) (hvia : c.viaBridge) :
    s.bridge.Rests (s.step i c).2.bridge := by
  cases c with
  | query q keep =>
    have hdirect : ∀ r, q ≠ .direct r := by
      rintro r rfl
      cases hvia
    rw [step_query]
    cases ho : s.ask i q with
    | none => exact ⟨rfl, rfl⟩
    | some o =>
      have hrests := ask_rests hc hdirect ho
      obtain ⟨result, s'⟩ := o
      cases result with
      | error e => exact ⟨hrests.guest, hrests.ready⟩
      | ok v => cases keep <;> exact ⟨hrests.guest, hrests.ready⟩
  | exec code => cases hc
  | define slot text name =>
    rw [step_define]
    split <;> exact ⟨rfl, rfl⟩
  | openModule slot name =>
    have hc : GuestModule.isPath name = false := hc
    rw [step_openModule, GuestModule.open?, hc]
    exact ⟨rfl, rfl⟩
  | _ => exact ⟨rfl, rfl⟩

/-! ### A session stays untouched until the interpreter has been started -/

/-- The function in a slot is not compiled, so using it needs the interpreter. -/
private theorem Untouched.withFunction_eq_none (hs : s.Untouched) {target : Compiled → Value}
    (hq : (s.functions.find? slot).any (GuestFunction.needs target) = false)
    (op : GuestFunction → Bridge σ → Except Failure α × GuestFunction × Bridge σ) :
    s.withFunction slot op = none := by
  cases hf : s.functions.find? slot with
  | none =>
    rw [withFunction, hf]
    rfl
  | some f =>
    have hneeds := any_eq_false hq hf
    rw [GuestFunction.needs, hs.uncompiled slot f hf] at hneeds
    cases hneeds

/-- A query that does not need the interpreter changes nothing but the world. -/
theorem Untouched.ask_eq (hs : s.Untouched) {q : Query} (hq : q.needs s = false)
    {o : Except Failure Value × Session σ} (ho : s.ask i q = some o) :
    ∃ w, o.2 = { s with bridge := s.bridge.onto w } := by
  cases q with
  | direct r =>
    cases ho
    exact ⟨_, rfl⟩
  | copy slot =>
    obtain ⟨v, -, rfl⟩ := Option.map_eq_some_iff.1 ho
    exact ⟨_, rfl⟩
  | callValue callee args =>
    cases ho
    simp only [settle, Bridge.callValue_of_not_isHandle hq]
    exact ⟨_, rfl⟩
  | eval code | callHandle callee args | getAttr target name | convert type value
  | newModule name => cases hq
  | evalCached code =>
    rw [Query.needs, hs.expressions] at hq
    cases hq
  | resolve name =>
    rw [Query.needs, hs.functions] at hq
    cases hq
  | call name args =>
    have hmissing := hs.functions name
    rw [← Recency.isSome_find?, Option.isSome_eq_false_iff, Option.isNone_iff_eq_none] at hmissing
    rw [Query.needs, Bridge.callNeeds, hmissing] at hq
    cases hq
  | callFunction slot args | mapFunction slot batch | callFunctionAs slot args type
  | mapFunctionAs slot batch type =>
    rw [ask, hs.withFunction_eq_none hq] at ho
    cases ho
  | getMember slot name | callMember slot name args =>
    rw [ask, withModule, hs.unopened] at ho
    cases ho

/-- Another world does not touch a session. -/
theorem Untouched.onto (hs : s.Untouched) (w : World σ) :
    { s with bridge := s.bridge.onto w }.Untouched :=
  ⟨hs.expressions, hs.functions, hs.uncompiled, hs.unopened⟩

/-- A session that goes on with the same caches stays untouched. -/
theorem Untouched.resumes {s' : Session σ} {w : World σ} (hs : s.Untouched)
    (h : s.Resumes (s.bridge.onto w) s') : s'.Untouched where
  expressions text := by
    rw [h.bridge]
    exact hs.expressions text
  functions name := by
    rw [h.bridge]
    exact hs.functions name
  uncompiled slot f hf := hs.uncompiled slot f (h.functions slot ▸ hf)
  unopened slot := (h.modules slot).trans (hs.unopened slot)

/-- A function that is made is not compiled. -/
theorem Untouched.make (hs : s.Untouched) (slot : String) (parts : FunctionParts) :
    (s.make slot parts).2.Untouched where
  expressions := hs.expressions
  functions := hs.functions
  uncompiled slot' f hf := by
    have hput := (Slots.find?_put s.functions slot slot' _).symm.trans hf
    split at hput
    · cases hput
      rfl
    · exact hs.uncompiled slot' f hput
  unopened := hs.unopened

/-- A command that does not need the interpreter leaves a session untouched. -/
theorem Untouched.step (hs : s.Untouched) {c : Command} (hc : c.needs s = false) :
    (s.step i c).2.Untouched := by
  cases c with
  | query q keep =>
    rw [step_query]
    cases ho : s.ask i q with
    | none => exact hs
    | some o =>
      obtain ⟨w, hw⟩ := hs.ask_eq hc ho
      obtain ⟨result, s'⟩ := o
      obtain rfl : s' = { s with bridge := s.bridge.onto w } := hw
      cases result with
      | error e => exact hs.onto (w.dropAll e.values)
      | ok v =>
        cases keep with
        | none => exact hs.onto (w.drop v)
        | some slot => exact ⟨hs.expressions, hs.functions, hs.uncompiled, hs.unopened⟩
  | exec code => cases hc
  | define slot text name =>
    rw [step_define]
    split
    · exact hs.make slot _
    · exact hs
  | makeFunction slot parts => exact hs.make slot parts
  | dropFunction slot =>
    refine ⟨hs.expressions, hs.functions, fun slot' f hf ↦ ?_, hs.unopened⟩
    have hremove := (Slots.find?_remove s.functions slot slot').symm.trans hf
    split at hremove
    · cases hremove
    · exact hs.uncompiled slot' f hremove
  | openModule slot name =>
    have hc : GuestModule.isPath name = false := hc
    rw [step_openModule, GuestModule.open?, hc]
    exact hs
  | dropModule slot =>
    refine ⟨hs.expressions, hs.functions, hs.uncompiled, fun slot' ↦ ?_⟩
    refine (Slots.find?_remove s.modules slot slot').trans ?_
    rw [hs.unopened, ite_self]
  | dropValue slot => exact ⟨hs.expressions, hs.functions, hs.uncompiled, hs.unopened⟩
  | _ => exact hs

/-- Whatever is done, a session is untouched until the interpreter has been started. -/
theorem Dormant.step (hs : s.Dormant) (c : Command) : (s.step i c).2.Dormant := by
  by_cases hready : s.bridge.ready
  · have hstays := step_stays_ready (i := i) hready c
    exact fun h ↦ by simp [hstays] at h
  have huntouched := hs (by simpa using hready)
  by_cases hc : c.needs s
  · have hbegins := begins_step (i := i) hs hc
    rcases Bridge.require_cases i s.bridge with ⟨b₀, hb, -⟩ | ⟨e, g, -, -, hb⟩
    · have hruns := hbegins.reached b₀ hb (fun _ ↦ True) ⟨fun _ _ _ ↦ trivial, fun _ _ _ ↦ trivial⟩
      exact fun h ↦ by simp [hruns.ready] at h
    · exact fun _ ↦ huntouched.resumes (hbegins.refused e _ hb).2
  · exact fun _ ↦ huntouched.step (by simpa using hc)

end Session

end GuestBridge
