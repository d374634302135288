import GuestBridge.Proofs.Bridge.Recording
import GuestBridge.Proofs.Recency.History

/-!
# Remembered values

The two caches of a bridge, in whatever order it is asked to evaluate, to execute, to look
texts up and to call functions by name. A text that is held is not asked for again and has the
value that the interpreter gave for it last; a text that is not held is asked for once, and
what comes of it is passed on. Nothing else touches a cache, and no cache shows in what the
other one does.
-/

namespace GuestBridge

variable {σ α β : Type}

/-! ### Errands and their reports -/

/-- What a bridge is asked to do with guest code. -/
inductive Errand where
  | eval (code : String)
  | exec (code : String)
  | evalCached (code : String)
  | resolve (name : String)
  | call (name : String) (args : List Value)

namespace Errand

/-- What an errand comes to. Executing code comes to nothing. -/
def run (i : Interpreter σ) (b : Bridge σ) : Errand → Outcome σ Value
  | .eval code => b.eval i code
  | .exec code => (b.exec i code).andThen fun _ b ↦ (.ok .nothing, b)
  | .evalCached code => b.evalCached i code
  | .resolve name => b.resolve i name
  | .call name args => b.call i name args

/-- The cache that an errand looks into, and the text that it looks up. -/
def lookup? : Errand → Option (Bridge.Memo × String)
  | .evalCached code => some (.expressions, code)
  | .resolve name | .call name _ => some (.functions, name)
  | .eval _ | .exec _ => none

/-- What an errand found, what it came to, and the requests that it sent. -/
structure Report (σ : Type) where
  errand : Errand
  found : Bridge σ
  result : Except Failure Value
  left : Bridge σ
  asked : List (Asked σ)

/-- Go on an errand and report. -/
def report (i : Interpreter σ) (b : Bridge σ) (e : Errand) : Report σ :=
  let (result, left) := e.run i.recorded (b.recording [])
  ⟨e, b, result, left.map Prod.fst, left.guest.2⟩

/-- An errand, after whatever else happens to the bridge that leaves its caches alone. -/
structure Round (σ : Type) where
  elsewhere : Bridge σ → Bridge σ
  alone : ∀ b m, (elsewhere b).memo m = b.memo m
  errand : Errand

/-- Go on one errand after the other. -/
def reports (i : Interpreter σ) : List (Round σ) → Bridge σ → List (Report σ)
  | [], _ => []
  | round :: rounds, b =>
    let r := round.errand.report i (round.elsewhere b)
    r :: reports i rounds r.left

end Errand

/-! ### What reports say -/

namespace Bridge

/-- The value that was given for a text when it was asked for first, unless it was held. -/
def fetched (i : Interpreter σ) (m : Memo) (text : String) (b : Bridge σ)
    (asked : List (Asked σ)) : Option Value :=
  if (b.memo m).contains text then none
  else asked.head?.bind fun a ↦ (i.answer a.request a.world).1.toOption

/-- What is done with the cache in which a text is looked up, with the value fetched for it. -/
def lookupDeeds (text : String) (fetched : Option Value) : List (Recency.Deed String Value) :=
  .get text :: (fetched.map (.insert text)).toList

end Bridge

namespace Errand.Report

variable (i : Interpreter σ)

/-- A report tells what the errand comes to. -/
def Faithful (r : Report σ) : Prop :=
  r.errand.run i r.found = (r.result, r.left)

/-- The value that the interpreter gave for a text that was looked up and not held. -/
def fetched (m : Bridge.Memo) (text : String) (r : Report σ) : Option Value :=
  if r.errand.lookup? = some (m, text) then r.found.fetched i m text r.asked else none

/-- The value that the interpreter gave last for a text that was looked up and not held. -/
def lastFetched (m : Bridge.Memo) (text : String) (earlier : List (Report σ)) : Option Value :=
  earlier.reverse.findSome? (fetched i m text)

/-- What is done with a cache: the text is looked up, and inserted if it was fetched. -/
def deeds (m : Bridge.Memo) (r : Report σ) : List (Recency.Deed String Value) :=
  match r.errand.lookup? with
  | some (m', text) =>
    if m' = m then Bridge.lookupDeeds text (r.found.fetched i m text r.asked) else []
  | none => []

end Errand.Report

/-- What looking a text up comes to, with the requests that it sends, if a value was given for
the text before. -/
structure Looks (i : Interpreter σ) (m : Bridge.Memo) (text : String) (given : Option Value)
    (found : Bridge σ) (asked : List (Asked σ)) (o : Outcome σ Value) : Prop where
  /-- A text that is held is not asked for, and has the value that was given. -/
  hit : (found.memo m).contains text → asked = [] ∧ ∃ v, given = some v ∧ o.1 = .ok v
  /-- A text that is not held is asked for once, and what comes of it is passed on. -/
  miss : ¬ (found.memo m).contains text → ∀ b, found.require i = (.ok (), b) →
    asked = [⟨.eval text, b.toWorld⟩] ∧ o.1 = (i.answer (.eval text) b.toWorld).1
  /-- If the interpreter cannot be started, this is what comes of it. -/
  refused : ¬ (found.memo m).contains text → ∀ e b, found.require i = (.error e, b) →
    asked = [] ∧ o = (.error e, b)
  /-- So nothing is asked for exactly if the text is held, where the interpreter starts. -/
  silent_iff : ∀ b, found.require i = (.ok (), b) →
    (asked = [] ↔ (found.memo m).contains text)
  /-- A failure leaves both caches as they are. -/
  failing : ∀ e, o.1 = .error e → ∀ m', o.2.memo m' = found.memo m'

namespace Errand.Report

variable (i : Interpreter σ)

/-- How an errand goes on when it has looked a text up, with the requests that it sends then: a
call goes to the value, and anything else is done. -/
def Continues (r : Report σ) (o : Outcome σ Value) (asked : List (Asked σ)) : Prop :=
  match r.errand, o with
  | .call _ args, (.ok v, b) =>
    (r.result, r.left) = ((b.callValue i v args).1, (b.callValue i v args).2.drop v) ∧
      ∀ a ∈ asked, ∃ h, v = .handle h ∧ a.request = .call h args
  | _, o => (r.result, r.left) = o ∧ asked = []

/-- The caches show in an errand as they should, after some earlier ones. -/
structure Transparent (capacity : Bridge.Memo → Nat) (earlier : List (Report σ))
    (r : Report σ) : Prop where
  /-- The text that is looked up is held or asked for. -/
  looks : ∀ m text, r.errand.lookup? = some (m, text) → ∃ o first rest,
    Looks i m text (lastFetched i m text earlier) r.found first o ∧
      r.asked = first ++ rest ∧ r.Continues i o rest
  /-- A cache that is not looked into is neither read nor written: with any other cache in its
  place the errand comes to the same and leaves that one. -/
  blind : ∀ m, (∀ text, r.errand.lookup? ≠ some (m, text)) → ∀ cache,
    r.errand.report i (r.found.withMemo cache m) =
      { r with found := r.found.withMemo cache m, left := r.left.withMemo cache m }
  /-- A cache has seen nothing but the texts that were looked up and those that were fetched,
  and remembers them accordingly. -/
  history : ∀ m, r.found.memo m = (Recency.empty (capacity m)).run (earlier.flatMap (deeds i m))
  remembers : ∀ m, Recency.Remembers (capacity m)
    ((Recency.empty (capacity m)).history (earlier.flatMap (deeds i m))) (r.found.memo m)

end Errand.Report

/-! ### Caches in the place of others -/

/-- An outcome with another cache. -/
def Outcome.withMemo (o : Outcome σ α) (cache : Recency String Value) (m : Bridge.Memo) :
    Outcome σ α :=
  (o.1, o.2.withMemo cache m)

namespace Bridge

variable {m m' : Memo}

@[simp] private theorem memo_withMemo_self (b : Bridge σ) (cache : Recency String Value)
    (m : Memo) :
    (b.withMemo cache m).memo m = cache := by
  cases m <;> rfl

@[simp] private theorem withMemo_memo (b : Bridge σ) (m : Memo) : b.withMemo (b.memo m) m = b := by
  cases m <;> rfl

/-- A cache does not change when the other one is replaced. -/
theorem memo_withMemo_of_ne (h : m' ≠ m) (b : Bridge σ) (cache : Recency String Value) :
    (b.withMemo cache m).memo m' = b.memo m' := by
  cases m <;> cases m'
  case expressions.expressions | functions.functions => exact absurd rfl h
  all_goals rfl

/-- Different caches are replaced in any order. -/
theorem withMemo_comm (h : m' ≠ m) (b : Bridge σ) (cache cache' : Recency String Value) :
    (b.withMemo cache m).withMemo cache' m' = (b.withMemo cache' m').withMemo cache m := by
  cases m <;> cases m'
  case expressions.expressions | functions.functions => exact absurd rfl h
  all_goals rfl

/-- Replacing a cache does not touch the world. -/
@[simp] theorem withMemo_toWorld (b : Bridge σ) (cache : Recency String Value) (m : Memo) :
    (b.withMemo cache m).toWorld = b.toWorld := by
  cases m <;> rfl

/-- A bridge with another cache goes on with a world. -/
theorem withMemo_onto (b : Bridge σ) (cache : Recency String Value) (m : Memo) (w : World σ) :
    (b.withMemo cache m).onto w = (b.onto w).withMemo cache m := by
  cases m <;> rfl

/-- Replacing a cache is not recorded. -/
theorem recording_withMemo (b : Bridge σ) (cache : Recency String Value) (m : Memo)
    (log : List (Asked σ)) :
    (b.recording log).withMemo cache m = (b.withMemo cache m).recording log := by
  cases m <;> rfl

/-- A bridge goes on with another cache as it would go on. -/
theorem andThen_withMemo {cache : Recency String Value} (o : Outcome σ α)
    {next : α → Bridge σ → Outcome σ β}
    (h : ∀ x b, next x (b.withMemo cache m) = (next x b).withMemo cache m) :
    (o.withMemo cache m).andThen next = (o.andThen next).withMemo cache m := by
  obtain ⟨result, b⟩ := o
  cases result with
  | ok x => exact h x b
  | error e => rfl

variable (i : Interpreter σ) (b : Bridge σ) (cache : Recency String Value)

/-- No cache shows in starting. -/
theorem require_withMemo (m : Memo) :
    (b.withMemo cache m).require i = (b.require i).withMemo cache m := by
  rcases hs : i.start b.guest with ⟨e | u, g⟩ <;> cases m <;> by_cases hr : b.ready <;>
    simp [require, withMemo, Outcome.withMemo, hr, hs]

/-- No cache shows in asking. -/
theorem ask_withMemo (r : Request) (m : Memo) :
    (b.withMemo cache m).ask i r = (b.ask i r).withMemo cache m := by
  unfold ask
  rw [require_withMemo]
  refine andThen_withMemo _ fun _ b ↦ ?_
  rw [withMemo_toWorld]
  exact Prod.ext rfl (withMemo_onto b cache m _)

/-- No cache shows in evaluating. -/
theorem eval_withMemo (code : String) (m : Memo) :
    (b.withMemo cache m).eval i code = (b.eval i code).withMemo cache m :=
  ask_withMemo i b cache _ m

/-- No cache shows in executing. -/
theorem exec_withMemo (code : String) (m : Memo) :
    (b.withMemo cache m).exec i code = (b.exec i code).withMemo cache m := by
  unfold exec
  rw [eval_withMemo]
  exact andThen_withMemo _ fun v b ↦ by cases m <;> rfl

/-- No cache shows in calling a value. -/
theorem callValue_withMemo (callee : Value) (args : List Value) (m : Memo) :
    (b.withMemo cache m).callValue i callee args =
      (b.callValue i callee args).withMemo cache m := by
  cases callee with
  | handle h => exact ask_withMemo i b cache _ m
  | _ => cases m <;> rfl

/-- The other cache does not show in keeping a value. -/
theorem remember_withMemo (h : m' ≠ m) (code : String) (v : Value) :
    (b.withMemo cache m).remember m' code v = (b.remember m' code v).withMemo cache m := by
  unfold remember
  rw [memo_withMemo_of_ne h]
  simp only [withMemo_comm h]
  cases m <;> rfl

/-- The other cache does not show in looking a text up. -/
theorem evalThrough_withMemo (h : m' ≠ m) (code : String) :
    (b.withMemo cache m).evalThrough i m' code =
      (b.evalThrough i m' code).withMemo cache m := by
  unfold evalThrough
  rw [memo_withMemo_of_ne h]
  rcases (b.memo m').get code with ⟨_ | v, cache'⟩
  · simp only [eval_withMemo]
    exact andThen_withMemo _ fun v b ↦ Prod.ext rfl (remember_withMemo b cache h code v)
  · simp only [withMemo_comm h]
    cases m <;> rfl

/-- The cache of expressions does not show in calling a function. -/
theorem call_withMemo (name : String) (args : List Value) (h : Memo.functions ≠ m) :
    (b.withMemo cache m).call i name args = (b.call i name args).withMemo cache m := by
  unfold call resolve
  rw [evalThrough_withMemo i b cache h]
  refine andThen_withMemo _ fun callee b ↦ ?_
  rw [callValue_withMemo]
  cases m <;> rfl

end Bridge

/-- A cache that is not looked into does not show in an errand. -/
theorem Errand.run_withMemo (i : Interpreter σ) (b : Bridge σ) (e : Errand) {m : Bridge.Memo}
    (h : ∀ text, e.lookup? ≠ some (m, text)) (cache : Recency String Value) :
    e.run i (b.withMemo cache m) = (e.run i b).withMemo cache m := by
  cases e with
  | eval code => exact b.eval_withMemo i cache code m
  | exec code =>
    simp only [run, Bridge.exec_withMemo]
    exact Bridge.andThen_withMemo _ fun _ _ ↦ rfl
  | evalCached code =>
    have hm : Bridge.Memo.expressions ≠ m := fun hm ↦ h code (by rw [← hm]; rfl)
    exact b.evalThrough_withMemo i cache hm code
  | resolve name =>
    have hm : Bridge.Memo.functions ≠ m := fun hm ↦ h name (by rw [← hm]; rfl)
    exact b.evalThrough_withMemo i cache hm name
  | call name args =>
    have hm : Bridge.Memo.functions ≠ m := fun hm ↦ h name (by rw [← hm]; rfl)
    exact b.call_withMemo i cache name args hm

/-- A cache that is not looked into does not show in the report of an errand. -/
theorem Errand.report_withMemo (i : Interpreter σ) (b : Bridge σ) (e : Errand) {m : Bridge.Memo}
    (h : ∀ text, e.lookup? ≠ some (m, text)) (cache : Recency String Value) :
    e.report i (b.withMemo cache m) =
      { e.report i b with
        found := b.withMemo cache m, left := (e.report i b).left.withMemo cache m } := by
  unfold report
  rw [← Bridge.recording_withMemo, run_withMemo i.recorded _ e h]
  cases m <;> rfl

/-! ### Looking a text up -/

/-- The ways in which looking a text up goes on a bridge, with the requests that it sends. -/
inductive LooksUp (i : Interpreter σ) (m : Bridge.Memo) (text : String) (b : Bridge σ) :
    List (Asked σ) → Outcome σ Value → Prop where
  | held {v : Value} (found : ((b.memo m).get text).1 = some v) :
      LooksUp i m text b [] (.ok v, (b.withMemo ((b.memo m).get text).2 m).retain v)
  | refused {e : Failure} {b₀ : Bridge σ} (missing : ¬ (b.memo m).contains text)
      (start : b.require i = (.error e, b₀)) : LooksUp i m text b [] (.error e, b₀)
  | failed {e : Failure} {b₀ : Bridge σ} {w : World σ} (missing : ¬ (b.memo m).contains text)
      (start : b.require i = (.ok (), b₀))
      (answer : i.answer (.eval text) b₀.toWorld = (.error e, w)) :
      LooksUp i m text b [⟨.eval text, b₀.toWorld⟩] (.error e, b₀.onto w)
  | fetched {v : Value} {b₀ : Bridge σ} {w : World σ} (missing : ¬ (b.memo m).contains text)
      (start : b.require i = (.ok (), b₀))
      (answer : i.answer (.eval text) b₀.toWorld = (.ok v, w)) :
      LooksUp i m text b [⟨.eval text, b₀.toWorld⟩] (.ok v, (b₀.onto w).remember m text v)

section Lookups

variable {i : Interpreter σ} {m : Bridge.Memo} {text : String} {b b₀ : Bridge σ}
  {asked : List (Asked σ)} {o : Outcome σ Value}

/-- Keeping a value does not touch the record. -/
theorem Bridge.remember_recording (m : Memo) (text : String) (v : Value) (b : Bridge σ)
    (log : List (Asked σ)) :
    (b.recording log).remember m text v = (b.remember m text v).recording log := by
  cases m <;> rfl

/-- Looking a text up goes one of the ways. -/
theorem Bridge.evalThrough_recording (i : Interpreter σ) (m : Memo) (text : String)
    (b : Bridge σ) :
    ∃ asked o, LooksUp i m text b asked o ∧
      (b.recording []).evalThrough i.recorded m text = (o.1, o.2.recording asked) := by
  have hmemo : (b.recording []).memo m = b.memo m := by cases m <;> rfl
  unfold evalThrough
  rw [hmemo]
  by_cases hheld : (b.memo m).contains text
  · obtain ⟨v, -, hget⟩ := Recency.exists_get_eq hheld
    refine ⟨_, _, .held (congrArg Prod.fst hget), ?_⟩
    simp only [hget, recording_withMemo]
    rfl
  · rw [Recency.get_eq_of_not_contains hheld]
    simp only [eval]
    rcases ask_recording_cases i b (.eval text) [] with
      ⟨b₀, e | v, w, hb, ha, hask⟩ | ⟨e, b₀, hb, hask⟩ <;> rw [hask]
    · exact ⟨_, _, .failed hheld hb ha, rfl⟩
    · exact ⟨_, _, .fetched hheld hb ha, by rw [Outcome.andThen_ok, remember_recording]; rfl⟩
    · exact ⟨_, _, .refused hheld hb, rfl⟩

/-- The caches of a bridge that has been started. -/
theorem Bridge.memo_of_require {result : Except Failure Unit} (h : b.require i = (result, b₀))
    (m : Memo) : b₀.memo m = b.memo m := by
  have hself := b.require_withMemo i (b.memo m) m
  rw [withMemo_memo, h] at hself
  have hb₀ : b₀ = b₀.withMemo (b.memo m) m := congrArg Prod.snd hself
  rw [hb₀, memo_withMemo_self]

/-- Going on with a world leaves the caches alone. -/
@[simp] theorem Bridge.memo_onto (b : Bridge σ) (w : World σ) (m : Memo) :
    (b.onto w).memo m = b.memo m := by
  cases m <;> rfl

/-- A text that has a value is held. -/
theorem Bridge.contains_of_get {v : Value} (h : ((b.memo m).get text).1 = some v) :
    (b.memo m).contains text := by
  by_contra hmissing
  rw [Recency.get_eq_of_not_contains hmissing] at h
  cases h

/-- What is fetched when a text is not held. -/
theorem Bridge.fetched_of_not_contains (h : ¬ (b.memo m).contains text) :
    b.fetched i m text asked =
      asked.head?.bind fun a ↦ (i.answer a.request a.world).1.toOption :=
  if_neg h

/-- The cache in which a text that is not held is looked up. -/
theorem Bridge.run_lookupDeeds (h : ¬ (b.memo m).contains text) (fetched : Option Value) :
    (b.memo m).run (lookupDeeds text fetched) =
      fetched.elim (b.memo m) fun v ↦ ((b.memo m).insert text v).2 := by
  have hget : ((b.memo m).step (.get text)).2 = b.memo m := by
    rw [Recency.step, Recency.get_eq_of_not_contains h]
  cases fetched with
  | none => exact hget
  | some v =>
    show ((((b.memo m).step (.get text)).2).step (.insert text v)).2 = _
    rw [hget]
    rfl

/-- Dropping a value leaves the caches alone. -/
@[simp] theorem Bridge.memo_drop (b : Bridge σ) (v : Value) (m : Memo) :
    (b.drop v).memo m = b.memo m := by
  cases m <;> rfl

/-- The cache after looking a text up. Only the first request matters. -/
theorem LooksUp.memo_eq (h : LooksUp i m text b asked o) {rest : List (Asked σ)}
    (hrest : ∀ e, o.1 = .error e → rest = []) :
    o.2.memo m = (b.memo m).run (Bridge.lookupDeeds text (b.fetched i m text (asked ++ rest))) := by
  cases h with
  | @held v found =>
    rw [Bridge.fetched, if_pos (Bridge.contains_of_get found)]
    cases m <;> rfl
  | @refused e b₀ missing start =>
    rw [hrest e rfl, Bridge.run_lookupDeeds missing, Bridge.fetched_of_not_contains missing]
    exact Bridge.memo_of_require start m
  | @failed e b₀ w missing start answer =>
    rw [Bridge.run_lookupDeeds missing, Bridge.fetched_of_not_contains missing,
      List.singleton_append, List.head?_cons, Option.bind_some, answer, Bridge.memo_onto]
    exact Bridge.memo_of_require start m
  | @fetched v b₀ w missing start answer =>
    rw [Bridge.run_lookupDeeds missing, Bridge.fetched_of_not_contains missing,
      List.singleton_append, List.head?_cons, Option.bind_some, answer,
      ← Bridge.memo_of_require start m]
    cases m <;> rfl

/-- Looking a text up in a cache of which the history is known. -/
theorem LooksUp.looks {capacity : Nat} {past : List (Recency.Done String Value)}
    (h : LooksUp i m text b asked o) (hpast : Recency.Tracks capacity past (b.memo m)) :
    Looks i m text (Recency.lastGiven past text) b asked o := by
  cases h with
  | @held v found =>
    have hheld := Bridge.contains_of_get found
    obtain ⟨v', hgiven, hget⟩ := hpast.exists_get hheld
    obtain rfl : v = v' := Option.some.inj (found.symm.trans hget)
    exact ⟨fun _ ↦ ⟨rfl, v, hgiven, rfl⟩, fun h ↦ absurd hheld h, fun h ↦ absurd hheld h,
      fun _ _ ↦ iff_of_true rfl hheld, nofun⟩
  | @refused e b₀ missing start =>
    refine ⟨fun h ↦ absurd h missing, ?_, ?_, ?_, ?_⟩
    · intro _ b₁ hb₁
      cases start.symm.trans hb₁
    · intro _ e' b₁ hb₁
      cases start.symm.trans hb₁
      exact ⟨rfl, rfl⟩
    · intro b₁ hb₁
      cases start.symm.trans hb₁
    · exact fun _ _ m' ↦ Bridge.memo_of_require start m'
  | @failed e b₀ w missing start answer =>
    refine ⟨fun h ↦ absurd h missing, ?_, ?_, fun _ _ ↦ iff_of_false nofun missing, ?_⟩
    · intro _ b₁ hb₁
      cases start.symm.trans hb₁
      exact ⟨rfl, by rw [answer]⟩
    · intro _ e' b₁ hb₁
      cases start.symm.trans hb₁
    · intro _ _ m'
      rw [Bridge.memo_onto, Bridge.memo_of_require start]
  | @fetched v b₀ w missing start answer =>
    refine ⟨fun h ↦ absurd h missing, ?_, ?_, fun _ _ ↦ iff_of_false nofun missing, nofun⟩
    · intro _ b₁ hb₁
      cases start.symm.trans hb₁
      exact ⟨rfl, by rw [answer]⟩
    · intro _ e' b₁ hb₁
      cases start.symm.trans hb₁

end Lookups

/-! ### One errand -/

namespace Errand

/-- What a report says, read off an errand on a recording bridge. -/
theorem report_eq {i : Interpreter σ} {b left : Bridge σ} {e : Errand}
    {result : Except Failure Value} {asked : List (Asked σ)}
    (h : e.run i.recorded (b.recording []) = (result, left.recording asked)) :
    e.report i b = ⟨e, b, result, left, asked⟩ := by
  unfold report
  rw [h]
  rfl

/-- An errand that looks a text up goes on with what comes of that. -/
theorem exists_looksUp (i : Interpreter σ) (b : Bridge σ) {e : Errand} {m : Bridge.Memo}
    {text : String} (h : e.lookup? = some (m, text)) :
    ∃ asked rest o, LooksUp i m text b asked o ∧ (e.report i b).asked = asked ++ rest ∧
      (e.report i b).Continues i o rest := by
  obtain ⟨asked, o, hlooks, hrun⟩ := b.evalThrough_recording i m text
  cases e with
  | eval code => cases h
  | exec code => cases h
  | evalCached code =>
    obtain ⟨rfl, rfl⟩ := Prod.mk.inj (Option.some.inj h)
    refine ⟨asked, [], o, hlooks, ?_, ?_⟩ <;> rw [report_eq (e := .evalCached code) hrun]
    · rw [List.append_nil]
    · exact ⟨rfl, rfl⟩
  | resolve name =>
    obtain ⟨rfl, rfl⟩ := Prod.mk.inj (Option.some.inj h)
    refine ⟨asked, [], o, hlooks, ?_, ?_⟩ <;> rw [report_eq (e := .resolve name) hrun]
    · rw [List.append_nil]
    · exact ⟨rfl, rfl⟩
  | call name args =>
    obtain ⟨rfl, rfl⟩ := Prod.mk.inj (Option.some.inj h)
    obtain ⟨result, b₁⟩ := o
    cases result with
    | error e =>
      have hreport : (call name args).report i b =
          ⟨call name args, b, .error e, b₁, asked⟩ := by
        apply report_eq
        simp only [run, Bridge.call, Bridge.resolve, hrun, Outcome.andThen_error]
      refine ⟨asked, [], (.error e, b₁), hlooks, ?_, ?_⟩ <;> rw [hreport]
      · rw [List.append_nil]
      · exact ⟨rfl, rfl⟩
    | ok v =>
      obtain ⟨rest, hcall, hrest⟩ := b₁.callValue_recording i v args asked
      have hreport : (call name args).report i b =
          ⟨call name args, b, (b₁.callValue i v args).1, (b₁.callValue i v args).2.drop v,
            asked ++ rest⟩ := by
        apply report_eq
        simp only [run, Bridge.call, Bridge.resolve, hrun, Outcome.andThen_ok, hcall,
          Bridge.recording_drop]
      refine ⟨asked, rest, (.ok v, b₁), hlooks, ?_, ?_⟩ <;> rw [hreport]
      exact ⟨rfl, hrest⟩

namespace Report

variable {i : Interpreter σ} {r : Report σ} {o : Outcome σ Value} {rest : List (Asked σ)}
  {m : Bridge.Memo} {text : String}

/-- What is done with the cache that an errand looks into. -/
theorem deeds_of_lookup (h : r.errand.lookup? = some (m, text)) :
    r.deeds i m = Bridge.lookupDeeds text (r.found.fetched i m text r.asked) := by
  rw [deeds, h]
  exact if_pos rfl

/-- Nothing is done with a cache that an errand does not look into. -/
theorem deeds_of_other (h : ∀ text, r.errand.lookup? ≠ some (m, text)) : r.deeds i m = [] := by
  rw [deeds]
  split
  · next m' text htext =>
    refine if_neg fun hm ↦ h text ?_
    rw [htext, hm]
  · rfl

/-- An errand stops at a failure to look a text up. -/
theorem Continues.rest_eq_nil (h : r.Continues i o rest) {e : Failure} (he : o.1 = .error e) :
    rest = [] := by
  obtain ⟨result, b⟩ := o
  obtain rfl : result = .error e := he
  unfold Continues at h
  split at h
  · next heq => cases heq
  · exact h.2

/-- Going on leaves the caches alone. -/
theorem Continues.memo_eq (h : r.Continues i o rest) (m : Bridge.Memo) :
    r.left.memo m = o.2.memo m := by
  unfold Continues at h
  split at h
  · next args v b _ =>
    have hself := b.callValue_withMemo i (b.memo m) v args m
    rw [Bridge.withMemo_memo] at hself
    have hcall := congrArg (·.2.memo m) hself
    have hleft := congrArg (·.2.memo m) h.1
    simp only [Bridge.memo_drop, Outcome.withMemo, Bridge.memo_withMemo_self] at hcall hleft
    exact hleft.trans hcall
  · rw [← congrArg Prod.snd h.1]

end Report

/-- What an errand does with a cache. -/
theorem memo_report (i : Interpreter σ) (b : Bridge σ) (e : Errand) (m : Bridge.Memo) :
    (e.report i b).left.memo m = (b.memo m).run ((e.report i b).deeds i m) := by
  by_cases hlooks : ∃ text, e.lookup? = some (m, text)
  · obtain ⟨text, htext⟩ := hlooks
    obtain ⟨asked, rest, o, hlooks, hasked, hcontinues⟩ := exists_looksUp i b htext
    rw [Report.deeds_of_lookup htext, hasked, hcontinues.memo_eq]
    exact hlooks.memo_eq fun _ ↦ hcontinues.rest_eq_nil
  · have hother : ∀ text, e.lookup? ≠ some (m, text) := fun text htext ↦ hlooks ⟨text, htext⟩
    have hblind := congrArg (·.left.memo m) (report_withMemo i b e hother (b.memo m))
    simp only [Bridge.withMemo_memo, Bridge.memo_withMemo_self] at hblind
    rw [Report.deeds_of_other hother, hblind]
    rfl

/-! ### One errand after the other -/

namespace Report

variable {i : Interpreter σ} {m : Bridge.Memo}

/-- The value that an errand gave a text is the one that it fetched. -/
theorem findSome?_deeds (i : Interpreter σ) (m : Bridge.Memo) (text : String) (r : Report σ) :
    (r.deeds i m).reverse.findSome? (·.given text) = r.fetched i m text := by
  by_cases hlooks : ∃ text', r.errand.lookup? = some (m, text')
  · obtain ⟨text', htext'⟩ := hlooks
    rw [deeds_of_lookup htext', fetched, htext', Bridge.lookupDeeds]
    by_cases htext : text' = text
    · subst htext
      cases r.found.fetched i m text' r.asked <;> simp [Recency.Deed.given]
    · cases r.found.fetched i m text' r.asked <;> simp [Recency.Deed.given, htext]
  · have hother : ∀ text, r.errand.lookup? ≠ some (m, text) :=
      fun text htext ↦ hlooks ⟨text, htext⟩
    rw [deeds_of_other hother, fetched, if_neg (hother text)]
    rfl

/-- The value that was inserted last for a text is the one that was fetched last. -/
theorem findSome?_flatMap_deeds (i : Interpreter σ) (m : Bridge.Memo) (text : String)
    (earlier : List (Report σ)) :
    (earlier.flatMap (deeds i m)).reverse.findSome? (·.given text) =
      lastFetched i m text earlier := by
  induction earlier with
  | nil => rfl
  | cons r rs ih =>
    rw [List.flatMap_cons, List.reverse_append, List.findSome?_append, ih, findSome?_deeds,
      lastFetched, lastFetched, List.reverse_cons, List.findSome?_append,
      List.findSome?_singleton]

/-- The caches show in an errand as they should if they have seen nothing else. -/
theorem transparent_report {capacity : Bridge.Memo → Nat} {earlier : List (Report σ)}
    (b : Bridge σ) (e : Errand)
    (h : ∀ m, b.memo m = (Recency.empty (capacity m)).run (earlier.flatMap (deeds i m))) :
    (e.report i b).Transparent i capacity earlier where
  looks m text htext := by
    have hpast := Recency.tracks_run (capacity m) (earlier.flatMap (deeds i m))
    rw [← h] at hpast
    obtain ⟨asked, rest, o, hlooks, hasked, hcontinues⟩ := exists_looksUp i b htext
    refine ⟨o, asked, rest, ?_, hasked, hcontinues⟩
    rw [← findSome?_flatMap_deeds, ← Recency.lastGiven_history]
    exact hlooks.looks hpast
  blind m hother cache := report_withMemo i b e hother cache
  history := h
  remembers m := by
    rw [show (e.report i b).found.memo m = _ from h m]
    exact (Recency.tracks_run _ _).remembers

end Report

/-- The caches of a bridge that has not been used yet. -/
theorem memo_fresh (guest : σ) (capacity : Bridge.Memo → Nat) (m : Bridge.Memo) :
    (Bridge.fresh guest (capacity .expressions) (capacity .functions)).memo m =
      Recency.empty (capacity m) := by
  cases m <;> rfl

/-- A report tells what the errand comes to. -/
theorem report_faithful (i : Interpreter σ) (b : Bridge σ) (e : Errand) :
    (e.report i b).Faithful i := by
  have hshown : e.run i b = (e.run i.recorded (b.recording [])).map Prod.fst := by
    have hs := i.recorded_shows
    cases e with
    | eval code => exact hs.eval code (b.recording [])
    | exec code =>
      have hexec := hs.exec code (b.recording [])
      rw [Bridge.map_recording] at hexec
      simp only [run, hexec]
      exact Interpreter.Shows.andThen fun _ _ ↦ rfl
    | evalCached code => exact hs.evalThrough .expressions code (b.recording [])
    | resolve name => exact hs.evalThrough .functions name (b.recording [])
    | call name args => exact hs.call name args (b.recording [])
  exact hshown

/-- The caches show as they should in all errands, if they have seen nothing but the earlier
ones. -/
theorem reports_transparent {i : Interpreter σ} {capacity : Bridge.Memo → Nat}
    (rounds : List (Round σ)) (earlier : List (Report σ)) {b : Bridge σ}
    (h : ∀ m, b.memo m = (Recency.empty (capacity m)).run (earlier.flatMap (Report.deeds i m)))
    {n : Nat} {r : Report σ} (hr : (reports i rounds b)[n]? = some r) :
    r.Transparent i capacity (earlier ++ (reports i rounds b).take n) := by
  -- On the rounds; each of them adds its report to the earlier ones.
  induction rounds generalizing b earlier n with
  | nil => cases hr
  | cons round rounds ih =>
    have hfound : ∀ m, (round.elsewhere b).memo m =
        (Recency.empty (capacity m)).run (earlier.flatMap (Report.deeds i m)) :=
      fun m ↦ (round.alone b m).trans (h m)
    cases n with
    | zero =>
      obtain rfl := Option.some.inj hr
      rw [List.take_zero, List.append_nil]
      exact Report.transparent_report _ _ hfound
    | succ n =>
      rw [reports, List.take_succ_cons, List.append_cons]
      refine ih _ (fun m ↦ ?_) hr
      rw [memo_report, hfound, List.flatMap_append, List.flatMap_singleton, Recency.run,
        Recency.run, Recency.run, List.foldl_append]

/-- Every report tells what its errand comes to. -/
theorem reports_faithful (i : Interpreter σ) (rounds : List (Round σ)) (b : Bridge σ) :
    ∀ r ∈ reports i rounds b, r.Faithful i := by
  induction rounds generalizing b with
  | nil => simp [reports]
  | cons round rounds ih => exact List.forall_mem_cons.2 ⟨report_faithful i _ _, ih _⟩

/-- However an interpreter behaves, whatever room there is, and whatever a bridge is asked to
do: a text is asked for when it is not held, and otherwise has the value that it was given
last; and neither cache is touched by anything but the lookups that go through it. -/
theorem caches_transparent (i : Interpreter σ) (guest : σ) (capacity : Bridge.Memo → Nat)
    (rounds : List (Round σ)) :
    let rs := reports i rounds
      (Bridge.fresh guest (capacity .expressions) (capacity .functions))
    (∀ r ∈ rs, r.Faithful i) ∧
      ∀ n (r : Report σ), rs[n]? = some r → r.Transparent i capacity (rs.take n) :=
  ⟨reports_faithful i rounds _, fun _ _ hr ↦
    reports_transparent rounds [] (memo_fresh guest capacity) hr⟩

end Errand

end GuestBridge
