import GuestBridge.Proofs.Bridge.ModuleNames

/-!
# Members that are looked up once

The members of an opened module are got and called again and again, while anything else may
happen to the bridge. Names that begin with an underscore are refused without a request. Any
other member is asked for each time until the interpreter gives a value for it; from then on it
has this value, and is never asked for again. A call goes on to the value if it is a handle.
-/

namespace GuestBridge

variable {σ : Type}

/-- A value that is an object of the guest is a handle. -/
theorem Value.exists_handle {v : Value} (h : v.isHandle) : ∃ k, v = .handle k := by
  cases v with
  | handle k => exact ⟨k, rfl⟩
  | _ => cases h

/-! ### Accesses and their reports -/

namespace GuestModule

/-- What is done with a member of a module. -/
inductive Access where
  | get (member : String)
  | call (member : String) (args : List Value)

namespace Access

/-- The member. -/
def member : Access → String
  | .get member | .call member _ => member

/-- What an access comes to. -/
def run (i : Interpreter σ) (m : GuestModule) (b : Bridge σ) :
    Access → Except Failure Value × GuestModule × Bridge σ
  | .get member => m.get i member b
  | .call member args => m.call i member args b

/-- What an access found, what it came to, and the requests that it sent. -/
structure Report (σ : Type) where
  access : Access
  before : GuestModule
  found : Bridge σ
  result : Except Failure Value
  after : GuestModule
  left : Bridge σ
  asked : List (Asked σ)

/-- Access a member and report. -/
def report (i : Interpreter σ) (a : Access) (m : GuestModule) (b : Bridge σ) : Report σ :=
  let (result, after, left) := a.run i.recorded m (b.recording [])
  ⟨a, m, b, result, after, left.map Prod.fst, left.guest.2⟩

/-- An access, after whatever else happens to the bridge. The interpreter is not stopped by
it. -/
structure Turn (σ : Type) where
  elsewhere : Bridge σ → Bridge σ
  ready : ∀ b, b.ready = true → (elsewhere b).ready = true
  access : Access

/-- Access members again and again. -/
def reports (i : Interpreter σ) : List (Turn σ) → GuestModule → Bridge σ → List (Report σ)
  | [], _, _ => []
  | turn :: turns, m, b =>
    let r := turn.access.report i m (turn.elsewhere b)
    r :: reports i turns r.after r.left

end Access

/-! ### What reports say -/

/-- The value that the interpreter gave for a member, if that was the request. -/
def given (i : Interpreter σ) (member : String) (a : Asked σ) : Option Value :=
  match a.request with
  | .getAttr _ name =>
    if name = member then (i.answer a.request a.world).1.toOption else none
  | _ => none

/-- The value that the interpreter gave first for a member. -/
def firstGiven (i : Interpreter σ) (member : String) (earlier : List (Access.Report σ)) :
    Option Value :=
  (earlier.flatMap (·.asked)).findSome? (given i member)

/-- A name that begins with an underscore. -/
def Reserved (member : String) : Prop :=
  ∃ rest, member.toList = '_' :: rest

/-- The ways in which looking a member up goes on a bridge that is ready, with the requests that
it sends, when a value was given for the member before or not. -/
inductive Finds (i : Interpreter σ) (m : GuestModule) (member : String) (b : Bridge σ)
    (before : Option Value) :
    List (Asked σ) → Except Failure Value × GuestModule × Bridge σ → Prop where
  | reserved (name : Reserved member) :
      Finds i m member b before [] (.error (.noMember m.name member), m, b)
  | kept {v : Value} (name : ¬ Reserved member) (value : before = some v) :
      Finds i m member b before [] (.ok v, m, b.retain v)
  | failed {e : Failure} {w : World σ} (name : ¬ Reserved member) (missing : before = none)
      (answer : i.answer (.getAttr m.object member) b.toWorld = (.error e, w)) :
      Finds i m member b before [⟨.getAttr m.object member, b.toWorld⟩] (.error e, m, b.onto w)
  | fetched {v : Value} {w : World σ} (name : ¬ Reserved member) (missing : before = none)
      (answer : i.answer (.getAttr m.object member) b.toWorld = (.ok v, w)) :
      Finds i m member b before [⟨.getAttr m.object member, b.toWorld⟩]
        (.ok v, { m with members := (m.members.put member v).2 }, (b.onto w).retain v)

/-- How an access goes on with what was found, with the requests that it sends then: only a
call of a handle sends one, and any other value is copied into the failure. -/
inductive GoesOn (i : Interpreter σ) :
    Access → Except Failure Value × GuestModule × Bridge σ → List (Asked σ) →
      Except Failure Value × GuestModule × Bridge σ → Prop where
  | got {member : String} (o : Except Failure Value × GuestModule × Bridge σ) :
      GoesOn i (.get member) o [] o
  | missed {member : String} {args : List Value} (e : Failure) (m : GuestModule) (b : Bridge σ) :
      GoesOn i (.call member args) (.error e, m, b) [] (.error e, m, b)
  | called {member : String} {args : List Value} (h : Handle) (m : GuestModule) (b : Bridge σ) :
      GoesOn i (.call member args) (.ok (.handle h), m, b) [⟨.call h args, b.toWorld⟩]
        ((i.answer (.call h args) b.toWorld).1, m,
          (b.onto (i.answer (.call h args) b.toWorld).2).drop (.handle h))
  | notCallable {member : String} {args : List Value} {v : Value} (other : v.isHandle = false)
      (m : GuestModule) (b : Bridge σ) :
      GoesOn i (.call member args) (.ok v, m, b) []
        (.error (.notCallable v), m, (b.retain v).drop v)

namespace Access.Report

/-- A report tells what the access comes to. -/
def Faithful (i : Interpreter σ) (r : Report σ) : Prop :=
  r.access.run i r.before r.found = (r.result, r.after, r.left)

/-- A member of a module is looked up as it should be, after some earlier accesses. -/
structure Resolves (i : Interpreter σ) (m : GuestModule) (earlier : List (Report σ))
    (r : Report σ) : Prop where
  /-- It is the same module, and what it keeps are the values that were given first. -/
  name : r.before.name = m.name
  object : r.before.object = m.object
  members : ∀ member, r.before.members.find? member = firstGiven i member earlier
  /-- The member is looked up, and the access goes on with it. -/
  finds : ∃ first rest o,
    Finds i r.before r.access.member r.found (firstGiven i r.access.member earlier) first o ∧
      GoesOn i r.access o rest (r.result, r.after, r.left) ∧ r.asked = first ++ rest

end Access.Report

/-! ### Looking a member up -/

variable {i : Interpreter σ} {m : GuestModule} {b : Bridge σ} {member : String}
  {first rest : List (Asked σ)} {o o' : Except Failure Value × GuestModule × Bridge σ}

/-- The names that are refused. -/
theorem isReserved_iff : isReserved member ↔ Reserved member := by
  unfold isReserved Reserved
  cases member.toList with
  | nil => simp
  | cons c cs => simp

/-- A property that is looked up is recorded. -/
theorem getAttr_recording {result : Except Failure Value} {w : World σ} {target : Handle}
    (h : b.ready = true) (ha : i.answer (.getAttr target member) b.toWorld = (result, w)) :
    (b.recording []).getAttr i.recorded target member =
      (result, (b.onto w).recording [⟨.getAttr target member, b.toWorld⟩]) := by
  rw [Bridge.getAttr, Bridge.ask_recording h, Bridge.ask_ready h, ha]
  rfl

/-- Looking a member up goes one of the ways. -/
theorem get_recording (i : Interpreter σ) (m : GuestModule) (member : String)
    (h : b.ready = true) :
    ∃ asked o, Finds i m member b (m.members.find? member) asked o ∧
      m.get i.recorded member (b.recording []) = (o.1, o.2.1, o.2.2.recording asked) := by
  unfold get
  cases hreserved : isReserved member with
  | true => exact ⟨_, _, .reserved (isReserved_iff.1 hreserved), rfl⟩
  | false =>
    have hname : ¬ Reserved member := fun hname ↦ by
      rw [isReserved_iff.2 hname] at hreserved
      cases hreserved
    simp only [Bool.false_eq_true, if_false]
    cases hkept : m.members.find? member with
    | some v => exact ⟨_, _, .kept hname rfl, rfl⟩
    | none =>
      rcases ha : i.answer (.getAttr m.object member) b.toWorld with ⟨e | v, w⟩
      · simp only [getAttr_recording h ha]
        exact ⟨_, _, .failed hname rfl ha, rfl⟩
      · simp only [getAttr_recording h ha]
        exact ⟨_, _, .fetched hname rfl ha, rfl⟩

/-- Looking a member up does not stop the interpreter. -/
theorem Finds.ready {before : Option Value} (h : Finds i m member b before first o) :
    o.2.2.ready = b.ready := by
  cases h <;> rfl

/-- Going on with a member does not stop the interpreter. -/
theorem GoesOn.ready {a : Access} (h : GoesOn i a o rest o') : o'.2.2.ready = o.2.2.ready := by
  cases h <;> rfl

/-- Going on with a member does not touch the module. -/
theorem GoesOn.module {a : Access} (h : GoesOn i a o rest o') : o'.2.1 = o.2.1 := by
  cases h <;> rfl

/-- Going on with a member looks nothing up. -/
theorem GoesOn.given {a : Access} (h : GoesOn i a o rest o') (member : String) :
    rest.findSome? (given i member) = none := by
  cases h <;> rfl

/-- What a module keeps when a member has been looked up: what it kept before, and otherwise
what the interpreter gave. -/
theorem Finds.members (h : Finds i m member b (m.members.find? member) first o)
    (other : String) :
    o.2.1.members.find? other =
      (m.members.find? other).or (first.findSome? (GuestModule.given i other)) := by
  cases h with
  | reserved name => simp
  | kept name value => simp
  | failed name missing answer =>
    simp [GuestModule.given, answer, Except.toOption]
  | @fetched v w name missing answer =>
    rw [Slots.find?_put]
    by_cases hother : other = member
    · subst hother
      simp [GuestModule.given, answer, missing, Except.toOption]
    · simp [GuestModule.given, hother, Ne.symm hother]

/-! ### One access -/

namespace Access

/-- What a report says, read off an access on a recording bridge. -/
theorem report_eq {a : Access} {result : Except Failure Value} {after : GuestModule}
    {left : Bridge σ} {asked : List (Asked σ)}
    (h : a.run i.recorded m (b.recording []) = (result, after, left.recording asked)) :
    a.report i m b = ⟨a, m, b, result, after, left, asked⟩ := by
  unfold report
  rw [h]
  rfl

/-- The record takes no part in what an access comes to. -/
theorem report_faithful (i : Interpreter σ) (a : Access) (m : GuestModule) (b : Bridge σ) :
    (a.report i m b).Faithful i := by
  cases a with
  | get member => exact i.recorded_shows.getMember member m (b.recording [])
  | call member args => exact i.recorded_shows.callMember member args m (b.recording [])

/-- A call goes on with what was found. -/
theorem goesOn_call {result : Except Failure Value} {m' : GuestModule} {b' : Bridge σ}
    (hget : m.get i.recorded member (b.recording []) = (result, m', b'.recording first))
    (h : b'.ready = true) (args : List Value) :
    let r := (call member args).report i m b
    ∃ rest, GoesOn i (.call member args) (result, m', b') rest (r.result, r.after, r.left) ∧
      r.asked = first ++ rest := by
  intro r
  cases result with
  | error e =>
    have hr : r = ⟨call member args, m, b, .error e, m', b', first⟩ := by
      apply report_eq
      simp only [run, GuestModule.call, hget]
    rw [hr]
    exact ⟨[], .missed e m' b', (List.append_nil first).symm⟩
  | ok v =>
    cases hv : v.isHandle with
    | false =>
      have hr : r = ⟨call member args, m, b, .error (.notCallable v), m',
          (b'.retain v).drop v, first⟩ := by
        apply report_eq
        simp only [run, GuestModule.call, hget, Bridge.callValue_of_not_isHandle hv,
          Bridge.recording_retain, Bridge.recording_drop]
      rw [hr]
      exact ⟨[], .notCallable hv m' b', (List.append_nil first).symm⟩
    | true =>
      obtain ⟨k, rfl⟩ := Value.exists_handle hv
      have hr : r = ⟨call member args, m, b, (i.answer (.call k args) b'.toWorld).1, m',
          (b'.onto (i.answer (.call k args) b'.toWorld).2).drop (.handle k),
          first ++ [⟨.call k args, b'.toWorld⟩]⟩ := by
        apply report_eq
        simp only [run, GuestModule.call, hget, Bridge.callValue, Bridge.callHandle,
          Bridge.ask_recording h, Bridge.ask_ready h, Bridge.recording_drop]
      rw [hr]
      exact ⟨_, .called k m' b', rfl⟩

/-- An access looks its member up and goes on with it. -/
theorem finds_report (i : Interpreter σ) (a : Access) (m : GuestModule) (h : b.ready = true) :
    let r := a.report i m b
    ∃ first rest o, Finds i m a.member b (m.members.find? a.member) first o ∧
      GoesOn i a o rest (r.result, r.after, r.left) ∧ r.asked = first ++ rest := by
  obtain ⟨first, ⟨result, m', b'⟩, hfinds, hget⟩ := get_recording i m a.member h
  cases a with
  | get member =>
    refine ⟨first, [], _, hfinds, ?_⟩
    rw [report_eq (a := .get member) hget, List.append_nil]
    exact ⟨.got _, rfl⟩
  | call member args =>
    obtain ⟨rest, hgoesOn, hasked⟩ := goesOn_call hget (hfinds.ready.trans h) args
    exact ⟨first, rest, _, hfinds, hgoesOn, hasked⟩

/-- An access does not stop the interpreter. -/
theorem report_ready (i : Interpreter σ) (a : Access) (m : GuestModule) (h : b.ready = true) :
    (a.report i m b).left.ready = true := by
  obtain ⟨first, rest, o, hfinds, hgoesOn, -⟩ := finds_report i a m h
  exact hgoesOn.ready.trans (hfinds.ready.trans h)

/-- An access leaves the module as it is, but for its members. -/
theorem report_module (i : Interpreter σ) (a : Access) (m : GuestModule) (h : b.ready = true) :
    (a.report i m b).after.name = m.name ∧ (a.report i m b).after.object = m.object := by
  obtain ⟨first, rest, o, hfinds, hgoesOn, -⟩ := finds_report i a m h
  have hmodule : (a.report i m b).after = o.2.1 := hgoesOn.module
  rw [hmodule]
  cases hfinds <;> exact ⟨rfl, rfl⟩

/-- What a module keeps after an access: what it kept before, and otherwise what the interpreter
gave. -/
theorem report_members (i : Interpreter σ) (a : Access) (m : GuestModule) (h : b.ready = true)
    (member : String) :
    (a.report i m b).after.members.find? member =
      (m.members.find? member).or ((a.report i m b).asked.findSome? (given i member)) := by
  obtain ⟨first, rest, o, hfinds, hgoesOn, hasked⟩ := finds_report i a m h
  have hmodule : (a.report i m b).after = o.2.1 := hgoesOn.module
  rw [hmodule, hasked, hfinds.members, List.findSome?_append, hgoesOn.given, Option.or_none]

/-! ### One access after the other -/

/-- Members are looked up as they should be, if the module keeps what was given first in the
earlier accesses. -/
theorem reports_resolve {opened : GuestModule} (turns : List (Turn σ))
    (earlier : List (Report σ)) (h : b.ready = true) (hname : m.name = opened.name)
    (hobject : m.object = opened.object)
    (hmembers : ∀ member, m.members.find? member = firstGiven i member earlier)
    {n : Nat} {r : Report σ} (hr : (reports i turns m b)[n]? = some r) :
    r.Resolves i opened (earlier ++ (reports i turns m b).take n) := by
  -- On the turns; each of them adds its report to the earlier ones.
  induction turns generalizing m b earlier n with
  | nil => cases hr
  | cons turn turns ih =>
    have hready := turn.ready b h
    cases n with
    | zero =>
      obtain rfl := Option.some.inj hr
      rw [List.take_zero, List.append_nil]
      refine ⟨hname, hobject, hmembers, ?_⟩
      rw [← hmembers]
      exact finds_report i turn.access m hready
    | succ n =>
      rw [reports, List.take_succ_cons, List.append_cons]
      obtain ⟨hname', hobject'⟩ := report_module i turn.access m hready
      refine ih _ (report_ready i turn.access m hready) (hname'.trans hname)
        (hobject'.trans hobject) (fun member ↦ ?_) hr
      rw [report_members i turn.access m hready, hmembers, firstGiven, firstGiven,
        List.flatMap_append, List.flatMap_singleton, List.findSome?_append]

/-- Every report tells what its access comes to. -/
theorem reports_faithful (i : Interpreter σ) (turns : List (Turn σ)) (m : GuestModule)
    (b : Bridge σ) : ∀ r ∈ reports i turns m b, r.Faithful i := by
  induction turns generalizing m b with
  | nil => simp [reports]
  | cons turn turns ih => exact List.forall_mem_cons.2 ⟨report_faithful i _ _ _, ih _ _⟩

end Access

/-- A module that has been opened keeps nothing yet, and the interpreter has been started. -/
theorem opened_fresh {name : String} {b' : Bridge σ} (h : open? i name b = (.ok m, b')) :
    m.name = name ∧ m.members = Slots.empty ∧ b'.ready = true := by
  cases hname : isPath name with
  | false =>
    rw [open?, hname] at h
    cases h
  | true =>
    have hopens := opens_of_isPath hname i b
    have hopening := (opening_faithful i name b).symm.trans h
    generalize opening i name b = r at hopens hopening
    cases hopens with
    | opened start scope object =>
      obtain ⟨hm, rfl⟩ := Prod.mk.inj hopening
      obtain rfl := Except.ok.inj hm
      have hready := Bridge.ready_of_require start
      exact ⟨rfl, rfl, hready⟩
    | _ => cases (Prod.mk.inj hopening).1

namespace Access

/-- However an interpreter behaves, whatever is done with the members of a module that has been
opened, and whatever happens to the bridge in between: each member is asked for until there is a
value for it, which it has from then on; reserved names are never asked for. -/
theorem resolved_once {name : String} {b' : Bridge σ} (h : open? i name b = (.ok m, b'))
    (turns : List (Turn σ)) :
    let rs := reports i turns m b'
    m.name = name ∧ (∀ r ∈ rs, r.Faithful i) ∧
      ∀ n (r : Report σ), rs[n]? = some r → r.Resolves i m (rs.take n) := by
  obtain ⟨hname, hmembers, hready⟩ := opened_fresh h
  refine ⟨hname, reports_faithful i turns m b', fun n r hr ↦ ?_⟩
  exact reports_resolve turns [] hready rfl rfl (fun _ ↦ by rw [hmembers]; rfl) hr

/-- An interpreter that knows a member whenever it has been asked an odd number of times, and
tells that number. -/
def fickle : Interpreter Nat where
  start g := (.ok (), g)
  answer r w :=
    let next := { w with guest := w.guest + 1 }
    match r with
    | .eval _ => (.ok (.handle (.permanent 0 "Module")), next)
    | .getAttr _ name =>
      if w.guest % 2 = 0 then (.error (.raised "UndefVarError" name), next)
      else (.ok (.int (Int64.ofNat w.guest)), next)
    | _ => (.ok .nothing, next)

/-- A member that is not known at first is asked for twice, and keeps the value it is given. -/
theorem resolved_once_fickle :
    let turn (a : Access) : Turn Nat := ⟨id, fun _ h ↦ h, a⟩
    let m : GuestModule := ⟨"M", .permanent 0 "Module", Slots.empty⟩
    let b : Bridge Nat := { Bridge.fresh 2 1 1 with ready := true }
    let rs := reports fickle
      [turn (.get "x"), turn (.get "_x"), turn (.call "x" []), turn (.get "x")] m b
    open? fickle "M" (Bridge.fresh 0 1 1) = (.ok m, b) ∧
      rs.map (·.asked.length) = [1, 0, 1, 0] ∧
      m.name = "M" ∧ (∀ r ∈ rs, r.Faithful fickle) ∧
      ∀ n (r : Report Nat), rs[n]? = some r → r.Resolves fickle m (rs.take n) := by
  intro turn m b rs
  have hopen : open? fickle "M" (Bridge.fresh 0 1 1) = (.ok m, b) := rfl
  exact ⟨hopen, by decide, resolved_once hopen _⟩

end Access

end GuestModule

end GuestBridge
