import GuestBridge.Proofs.Bridge.LazyStart
import GuestBridge.Proofs.Text.Pieces

/-!
# Names of modules

The name of a module becomes guest code, so only paths are let through: segments of ASCII
letters, digits and underscores with points between them, none of which begins with a digit.
With any other name the interpreter is not even started. With a path it is asked to evaluate
two texts, one that brings the module into scope and then the path itself, and nothing else.
-/

namespace GuestBridge

variable {σ : Type}

/-! ### Paths -/

namespace GuestModule

/-- An ASCII letter or an underscore. -/
def BeginsSegment (c : Char) : Prop :=
  'A' ≤ c ∧ c ≤ 'Z' ∨ 'a' ≤ c ∧ c ≤ 'z' ∨ c = '_'

/-- A segment of a path: a letter or an underscore, and then letters, digits and underscores. -/
inductive Segment : List Char → Prop where
  | intro {c : Char} {cs : List Char} (first : BeginsSegment c)
      (rest : ∀ d ∈ cs, BeginsSegment d ∨ '0' ≤ d ∧ d ≤ '9') : Segment (c :: cs)

/-- A path: one segment or more, with points between them. -/
def Path (name : String) : Prop :=
  ∃ segments, segments ≠ [] ∧ (∀ s ∈ segments, Segment s) ∧
    name.toList = ['.'].intercalate segments

/-- A segment begins with such a character. -/
theorem isSegmentStart_iff {c : Char} : isSegmentStart c ↔ BeginsSegment c := by
  simp only [isSegmentStart, Text.isAsciiLetter, BeginsSegment, Bool.or_eq_true, Bool.and_eq_true,
    decide_eq_true_eq]
  tauto

/-- A segment goes on with such a character. -/
theorem isSegmentChar_iff {c : Char} :
    isSegmentChar c ↔ BeginsSegment c ∨ '0' ≤ c ∧ c ≤ '9' := by
  simp only [isSegmentChar, Text.isAsciiDigit, Bool.or_eq_true, isSegmentStart_iff,
    Bool.and_eq_true, decide_eq_true_eq]

/-- The segments are those that are let through. -/
theorem isSegment_iff {cs : List Char} : isSegment cs ↔ Segment cs := by
  cases cs with
  | nil => exact ⟨nofun, nofun⟩
  | cons c cs =>
    rw [isSegment, Bool.and_eq_true, List.all_eq_true, isSegmentStart_iff]
    simp only [isSegmentChar_iff]
    exact ⟨fun h ↦ .intro h.1 h.2, fun | .intro first rest => ⟨first, rest⟩⟩

/-- There is no point in a segment. -/
theorem Segment.not_point {cs : List Char} (h : Segment cs) :
    ∀ c ∈ cs, decide (c = '.') = false := by
  have hfirst : ¬ BeginsSegment '.' := by unfold BeginsSegment; decide
  have hdigit : ¬ ('0' ≤ '.' ∧ '.' ≤ '9') := by decide
  obtain ⟨first, rest⟩ := h
  intro c hc
  apply decide_eq_false
  rintro rfl
  rcases List.mem_cons.1 hc with hpoint | hc
  · exact hfirst (hpoint ▸ first)
  · exact (rest _ hc).elim hfirst hdigit

/-- The paths are the names that are let through. -/
theorem isPath_iff {name : String} : isPath name ↔ Path name := by
  rw [isPath, List.all_eq_true]
  simp only [isSegment_iff]
  constructor
  · intro h
    refine ⟨_, Text.pieces_ne_nil _ _, h, ?_⟩
    rw [← Text.joinWith_eq_intercalate, Text.joinWith_pieces]
  · rintro ⟨segments, hne, hsegments, hname⟩
    rw [hname, Text.pieces_intercalate (decide_eq_true rfl) hne fun s hs ↦
      (hsegments s hs).not_point]
    exact hsegments

example : ["Base.Math", "Base.", "Base\n", "Main; rm(\"x\")"].map isPath =
    [true, false, false, false] := by decide

end GuestModule

/-! ### Bridges that are watched -/

namespace Bridge

variable {i : Interpreter σ} {b b₀ : Bridge σ}

/-- A bridge whose interpreter is watched, with what has been seen so far. -/
def watching (b : Bridge σ) (log : List (Event σ)) : Bridge (σ × List (Event σ)) :=
  { guest := (b.guest, log), ledger := b.ledger, ready := b.ready
    expressions := b.expressions, functions := b.functions }

/-- What is seen does not show. -/
@[simp] theorem map_watching (b : Bridge σ) (log : List (Event σ)) :
    (b.watching log).map Prod.fst = b := rfl

/-- What is seen when the interpreter is required: it is started unless it has been. -/
def starts (i : Interpreter σ) (b : Bridge σ) : List (Event σ) :=
  if b.ready then [] else [.started (i.start b.guest).1]

/-- A start is seen. -/
theorem require_watching {result : Except Failure Unit} (h : b.require i = (result, b₀)) :
    (b.watching []).require i.watched = (result, b₀.watching (b.starts i)) := by
  unfold require at h
  unfold require starts
  by_cases hr : b.ready
  · simp only [hr, if_true] at h
    obtain ⟨rfl, rfl⟩ := Prod.mk.inj h
    simp [watching, hr]
  · rcases hs : i.start b.guest with ⟨e | u, g⟩
    · simp only [hr, hs, Bool.false_eq_true, if_false] at h
      obtain ⟨rfl, rfl⟩ := Prod.mk.inj h
      simp [watching, Interpreter.watched, hr, hs]
    · simp only [hr, hs, Bool.false_eq_true, if_false] at h
      obtain ⟨rfl, rfl⟩ := Prod.mk.inj h
      simp [watching, Interpreter.watched, hr, hs]

/-- A request is seen. -/
theorem ask_watching (h : b.ready = true) (r : Request) (log : List (Event σ)) :
    (b.watching log).ask i.watched r =
      ((b.ask i r).1, (b.ask i r).2.watching (log ++ [.asked ⟨r, b.toWorld⟩])) := by
  have hready : (b.watching log).ready = true := h
  rw [ask_ready h, ask_ready hready]
  rfl

/-- An evaluation is seen. -/
theorem eval_watching {code : String} {result : Except Failure Value} {w : World σ}
    (h : b.ready = true) (ha : i.answer (.eval code) b.toWorld = (result, w))
    (log : List (Event σ)) :
    (b.watching log).eval i.watched code =
      (result, (b.onto w).watching (log ++ [.asked ⟨.eval code, b.toWorld⟩])) := by
  rw [eval, ask_watching h, ← eval, eval_answered h ha]

/-- An execution is seen. -/
theorem exec_watching {code : String} {v : Value} {w : World σ} (h : b.ready = true)
    (ha : i.answer (.eval code) b.toWorld = (.ok v, w)) (log : List (Event σ)) :
    (b.watching log).exec i.watched code =
      (.ok (), (b.onto (w.drop v)).watching (log ++ [.asked ⟨.eval code, b.toWorld⟩])) := by
  rw [exec, eval_watching h ha]
  rfl

end Bridge

/-! ### Opening a module -/

/-- What opening a module comes to, and what happened to the interpreter. -/
structure GuestModule.Opening (σ : Type) where
  result : Except Failure GuestModule
  left : Bridge σ
  events : List (Event σ)

/-- Open a module and report. -/
def GuestModule.opening (i : Interpreter σ) (name : String) (b : Bridge σ) : Opening σ :=
  let (result, left) := open? i.watched name (b.watching [])
  ⟨result, left.map Prod.fst, left.guest.2⟩

/-- The ways in which opening a path goes: the interpreter is started if it has to be; then the
module is brought into scope; then its object is looked up, which has to be a handle. Whatever
fails ends it, and no module comes of it. -/
inductive Opens (i : Interpreter σ) (name : String) (b : Bridge σ) :
    GuestModule.Opening σ → Prop where
  | refused {e : Failure} {b₀ : Bridge σ} (start : b.require i = (.error e, b₀)) :
      Opens i name b ⟨.error e, b₀, b.starts i⟩
  | unknown {e : Failure} {b₀ : Bridge σ} {w : World σ} (start : b.require i = (.ok (), b₀))
      (scope : i.answer (.eval ("using " ++ name)) b₀.toWorld = (.error e, w)) :
      Opens i name b ⟨.error e, b₀.onto w,
        b.starts i ++ [.asked ⟨.eval ("using " ++ name), b₀.toWorld⟩]⟩
  | unresolved {v : Value} {e : Failure} {b₀ : Bridge σ} {w w' : World σ}
      (start : b.require i = (.ok (), b₀))
      (scope : i.answer (.eval ("using " ++ name)) b₀.toWorld = (.ok v, w))
      (object : i.answer (.eval name) (w.drop v) = (.error e, w')) :
      Opens i name b ⟨.error e, b₀.onto w',
        b.starts i ++ [.asked ⟨.eval ("using " ++ name), b₀.toWorld⟩,
          .asked ⟨.eval name, w.drop v⟩]⟩
  | noModule {v v' : Value} {b₀ : Bridge σ} {w w' : World σ} (start : b.require i = (.ok (), b₀))
      (scope : i.answer (.eval ("using " ++ name)) b₀.toWorld = (.ok v, w))
      (object : i.answer (.eval name) (w.drop v) = (.ok v', w'))
      (other : v'.isHandle = false) :
      Opens i name b ⟨.error (.conversion "module" v'.kind), b₀.onto (w'.drop v'),
        b.starts i ++ [.asked ⟨.eval ("using " ++ name), b₀.toWorld⟩,
          .asked ⟨.eval name, w.drop v⟩]⟩
  | opened {v : Value} {h : Handle} {b₀ : Bridge σ} {w w' : World σ}
      (start : b.require i = (.ok (), b₀))
      (scope : i.answer (.eval ("using " ++ name)) b₀.toWorld = (.ok v, w))
      (object : i.answer (.eval name) (w.drop v) = (.ok (.handle h), w')) :
      Opens i name b ⟨.ok ⟨name, h, Slots.empty⟩, b₀.onto w',
        b.starts i ++ [.asked ⟨.eval ("using " ++ name), b₀.toWorld⟩,
          .asked ⟨.eval name, w.drop v⟩]⟩

namespace GuestModule

variable {i : Interpreter σ} {b b₀ : Bridge σ} {name : String}

/-- What a report says, read off opening the module on a bridge that is watched. -/
theorem opening_eq {result : Except Failure GuestModule} {events : List (Event σ)}
    (h : open? i.watched name (b.watching []) = (result, b₀.watching events)) :
    opening i name b = ⟨result, b₀, events⟩ := by
  unfold opening
  rw [h]
  rfl

/-- Watching takes no part in what opening a module comes to. -/
theorem opening_faithful (i : Interpreter σ) (name : String) (b : Bridge σ) :
    open? i name b = ((opening i name b).result, (opening i name b).left) :=
  i.watched_shows.openModule name (b.watching [])

/-- What opening a path does. -/
theorem open?_of_isPath (hname : isPath name) (i : Interpreter σ) (b : Bridge σ) :
    open? i name b =
      (b.exec i ("using " ++ name)).andThen fun _ b ↦
        (b.eval i name).andThen fun v b ↦
          match v with
          | .handle h => (.ok ⟨name, h, Slots.empty⟩, b)
          | other => (.error (.conversion "module" other.kind), b.drop other) :=
  if_pos hname

/-- Opening a path starts the interpreter first. -/
theorem open?_required (h : b.require i = (.ok (), b₀)) (h₀ : b₀.ready = true)
    (hname : isPath name) : open? i name b = open? i name b₀ := by
  simp only [open?_of_isPath hname, Bridge.exec, Bridge.eval, Bridge.ask_required h h₀]

/-- No path is opened if the interpreter does not start. -/
theorem open?_refused {e : Failure} (h : b.require i = (.error e, b₀)) (hname : isPath name) :
    open? i name b = (.error e, b₀) := by
  simp only [open?_of_isPath hname, Bridge.exec, Bridge.eval, Bridge.ask_refused h,
    Outcome.andThen_error]

/-- The object of a path that is in scope is looked up. -/
theorem opens_of_scope {v : Value} {w : World σ} (hname : isPath name)
    (hb : b.require i = (.ok (), b₀))
    (hscope : i.answer (.eval ("using " ++ name)) b₀.toWorld = (.ok v, w)) :
    Opens i name b (opening i name b) := by
  have h₀ := Bridge.ready_of_require hb
  have h₁ : (b₀.onto (w.drop v)).ready = true := h₀
  have hopen := (open?_required (i := i.watched) (Bridge.require_watching hb) h₀ hname).trans
    (open?_of_isPath hname _ _)
  have hexec := Bridge.exec_watching h₀ hscope (b.starts i)
  rcases hobject : i.answer (.eval name) (w.drop v) with ⟨result, w'⟩
  have heval := Bridge.eval_watching h₁ hobject
    (b.starts i ++ [.asked ⟨.eval ("using " ++ name), b₀.toWorld⟩])
  rw [hexec, Outcome.andThen_ok, heval, List.append_assoc] at hopen
  rcases result with e | v'
  · rw [opening_eq (hopen.trans ?_)]
    · exact .unresolved hb hscope hobject
    · rfl
  · cases v' with
    | handle h =>
      rw [opening_eq (hopen.trans ?_)]
      · exact .opened hb hscope hobject
      · rfl
    | _ =>
      rw [opening_eq (hopen.trans ?_)]
      · exact .noModule hb hscope hobject rfl
      · rfl

/-- Opening a path goes one of the ways. -/
theorem opens_of_isPath (hname : isPath name) (i : Interpreter σ) (b : Bridge σ) :
    Opens i name b (opening i name b) := by
  rcases Bridge.require_cases i b with ⟨b₀, hb, h₀⟩ | ⟨e, g, -, -, hb⟩
  · rcases hscope : i.answer (.eval ("using " ++ name)) b₀.toWorld with ⟨e | v, w⟩
    · have hopen := open?_required (i := i.watched) (Bridge.require_watching hb) h₀ hname
      rw [opening_eq (hopen.trans ?_)]
      · exact .unknown hb hscope
      · rw [open?_of_isPath hname, Bridge.exec, Bridge.eval_watching h₀ hscope]
        rfl
    · exact opens_of_scope hname hb hscope
  · rw [opening_eq (open?_refused (i := i.watched) (Bridge.require_watching hb) hname)]
    exact .refused hb

/-- However an interpreter behaves, and whatever a module is called: a path is opened by
evaluating two texts at most, and with any other name nothing happens at all. -/
theorem opening_path_only (i : Interpreter σ) (name : String) (b : Bridge σ) :
    let r := opening i name b
    open? i name b = (r.result, r.left) ∧
      (Path name → Opens i name b r) ∧
      (¬ Path name → r = ⟨.error (.moduleName name), b, []⟩) := by
  refine ⟨opening_faithful i name b, fun h ↦ opens_of_isPath (isPath_iff.2 h) i b, fun h ↦ ?_⟩
  have hname : isPath name = false := Bool.eq_false_iff.2 fun hname ↦ h (isPath_iff.1 hname)
  apply opening_eq
  rw [open?, hname]
  rfl

end GuestModule

end GuestBridge
