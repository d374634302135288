import GuestBridge.Proofs.Bridge.Custody

/-!
# Custody in a session

What a session holds: the values in its slots, the handles of its compiled functions, and the
objects and members of its modules. Every command that names only handles that are held keeps
the discipline of the interpreter, and so does every history of such commands.
-/

namespace GuestBridge

/-- The handles that a compiled function needs. -/
def Compiled.handles (c : Compiled) : List Handle :=
  Value.handlesAll [c.function, c.batch]

/-- The handles that a function holds. -/
def GuestFunction.handles (f : GuestFunction) : List Handle :=
  Value.handlesAll f.held

/-- The handles that a module holds. -/
def GuestModule.handles (m : GuestModule) : List Handle :=
  Value.handlesAll m.held

/-- The handles that a query names. -/
def Query.handles : Query → List Handle
  | .direct r => r.handles
  | .call _ args | .callFunction _ args | .callFunctionAs _ args _ | .callMember _ _ args =>
    Value.handlesAll args
  | .callValue callee args => callee.handles ++ Value.handlesAll args
  | .callHandle callee args => callee :: Value.handlesAll args
  | .getAttr target _ => [target]
  | .convert _ value => value.handles
  | .mapFunction _ batch | .mapFunctionAs _ batch _ => Value.handlesAll (batch.map .tuple)
  | .eval _ | .evalCached _ | .resolve _ | .newModule _ | .copy _ | .getMember _ _ => []

/-- The handles that a command names. -/
def Command.handles : Command → List Handle
  | .query q _ => q.handles
  | _ => []

/-- The handles that the host holds in a session, those in the caches apart. -/
def Session.handles {σ : Type} (s : Session σ) : List Handle :=
  Value.handlesAll s.values.toList ++
    (s.functions.toList.flatMap GuestFunction.handles ++
      s.modules.toList.flatMap GuestModule.handles)

/-- The handles of a list of values are those of its values. -/
theorem Value.handlesAll_eq_flatMap (vs : List Value) :
    handlesAll vs = vs.flatMap handles := by
  induction vs with
  | nil => rfl
  | cons v vs ih => rw [handlesAll, ih, List.flatMap_cons]

/-- The handles that functions hold. -/
private theorem handlesAll_held_functions (fs : List GuestFunction) :
    Value.handlesAll (fs.flatMap GuestFunction.held) = fs.flatMap GuestFunction.handles := by
  simp only [Value.handlesAll_eq_flatMap, List.flatMap_assoc]
  exact congrArg fs.flatMap (funext fun f ↦ (Value.handlesAll_eq_flatMap f.held).symm)

/-- The handles that modules hold. -/
private theorem handlesAll_held_modules (ms : List GuestModule) :
    Value.handlesAll (ms.flatMap GuestModule.held) = ms.flatMap GuestModule.handles := by
  simp only [Value.handlesAll_eq_flatMap, List.flatMap_assoc]
  exact congrArg ms.flatMap (funext fun m ↦ (Value.handlesAll_eq_flatMap m.held).symm)

/-- What is shown of a slot's old and new content. -/
private theorem Slots.WF.count_put {α : Type} {s : Slots α} (h : s.WF) (slot : String) (x : α)
    (shown : α → List Handle) (k : Handle) :
    ((s.put slot x).1.toList.flatMap shown).count k +
        ((s.put slot x).2.toList.flatMap shown).count k =
      (shown x).count k + (s.toList.flatMap shown).count k := by
  have hp := ((h.put_perm slot x).flatMap_right shown).count_eq k
  simpa only [List.flatMap_append, List.flatMap_cons, List.count_append] using hp

/-- What is shown of a slot that is emptied. -/
private theorem Slots.WF.count_remove {α : Type} {s : Slots α} (h : s.WF) (slot : String)
    (shown : α → List Handle) (k : Handle) :
    ((s.remove slot).1.toList.flatMap shown).count k +
        ((s.remove slot).2.toList.flatMap shown).count k =
      (s.toList.flatMap shown).count k := by
  have hp := ((h.remove_perm slot).flatMap_right shown).count_eq k
  simpa only [List.flatMap_append, List.count_append] using hp

namespace Custody

variable {σ : Type} {i : Interpreter σ} {c : Custody i} {b : Bridge σ} {hs : List Handle}

/-! ### Functions -/

/-- What an operation on something that holds handles itself comes to. -/
def SettlesIn {α β : Type} (c : Custody i) (shown : α → List Handle) (held : β → List Handle)
    (o : Except Failure α × β × Bridge σ) (hs : List Handle) : Prop :=
  c.Keeps o.2.2 (Failure.shownBy shown o.1 ++ (held o.2.1 ++ hs))

/-- Compiling a function comes to the handles of both definitions. -/
theorem Keeps.compile {f : GuestFunction} (h : c.Keeps b hs) :
    c.Settles Compiled.handles (f.compile i b) hs := by
  apply h.exec.andThen
  intro _ b h
  apply (Keeps.eval h).andThen
  intro function b h
  have hbatch : c.Settles Value.handles (f.compileBatch i b) (function.handles ++ hs) := by
    apply h.exec.andThen
    intro _ b h
    exact Keeps.eval h
  cases hr : f.compileBatch i b with
  | mk result b =>
    rw [hr] at hbatch
    cases result with
    | ok batch =>
      refine Keeps.perm hbatch ?_
      rw [List.perm_iff_count]
      intro x
      simp only [Failure.shownBy, Compiled.handles, Value.handlesAll, List.count_append,
        List.count_nil]
      omega
    | error e => exact Settles.drop (o := (.error e, b)) hbatch

/-- Using a function leaves it with its handles. -/
theorem Keeps.withCompiled {α : Type} {shown : α → List Handle} {f : GuestFunction}
    {use : Compiled → Bridge σ → Outcome σ α} (h : c.Keeps b (f.handles ++ hs))
    (huse : ∀ k b, c.Keeps b (k.handles ++ hs) → c.Settles shown (use k b) (k.handles ++ hs)) :
    c.SettlesIn shown GuestFunction.handles (f.withCompiled i b use) hs := by
  unfold GuestFunction.withCompiled
  cases hf : f.compiled with
  | some k =>
    have hheld : f.handles = k.handles := by
      simp [GuestFunction.handles, GuestFunction.held, hf, Compiled.handles]
    rw [hheld] at h
    have hused := huse k b h
    rw [← hheld] at hused
    exact hused
  | none =>
    have hheld : f.handles = [] := by
      simp [GuestFunction.handles, GuestFunction.held, hf, Value.handlesAll]
    rw [hheld] at h
    have hcompile := Keeps.compile (f := f) h
    cases hr : f.compile i b with
    | mk result b =>
      rw [hr] at hcompile
      cases result with
      | ok k => exact huse k b hcompile
      | error e =>
        show c.Keeps b (Value.handlesAll e.values ++ (f.handles ++ hs))
        rw [hheld]
        exact hcompile

/-- Calling one of the handles of a function comes to a value that is held. -/
theorem Keeps.callCompiled {args : List Value} {k : Compiled} {callee : Value}
    (h : c.Keeps b (k.handles ++ hs)) (hc : callee ∈ [k.function, k.batch])
    (hb : Handle.Borrowed hs (Value.handlesAll args)) :
    c.Settles Value.handles (b.callValue i callee args) (k.handles ++ hs) := by
  apply h.callValue
  rw [Handle.borrowed_append]
  refine ⟨Handle.borrowed_of_subset ?_, hb.mono (List.subset_append_right _ _)⟩
  exact List.subset_append_of_subset_left _ (Value.handles_subset_of_mem hc)

/-- Calling a function comes to a value that is held. -/
theorem Keeps.callFunction {f : GuestFunction} {args : List Value}
    (h : c.Keeps b (f.handles ++ hs)) (hb : Handle.Borrowed hs (Value.handlesAll args)) :
    c.SettlesIn Value.handles GuestFunction.handles (f.call i args b) hs :=
  h.withCompiled fun _ _ hk ↦ hk.callCompiled (by simp) hb

/-- What is read from the result of a function is held. -/
theorem Keeps.callFunctionAs {t : HostType} {f : GuestFunction} {args : List Value}
    (h : c.Keeps b (f.handles ++ hs)) (hb : Handle.Borrowed hs (Value.handlesAll args)) :
    c.SettlesIn (fun x ↦ (t.toValue x).handles) GuestFunction.handles (f.callAs i t args b) hs :=
  h.withCompiled fun _ _ hk ↦ (hk.callCompiled (by simp) hb).andThen fun _ _ hv ↦ hv.read

/-- The results of the helper are held. -/
theorem Keeps.mapCompiled {batch : List (List Value)} {k : Compiled}
    (h : c.Keeps b (k.handles ++ hs))
    (hb : Handle.Borrowed hs (Value.handlesAll (batch.map .tuple))) :
    c.Settles Value.handlesAll (GuestFunction.mapCompiled i batch k b) (k.handles ++ hs) := by
  have hargs : Handle.Borrowed hs (Value.handlesAll [.array (batch.map .tuple)]) := by
    simpa [Value.handlesAll, Value.handles] using hb
  have hcall := h.callCompiled (show k.batch ∈ [k.function, k.batch] by simp) hargs
  apply hcall.andThen
  intro v b h
  cases v with
  | array results => exact h
  | _ => exact h.drop

/-- Applying a function to a batch comes to values that are held. -/
theorem Keeps.mapFunction {f : GuestFunction} {batch : List (List Value)}
    (h : c.Keeps b (f.handles ++ hs))
    (hb : Handle.Borrowed hs (Value.handlesAll (batch.map .tuple))) :
    c.SettlesIn Value.handlesAll GuestFunction.handles (f.map i batch b) hs :=
  h.withCompiled fun _ _ hk ↦ hk.mapCompiled hb

/-- What is read from the results of a batch is held. -/
theorem Keeps.mapFunctionAs {t : HostType} {f : GuestFunction} {batch : List (List Value)}
    (h : c.Keeps b (f.handles ++ hs))
    (hb : Handle.Borrowed hs (Value.handlesAll (batch.map .tuple))) :
    c.SettlesIn (fun xs ↦ ((HostType.list t).toValue xs).handles) GuestFunction.handles
      (f.mapAs i t batch b) hs :=
  h.withCompiled fun _ _ hk ↦ (hk.mapCompiled hb).andThen fun vs _ hv ↦
    Keeps.read (v := .array vs) hv

/-! ### Modules -/

/-- An opened module holds its object, and has no members yet. -/
theorem Keeps.openModule {name : String} (h : c.Keeps b hs) :
    c.Settles GuestModule.handles (GuestModule.open? i name b) hs := by
  unfold GuestModule.open?
  split
  · apply h.exec.andThen
    intro _ b h
    apply (Keeps.eval h).andThen
    intro v b h
    cases v with
    | handle k => exact h
    | _ => exact h.drop
  · exact h

/-- The members of a module that has just been opened are distinct. -/
theorem open?_members {name : String} {m : GuestModule}
    (h : (GuestModule.open? i name b).1 = .ok m) : m.members.WF := by
  unfold GuestModule.open? at h
  split at h
  · cases hu : b.exec i ("using " ++ name) with
    | mk used b' =>
      cases used with
      | error e => simp [hu] at h
      | ok u =>
        cases hv : b'.eval i name with
        | mk value b'' =>
          cases value with
          | error e => simp [hu, hv] at h
          | ok v =>
            cases v with
            | handle k =>
              obtain rfl : ⟨name, k, Slots.empty⟩ = m := by simpa [hu, hv] using h
              exact Slots.wf_empty
            | _ => simp [hu, hv] at h
  · cases h

/-- Looking a member up leaves the members distinct. -/
theorem get_members {member : String} {m : GuestModule} (h : m.members.WF) :
    (m.get i member b).2.1.members.WF := by
  unfold GuestModule.get
  split
  · exact h
  · cases m.members.find? member with
    | some v => exact h
    | none =>
      rcases b.getAttr i m.object member with ⟨result, b⟩
      cases result with
      | ok v => exact h.put member v
      | error e => exact h

/-- Calling a member leaves the members distinct. -/
theorem call_members {member : String} {args : List Value} {m : GuestModule}
    (h : m.members.WF) : (m.call i member args b).2.1.members.WF := by
  have hget : (m.get i member b).2.1.members.WF := get_members h
  unfold GuestModule.call
  cases hr : m.get i member b with
  | mk result rest =>
    rw [hr] at hget
    cases result with
    | ok v => exact hget
    | error e => exact hget

/-- A member that was looked up is held, and kept by the module. -/
theorem Keeps.getMember {member : String} {m : GuestModule} (hwf : m.members.WF)
    (h : c.Keeps b (m.handles ++ hs)) :
    c.SettlesIn Value.handles GuestModule.handles (m.get i member b) hs := by
  unfold GuestModule.get
  split
  · exact h
  · cases hf : m.members.find? member with
    | some v =>
      apply h.retain
      have hv : v.handles ⊆ m.handles := Value.handles_subset_of_mem
        (List.mem_cons_of_mem _ (Slots.mem_toList_of_find? hf))
      refine Handle.borrowed_of_subset (List.Subset.trans hv ?_)
      rw [List.append_assoc]
      exact List.subset_append_left _ _
    | none =>
      have hobject : Handle.Borrowed (m.handles ++ hs) [m.object] :=
        Handle.borrowed_of_subset (by simp [GuestModule.handles, GuestModule.held,
          Value.handlesAll, Value.handles])
      have hget := Keeps.ask (r := .getAttr m.object member) h hobject
      cases hr : b.ask i (.getAttr m.object member) with
      | mk result b' =>
        rw [hr] at hget
        simp only [Bridge.getAttr, hr]
        cases result with
        | error e => exact hget
        | ok v =>
          have hcopy := Keeps.retain (v := v) hget
            (Handle.borrowed_of_subset (List.subset_append_of_subset_left _
              (List.subset_append_left _ _)))
          refine Keeps.perm hcopy ?_
          rw [List.perm_iff_count]
          intro x
          have hput := hwf.count_put member v Value.handles x
          rw [show (m.members.put member v).1 = none from hf] at hput
          simp only [Failure.shownBy, GuestModule.handles, GuestModule.held,
            Value.handlesAll_eq_flatMap, List.flatMap_cons, List.count_append,
            Option.toList_none, List.flatMap_nil, List.count_nil] at hput ⊢
          omega

/-- The result of calling a member is held, and the copy of the member is not. -/
theorem Keeps.callMember {member : String} {args : List Value} {m : GuestModule}
    (hwf : m.members.WF) (h : c.Keeps b (m.handles ++ hs))
    (hb : Handle.Borrowed hs (Value.handlesAll args)) :
    c.SettlesIn Value.handles GuestModule.handles (m.call i member args b) hs := by
  have hget : c.SettlesIn Value.handles GuestModule.handles (m.get i member b) hs :=
    h.getMember hwf
  unfold GuestModule.call
  cases hr : m.get i member b with
  | mk result rest =>
    obtain ⟨m, b⟩ := rest
    rw [hr] at hget
    cases result with
    | error e => exact hget
    | ok v =>
      apply Settles.drop
      apply Keeps.callValue hget
      rw [Handle.borrowed_append]
      refine ⟨Handle.borrowed_of_subset (List.subset_append_left _ _), hb.mono ?_⟩
      exact List.subset_append_of_subset_right _ (List.subset_append_right _ _)

/-! ### Sessions -/

/-- A session is in order while some handles are held beside those of its slots. -/
structure KeepsAll (c : Custody i) (s : Session σ) (hs : List Handle) : Prop where
  keeps : c.Keeps s.bridge (hs ++ s.handles)
  values : s.values.WF
  functions : s.functions.WF
  modules : s.modules.WF
  members : ∀ m ∈ s.modules.toList, m.members.WF

variable {s : Session σ}

/-- Going on with the bridge that an operation leaves. -/
theorem KeepsAll.settle {α : Type} {shown : α → List Handle} {o : Outcome σ α}
    (h : c.KeepsAll s hs) (ho : c.Settles shown o s.handles) :
    c.KeepsAll (s.settle o).2 (Failure.shownBy shown (s.settle o).1) where
  keeps := ho
  values := h.values
  functions := h.functions
  modules := h.modules
  members := h.members

/-- Using the function in a slot keeps the session in order. -/
theorem KeepsAll.withFunction {α : Type} {shown : α → List Handle} {slot : String}
    {op : GuestFunction → Bridge σ → Except Failure α × GuestFunction × Bridge σ}
    {o : Except Failure α × Session σ} (h : c.KeepsAll s [])
    (hop : ∀ f hs, c.Keeps s.bridge (f.handles ++ hs) →
      Value.handlesAll s.values.toList ⊆ hs →
      c.SettlesIn shown GuestFunction.handles (op f s.bridge) hs)
    (ho : s.withFunction slot op = some o) : c.KeepsAll o.2 (Failure.shownBy shown o.1) := by
  obtain ⟨f, hf, rfl⟩ := Option.map_eq_some_iff.1 ho
  have hremove := h.functions.count_remove slot GuestFunction.handles
  rw [show (s.functions.remove slot).1 = some f from hf] at hremove
  simp only [Option.toList_some, List.flatMap_cons, List.flatMap_nil, List.append_nil] at hremove
  let rest := Session.handles { s with functions := (s.functions.remove slot).2 }
  have hbefore : c.Keeps s.bridge (f.handles ++ rest) := by
    refine h.keeps.perm ?_
    rw [List.perm_iff_count]
    intro x
    have hx := hremove x
    simp only [rest, Session.handles, List.count_append, List.nil_append] at hx ⊢
    omega
  have hafter := hop f rest hbefore (List.subset_append_left _ _)
  refine ⟨Keeps.perm hafter ?_, h.values, h.functions.put slot _, h.modules, h.members⟩
  rw [List.perm_iff_count]
  intro x
  have hput : (s.functions.put slot (op f s.bridge).2.1).2.toList =
      (s.functions.remove slot).2.toList ++ [(op f s.bridge).2.1] := by
    simp [Slots.toList, Slots.put, Slots.remove]
  simp only [rest, Session.handles, hput, List.flatMap_append, List.flatMap_cons,
    List.flatMap_nil, List.append_nil, List.count_append]
  omega

/-- Using the module in a slot keeps the session in order. -/
theorem KeepsAll.withModule {α : Type} {shown : α → List Handle} {slot : String}
    {op : GuestModule → Bridge σ → Except Failure α × GuestModule × Bridge σ}
    {o : Except Failure α × Session σ} (h : c.KeepsAll s [])
    (hop : ∀ m hs, m.members.WF → c.Keeps s.bridge (m.handles ++ hs) →
      Value.handlesAll s.values.toList ⊆ hs →
      c.SettlesIn shown GuestModule.handles (op m s.bridge) hs ∧
        (op m s.bridge).2.1.members.WF)
    (ho : s.withModule slot op = some o) : c.KeepsAll o.2 (Failure.shownBy shown o.1) := by
  obtain ⟨m, hm, rfl⟩ := Option.map_eq_some_iff.1 ho
  have hremove := h.modules.count_remove slot GuestModule.handles
  rw [show (s.modules.remove slot).1 = some m from hm] at hremove
  simp only [Option.toList_some, List.flatMap_cons, List.flatMap_nil, List.append_nil] at hremove
  let rest := Session.handles { s with modules := (s.modules.remove slot).2 }
  have hbefore : c.Keeps s.bridge (m.handles ++ rest) := by
    refine h.keeps.perm ?_
    rw [List.perm_iff_count]
    intro x
    have hx := hremove x
    simp only [rest, Session.handles, List.count_append, List.nil_append] at hx ⊢
    omega
  have hwf := h.members m (Slots.mem_toList_of_find? hm)
  obtain ⟨hafter, hmembers⟩ := hop m rest hwf hbefore (List.subset_append_left _ _)
  refine ⟨Keeps.perm hafter ?_, h.values, h.functions, h.modules.put slot _, ?_⟩
  · rw [List.perm_iff_count]
    intro x
    have hput : (s.modules.put slot (op m s.bridge).2.1).2.toList =
        (s.modules.remove slot).2.toList ++ [(op m s.bridge).2.1] := by
      simp [Slots.toList, Slots.put, Slots.remove]
    simp only [rest, Session.handles, hput, List.flatMap_append, List.flatMap_cons,
      List.flatMap_nil, List.append_nil, List.count_append]
    omega
  · intro m' hm'
    rcases Slots.mem_toList_put hm' with rfl | hm'
    · exact hmembers
    · exact h.members m' hm'

/-- A result that is shown in another way. -/
private theorem shownBy_map {α β : Type} (f : α → β) (shown : β → List Handle)
    (r : Except Failure α) :
    Failure.shownBy shown (r.map f) = Failure.shownBy (fun x ↦ shown (f x)) r := by
  cases r <;> rfl

/-- A result that is shown in another way leaves the session in order. -/
private theorem keepsAll_mapResult {α β : Type} {f : α → β} {shown : β → List Handle}
    {o : Option (Except Failure α × Session σ)} {o' : Except Failure β × Session σ}
    (h : ∀ p, o = some p → c.KeepsAll p.2 (Failure.shownBy (fun x ↦ shown (f x)) p.1))
    (ho : Session.mapResult f o = some o') :
    c.KeepsAll o'.2 (Failure.shownBy shown o'.1) := by
  obtain ⟨p, hp, rfl⟩ := Option.map_eq_some_iff.1 ho
  have hkeeps := h p hp
  rw [← shownBy_map] at hkeeps
  exact hkeeps

/-- The value that a query comes to is held. -/
theorem KeepsAll.ask {q : Query} {o : Except Failure Value × Session σ} (h : c.KeepsAll s [])
    (hb : Handle.Borrowed (Value.handlesAll s.values.toList) q.handles)
    (ho : s.ask i q = some o) : c.KeepsAll o.2 (Failure.shownBy Value.handles o.1) := by
  have hheld : Handle.Borrowed s.handles q.handles := hb.mono (List.subset_append_left _ _)
  have hk : c.Keeps s.bridge s.handles := h.keeps
  cases q with
  | direct r =>
    cases ho
    refine h.settle ⟨?_, hk.expressions, hk.functions⟩
    rw [List.append_assoc]
    exact c.answer hk.sound (hheld.mono (List.subset_append_left _ _))
  | eval code => cases ho; exact h.settle hk.eval
  | evalCached code => cases ho; exact h.settle hk.evalThrough
  | resolve name => cases ho; exact h.settle hk.evalThrough
  | call name args => cases ho; exact h.settle (hk.call hheld)
  | callValue callee args => cases ho; exact h.settle (hk.callValue hheld)
  | callHandle callee args => cases ho; exact h.settle (hk.ask hheld)
  | getAttr target name => cases ho; exact h.settle (hk.ask hheld)
  | convert type value => cases ho; exact h.settle (hk.ask hheld)
  | newModule name => cases ho; exact h.settle (hk.ask (Handle.borrowed_nil _))
  | copy slot =>
    obtain ⟨v, hv, rfl⟩ := Option.map_eq_some_iff.1 ho
    refine ⟨hk.retain (Handle.borrowed_of_subset ?_), h.values, h.functions, h.modules,
      h.members⟩
    refine List.subset_append_of_subset_left _ (List.subset_append_of_subset_left _ ?_)
    exact Value.handles_subset_of_mem (Slots.mem_toList_of_find? hv)
  | callFunction slot args =>
    have ho : s.withFunction slot (fun f ↦ f.call i args) = some o := ho
    exact h.withFunction (fun f hs hf hsub ↦ hf.callFunction (hb.mono hsub)) ho
  | callFunctionAs slot args type =>
    refine keepsAll_mapResult (fun p hp ↦ ?_) ho
    exact h.withFunction (fun f hs hf hsub ↦ hf.callFunctionAs (hb.mono hsub)) hp
  | mapFunction slot batch =>
    refine keepsAll_mapResult (fun p hp ↦ ?_) ho
    exact h.withFunction (fun f hs hf hsub ↦ hf.mapFunction (hb.mono hsub)) hp
  | mapFunctionAs slot batch type =>
    refine keepsAll_mapResult (fun p hp ↦ ?_) ho
    exact h.withFunction (fun f hs hf hsub ↦ hf.mapFunctionAs (hb.mono hsub)) hp
  | getMember slot name =>
    have ho : s.withModule slot (fun m ↦ m.get i name) = some o := ho
    exact h.withModule (fun m hs hwf hm _ ↦ ⟨hm.getMember hwf, get_members hwf⟩) ho
  | callMember slot name args =>
    have ho : s.withModule slot (fun m ↦ m.call i name args) = some o := ho
    exact h.withModule (fun m hs hwf hm hsub ↦
      ⟨hm.callMember hwf (hb.mono hsub), call_members hwf⟩) ho

/-- A session lets go of what was in its slots and drops it. -/
private theorem KeepsAll.letGo {s' : Session σ} {ks : List Handle} (h : c.KeepsAll s ks)
    (gone : List Value) (hbridge : s'.bridge = s.bridge.dropAll gone)
    (hcount : ∀ x, (Value.handlesAll gone).count x + s'.handles.count x =
      ks.count x + s.handles.count x)
    (hv : s'.values.WF) (hf : s'.functions.WF) (hm : s'.modules.WF)
    (hmembers : ∀ m ∈ s'.modules.toList, m.members.WF) : c.KeepsAll s' [] := by
  refine ⟨?_, hv, hf, hm, hmembers⟩
  rw [hbridge]
  refine Keeps.dropAll (h.keeps.perm ?_)
  rw [List.perm_iff_count]
  intro x
  simp only [List.count_append, List.nil_append]
  exact (hcount x).symm

/-- A value that is kept in a slot takes the place of what the slot held; a value that is not
kept is dropped. -/
theorem KeepsAll.keep {slot : Option String} {v : Value} (h : c.KeepsAll s v.handles) :
    c.KeepsAll (s.keep slot v) [] := by
  cases slot with
  | none => exact ⟨h.keeps.drop, h.values, h.functions, h.modules, h.members⟩
  | some slot =>
    refine h.letGo (s.values.put slot v).1.toList rfl (fun x ↦ ?_)
      (h.values.put slot v) h.functions h.modules h.members
    have hput := h.values.count_put slot v Value.handles x
    simp only [Session.keep, Session.handles, Value.handlesAll_eq_flatMap, List.count_append]
    omega

/-- A failure is dropped with what it holds. -/
theorem KeepsAll.discard {e : Failure} (h : c.KeepsAll s (Value.handlesAll e.values)) :
    c.KeepsAll (s.discard e) [] :=
  ⟨h.keeps.dropAll, h.values, h.functions, h.modules, h.members⟩

/-- A function that is put into a slot takes the place of the one that it held. -/
theorem KeepsAll.putFunction {slot : String} {f : GuestFunction} (h : c.KeepsAll s f.handles) :
    c.KeepsAll (s.putFunction slot f) [] := by
  refine h.letGo ((s.functions.put slot f).1.toList.flatMap GuestFunction.held) rfl
    (fun x ↦ ?_) h.values (h.functions.put slot f) h.modules h.members
  have hput := h.functions.count_put slot f GuestFunction.handles x
  simp only [Session.putFunction, Session.handles, handlesAll_held_functions,
    List.count_append]
  omega

/-- A module that is put into a slot takes the place of the one that it held. -/
theorem KeepsAll.putModule {slot : String} {m : GuestModule} (h : c.KeepsAll s m.handles)
    (hwf : m.members.WF) : c.KeepsAll (s.putModule slot m) [] := by
  refine h.letGo ((s.modules.put slot m).1.toList.flatMap GuestModule.held) rfl (fun x ↦ ?_)
    h.values h.functions (h.modules.put slot m) ?_
  · have hput := h.modules.count_put slot m GuestModule.handles x
    simp only [Session.putModule, Session.handles, handlesAll_held_modules, List.count_append]
    omega
  · intro m' hm'
    rcases Slots.mem_toList_put hm' with rfl | hm'
    · exact hwf
    · exact h.members m' hm'

/-- A function that has just been made holds nothing. -/
theorem KeepsAll.make {slot : String} {parts : FunctionParts} (h : c.KeepsAll s []) :
    c.KeepsAll (s.make slot parts).2 [] := by
  apply KeepsAll.putFunction
  exact ⟨h.keeps, h.values, h.functions, h.modules, h.members⟩

/-- A value that a slot held is dropped. -/
private theorem KeepsAll.dropValue (h : c.KeepsAll s []) (slot : String) :
    c.KeepsAll (s.step i (.dropValue slot)).2 [] := by
  rw [Session.step_dropValue]
  refine h.letGo (s.values.remove slot).1.toList rfl (fun x ↦ ?_)
    (h.values.remove slot) h.functions h.modules h.members
  have hremove := h.values.count_remove slot Value.handles x
  simp only [Session.handles, Value.handlesAll_eq_flatMap, List.count_append, List.count_nil]
  omega

/-- A function that a slot held is dropped. -/
private theorem KeepsAll.dropFunction (h : c.KeepsAll s []) (slot : String) :
    c.KeepsAll (s.step i (.dropFunction slot)).2 [] := by
  rw [Session.step_dropFunction]
  refine h.letGo ((s.functions.remove slot).1.toList.flatMap GuestFunction.held) rfl
    (fun x ↦ ?_) h.values (h.functions.remove slot) h.modules h.members
  have hremove := h.functions.count_remove slot GuestFunction.handles x
  simp only [Session.handles, handlesAll_held_functions, List.count_append, List.count_nil]
  omega

/-- A module that a slot held is dropped. -/
private theorem KeepsAll.dropModule (h : c.KeepsAll s []) (slot : String) :
    c.KeepsAll (s.step i (.dropModule slot)).2 [] := by
  rw [Session.step_dropModule]
  refine h.letGo ((s.modules.remove slot).1.toList.flatMap GuestModule.held) rfl (fun x ↦ ?_)
    h.values h.functions (h.modules.remove slot) fun m hm ↦ ?_
  · have hremove := h.modules.count_remove slot GuestModule.handles x
    simp only [Session.handles, handlesAll_held_modules, List.count_append, List.count_nil]
    omega
  · obtain ⟨e, he, rfl⟩ := List.mem_map.1 hm
    exact h.members _ (List.mem_map.2 ⟨e, (List.mem_filter.1 he).1, rfl⟩)

/-- Every command that names only handles in the slots for values keeps a session in order. -/
theorem KeepsAll.step {command : Command} (h : c.KeepsAll s [])
    (hb : Handle.Borrowed (Value.handlesAll s.values.toList) command.handles) :
    c.KeepsAll (s.step i command).2 [] := by
  cases command with
  | query q slot =>
    have hask := fun o ho ↦ KeepsAll.ask (o := o) h hb ho
    rw [Session.step_query]
    cases ho : s.ask i q with
    | none => exact h
    | some o =>
      obtain ⟨result, s'⟩ := o
      have hs' := hask _ ho
      cases result with
      | ok v => exact KeepsAll.keep hs'
      | error e => exact KeepsAll.discard hs'
  | exec code =>
    have hexec : c.Settles (fun _ ↦ []) (s.bridge.exec i code) s.handles := h.keeps.exec
    have hsettled := h.settle hexec
    rw [Session.step_exec]
    cases hr : s.settle (s.bridge.exec i code) with
    | mk result s' =>
      rw [hr] at hsettled
      cases result with
      | ok u => exact hsettled
      | error e => exact KeepsAll.discard hsettled
  | state => exact h
  | dropValue slot => exact h.dropValue slot
  | installGlobal => exact h
  | define slot text name =>
    rw [Session.step_define]
    split
    · exact h.make
    · exact h
  | makeFunction slot parts => exact h.make
  | showFunction slot => exact h
  | dropFunction slot => exact h.dropFunction slot
  | openModule slot name =>
    have hopen : c.Settles GuestModule.handles (GuestModule.open? i name s.bridge) s.handles :=
      h.keeps.openModule
    have hsettled := h.settle hopen
    rw [Session.step_openModule]
    simp only [Session.settle] at hsettled ⊢
    cases hr : GuestModule.open? i name s.bridge with
    | mk result b =>
      rw [hr] at hsettled
      cases result with
      | ok m => exact KeepsAll.putModule hsettled (open?_members (congrArg Prod.fst hr))
      | error e => exact KeepsAll.discard hsettled
  | dropModule slot => exact h.dropModule slot

end Custody

end GuestBridge
