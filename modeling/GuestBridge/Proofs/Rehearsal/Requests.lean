import GuestBridge.Proofs.Rehearsal.HandOut

/-!
# Requests and script lines

What a request comes to before it is handed out borrows its handles from its arguments and
from what the stage keeps alive. So every answer leaves a rehearsal in order, and every line of
a script that names only handles that are held does as well.
-/

namespace GuestBridge.Rehearsal

/-- The ids under which the answer to a request is handed out, with the objects. -/
def Scene.exportsOf (w : Scene) (r : Request) : List (Nat × Object) :=
  match w.respond r with
  | (.ok v, w) => w.exports v.handles
  | (.error _, _) => []

/-- The handles that a line of a script names. -/
def Line.handles : Line → List Handle
  | .implement _ f | .memberFunction _ _ f => Value.handlesAll f.keeps
  | .expression _ value | .member _ _ value => value.handles

/-- A result or a failure that may be handed out: its handles are held, or kept alive by the
stage. Until then objects are only added. -/
structure Responds (w : Scene) (o : Except Failure Value × Scene) (hs : List Handle) :
    Prop where
  sound : Sound o.2 hs []
  adds : Extends w o.2 []
  borrowed : Handle.Borrowed (hs ++ o.2.guest.kept) (Failure.shownBy Value.handles o.1)

variable {w w' : Scene} {hs : List Handle} {due : List Nat} {o : Except Failure Value × Scene}

/-- What happens before only adds objects, too. -/
theorem Responds.after (h : Responds w' o hs) (hw : Extends w w' []) : Responds w o hs :=
  ⟨h.sound, hw.trans h.adds, h.borrowed⟩

/-- An exception can always be answered. -/
theorem Responds.raise (s : Sound w hs []) (kind message : String) :
    Responds w (raise kind message, w) hs :=
  ⟨s, .refl s.bounded, Handle.borrowed_nil _⟩

/-- A value can be answered if its handles are held or kept alive. -/
theorem Responds.ok {v : Value} (s : Sound w hs [])
    (hv : Handle.Borrowed (hs ++ w.guest.kept) v.handles) : Responds w (.ok v, w) hs :=
  ⟨s, .refl s.bounded, hv⟩

namespace Sound

/-- A handle without owner can be answered. -/
private theorem borrowed_unowned {h : Handle} (ho : h.owner = none) (held : List Handle) :
    Handle.Borrowed held (Value.handle h).handles := by
  intro k hk hne
  obtain rfl : k = h := by simpa [Value.handles] using hk
  exact absurd ho hne

/-! ### Evaluating -/

/-- What a scripted body keeps is kept alive by the stage. -/
private theorem keeps_subset_of_body {s : Stage} {key : String} {f : Native}
    (hf : s.bodies.find? key = some f) : Value.handlesAll f.keeps ⊆ s.kept := by
  refine List.subset_append_of_subset_left _ ?_
  have hmem := Slots.mem_toList_of_find? hf
  obtain ⟨front, back, heq⟩ := List.append_of_mem hmem
  rw [heq, List.flatMap_append, List.flatMap_cons, Value.handlesAll_append,
    Value.handlesAll_append]
  exact List.subset_append_of_subset_right _ (List.subset_append_left _ _)

/-- What the function behind a name keeps is kept alive by the stage. -/
private theorem keeps_subset_of_global {name : String} {f : Native}
    (hf : w.global name = .ok f) : Value.handlesAll f.keeps ⊆ w.guest.kept := by
  unfold Scene.global at hf
  split at hf
  · next h _ =>
    unfold Stage.object at hf
    cases ho : w.guest.object? h.id with
    | none => simp [ho, raise] at hf
    | some o =>
      cases o with
      | function g =>
        obtain rfl : g = f := by simpa [ho] using hf
        exact keeps_subset ho
      | module name => simp [ho, raise] at hf
  · cases hf

/-- A name that stands for no function raises an exception. -/
private theorem exists_raised_of_global {name : String} {e : Failure}
    (he : w.global name = .error e) : ∃ kind message, e = .raised kind message := by
  unfold Scene.global Stage.object at he
  split at he
  · next h _ =>
    cases ho : w.guest.object? h.id with
    | none =>
      rw [ho] at he
      exact ⟨_, _, (Except.error.inj he).symm⟩
    | some o =>
      rw [ho] at he
      cases o with
      | function g => cases he
      | module name => exact ⟨_, _, (Except.error.inj he).symm⟩
  · exact ⟨_, _, (Except.error.inj he).symm⟩

/-- A definition in long or in short form. -/
private theorem define (s : Sound w hs []) (name body : String) :
    Responds w (w.define name body) hs := by
  unfold Scene.define
  split
  · next f hf =>
    have hb := Handle.borrowed_of_subset
      (List.subset_append_of_subset_right hs (keeps_subset_of_body hf))
    exact ⟨s.bindFunction name f hb, s.extends_bindFunction name f, Handle.borrowed_nil _⟩
  · exact .raise s _ _

/-- The definition of a helper. -/
private theorem defineBatch (s : Sound w hs []) (name target : String) :
    Responds w (w.defineBatch name target) hs := by
  unfold Scene.defineBatch
  split
  · next f hf =>
    have hb := Handle.borrowed_of_subset
      (List.subset_append_of_subset_right hs (keeps_subset_of_global hf))
    exact ⟨s.bindFunction name f.batch hb, s.extends_bindFunction name f.batch,
      Handle.borrowed_nil _⟩
  · next e he =>
    obtain ⟨kind, message, rfl⟩ := exists_raised_of_global he
    exact .raise s kind message

/-- A bare name. -/
private theorem lookUp (s : Sound w hs []) (name : String) :
    Responds w (w.lookUp name) hs := by
  unfold Scene.lookUp
  split
  · next h hf =>
    exact .ok s (borrowed_unowned (s.script.globals h (Slots.mem_toList_of_find? hf)) _)
  · split
    · exact ⟨s.moduleObject name, s.extends_moduleObject name,
        borrowed_unowned (s.moduleObject_owner name) _⟩
    · exact .raise s _ _

/-- The outcome of a code. -/
private theorem outcome (s : Sound w hs []) (code : String) :
    Responds w (w.outcome code) hs := by
  unfold Scene.outcome
  split
  · next v hv =>
    refine .ok s (Handle.borrowed_of_subset (List.subset_append_of_subset_right _
      (List.subset_append_of_subset_right _ (List.subset_append_of_subset_left _ ?_))))
    exact Value.handles_subset_of_mem (Slots.mem_toList_of_find? hv)
  · unfold Scene.run
    split
    · split
      · exact .ok s (Handle.borrowed_nil _)
      · exact .raise s _ _
    · exact s.define _ _
    · exact s.defineBatch _ _
    · exact s.lookUp _
    · exact .raise s _ _

/-! ### Requests -/

/-- A module that can be brought into scope has no members at first. -/
theorem addPackage (s : Sound w hs due) (module : String) :
    Sound (w.addPackage module) hs due ∧ Extends w (w.addPackage module) [] := by
  unfold Scene.addPackage
  split
  · exact ⟨s, .refl s.bounded⟩
  · next hnew =>
    have hnone : w.guest.packages.find? module = none := by
      cases hf : w.guest.packages.find? module with
      | none => rfl
      | some m =>
        obtain ⟨e, he, -⟩ := Option.map_eq_some_iff.1 hf
        exact absurd (List.any_eq_true.2 ⟨e, List.mem_of_find?_eq_some he,
          List.find?_some he⟩) hnew
    have hput := s.script.packages.put_perm module (Slots.empty : Slots Value)
    rw [show (w.guest.packages.put module Slots.empty).1 = none from hnone] at hput
    have hmembers : (Value.handlesAll
        ((w.guest.packages.put module Slots.empty).2.toList.flatMap Slots.toList)).Perm
        (Value.handlesAll (w.guest.packages.toList.flatMap Slots.toList)) :=
      Value.handlesAll_perm (hput.flatMap_right Slots.toList)
    refine ⟨⟨s.books.perm (List.Perm.append_left hs ?_), s.table.congr rfl rfl rfl rfl,
      ⟨s.script.bodies, s.script.expressions, s.script.packages.put module _, ?_,
      s.script.globals, s.script.moduleObjects⟩⟩, (Extends.refl s.bounded).congr rfl rfl rfl⟩
    · refine List.Perm.append_left _ (List.Perm.append_left _ (List.Perm.append_right _ ?_))
      exact hmembers.symm
    · intro m hm
      rcases Slots.mem_toList_put hm with rfl | hm
      · exact Slots.wf_empty
      · exact s.script.members m hm

/-- What a value is converted to has its handles. -/
private theorem converted_handles (type : String) (value : Value) :
    Failure.shownBy Value.handles (Scene.converted type value) ⊆ value.handles := by
  unfold Scene.converted
  split
  · split <;> simp [Failure.shownBy, Value.handles]
  · split
    · exact List.Subset.refl _
    · split
      · exact List.Subset.refl _
      · exact List.Subset.refl _
  · exact List.Subset.refl _

/-- Calling an object. -/
private theorem callObject {callee : Handle} {args : List Value} (s : Sound w hs [])
    (hb : Handle.Borrowed hs (Value.handlesAll args)) :
    Responds w
      (match w.guest.object callee with
        | .error e => (.error e, w)
        | .ok (.function f) => (f.apply args, w)
        | .ok (.module name) =>
          (raise "MethodError" s!"objects of type Module are not callable ({name})", w)) hs := by
  unfold Stage.object
  cases ho : w.guest.object? callee.id with
  | none => exact .raise s _ _
  | some o =>
    cases o with
    | module name => exact .raise s _ _
    | function f =>
      refine ⟨s, .refl s.bounded, ?_⟩
      have hborrows := f.borrows args
      rw [Value.handlesAll_append] at hborrows
      intro x hx hne
      rcases List.mem_append.1 (hborrows x hx hne) with hx | hx
      · exact List.mem_append_left _ (hb x hx hne)
      · exact List.mem_append_right _ (keeps_subset ho hx)

/-- Looking up a property of an object. -/
private theorem memberOf {target : Handle} {name : String} (s : Sound w hs []) :
    Responds w
      (match w.guest.object target with
        | .error e => (.error e, w)
        | .ok (.module module) =>
          match (w.guest.packages.find? module).bind (·.find? name) with
          | some v => (.ok v, w)
          | none => (raise "UndefVarError" s!"`{name}` not defined in `{module}`", w)
        | .ok (.function _) =>
          (raise "ErrorException" s!"type Function has no field {name}", w)) hs := by
  unfold Stage.object
  cases ho : w.guest.object? target.id with
  | none => exact .raise s _ _
  | some o =>
    cases o with
    | function f => exact .raise s _ _
    | module module =>
      cases hm : (w.guest.packages.find? module).bind (·.find? name) with
      | none =>
        simp only [hm]
        exact .raise s _ _
      | some v =>
        simp only [hm]
        obtain ⟨members, hmembers, hv⟩ := Option.bind_eq_some_iff.1 hm
        have hmem : v ∈ w.guest.packages.toList.flatMap Slots.toList :=
          List.mem_flatMap.2 ⟨members, Slots.mem_toList_of_find? hmembers,
            Slots.mem_toList_of_find? hv⟩
        exact .ok s (Handle.borrowed_of_subset (List.subset_append_of_subset_right _
          (List.subset_append_of_subset_right _ (List.subset_append_of_subset_right _
          (List.subset_append_of_subset_left _ (Value.handles_subset_of_mem hmem))))))

/-- What a request that has begun comes to before it is handed out. -/
theorem respond {r : Request} (s : Sound w hs []) (hb : Handle.Borrowed hs r.handles) :
    Responds w.begin (w.respond r) hs := by
  have hbegun := s.beginRequest
  have hsame := Extends.refl hbegun.bounded
  cases r with
  | eval code => exact (outcome (hbegun.note _ _ _ _ _ _ _) code).after (hsame.congr rfl rfl rfl)
  | call callee args =>
    have hargs : Handle.Borrowed hs (Value.handlesAll args) :=
      hb.of_subset (List.subset_cons_self callee _)
    exact (callObject (hbegun.note _ _ _ _ _ _ _) hargs).after (hsame.congr rfl rfl rfl)
  | getAttr target name =>
    exact (memberOf (hbegun.note _ _ _ _ _ _ _)).after (hsame.congr rfl rfl rfl)
  | convert type value =>
    refine ⟨hbegun.note _ _ _ _ _ _ _, hsame.congr rfl rfl rfl, ?_⟩
    exact (hb.of_subset (converted_handles type value)).mono (List.subset_append_left _ _)
  | newModule name =>
    obtain ⟨hadded, hextends⟩ := hbegun.addPackage name
    exact ⟨hadded.store "Module" (Handle.borrowed_nil _),
      hextends.trans (hadded.extends_store (.module name) "Module"), borrowed_unowned rfl _⟩

/-- The answer to a request is handed out, and held from then on. When the request has begun,
objects are only added. -/
theorem answer {r : Request} (s : Sound w hs []) (hb : Handle.Borrowed hs r.handles) :
    Sound (w.answer r).2 (Failure.shownBy Value.handles (w.answer r).1 ++ hs) [] ∧
      Extends w.begin (w.answer r).2 (w.exportsOf r) := by
  obtain ⟨hsound, hadds, hborrowed⟩ := s.respond hb
  unfold Scene.answer Scene.exportsOf
  cases hr : w.respond r with
  | mk result u =>
    rw [hr] at hsound hadds hborrowed
    cases result with
    | error e =>
      obtain ⟨hretained, hextends⟩ := hsound.retainHandles hborrowed
      exact ⟨hretained, hadds.trans hextends⟩
    | ok v =>
      obtain ⟨hout, hextends⟩ := hsound.handOutValue hborrowed
      exact ⟨hout, hadds.trans hextends⟩

/-- From before a request to its answer. -/
theorem later_answer {r : Request} (s : Sound w hs []) (hb : Handle.Borrowed hs r.handles) :
    Later w (w.answer r).2 (w.exportsOf r) :=
  s.quiet_begin.later.trans (s.answer hb).2.later

/-! ### Script lines -/

/-- The script changes: what is new is kept alive, and what is gone is dropped. -/
private theorem rescript (s : Sound w hs due) (s' : Stage) (new gone : List Value)
    (hb : Handle.Borrowed (hs ++ w.guest.kept) (Value.handlesAll new))
    (hkept : (Value.handlesAll new ++ w.guest.kept).Perm (Value.handlesAll gone ++ s'.kept))
    (hobjects : s'.objects = w.guest.objects) (hlast : s'.lastId = w.guest.lastId)
    (hexported : s'.exported = w.guest.exported) (hreleased : s'.released = w.guest.released)
    (hscript : s'.Script) :
    Sound ⟨s', (w.ledger.retainHandles (Value.handlesAll new)).dropAll gone⟩ hs due ∧
      Quiet w ⟨s', (w.ledger.retainHandles (Value.handlesAll new)).dropAll gone⟩ := by
  have hobject : ∀ id, s'.object? id = w.guest.object? id := by simp [Stage.object?, hobjects]
  have hbooks : Books (w.ledger.retainHandles (Value.handlesAll new))
      (Value.handlesAll gone ++ (hs ++ s'.kept)) (fun id ↦ (w.guest.object? id).isSome) due := by
    refine (s.books.retainHandles hb).perm ?_
    rw [List.perm_iff_count] at hkept ⊢
    intro x
    have hx := hkept x
    simp only [List.count_append] at hx ⊢
    omega
  have hids : ((w.ledger.retainHandles (Value.handlesAll new)).dropAll gone).ids =
      w.ledger.ids := by
    rw [Ledger.dropAll, hbooks.accounts.ids_dropHandles, Ledger.ids_retainHandles]
  refine ⟨⟨hbooks.dropHandles.congr fun id _ ↦ by rw [hobject], ?_, hscript⟩,
    ⟨⟨Nat.le_of_eq hlast.symm, fun id _ ↦ .inr (hobject id)⟩, hids⟩⟩
  rw [hids]
  exact s.table.congr hobjects hlast hexported hreleased

/-- The handles of the values that are kept alive by the content of a slot. -/
private theorem count_put {α : Type} {t : Slots α} (ht : t.WF) (slot : String) (x : α)
    (values : α → List Value) (k : Handle) :
    (Value.handlesAll ((t.put slot x).1.toList.flatMap values)).count k +
        (Value.handlesAll ((t.put slot x).2.toList.flatMap values)).count k =
      (Value.handlesAll (values x)).count k +
        (Value.handlesAll (t.toList.flatMap values)).count k := by
  have hput := (Value.handlesAll_perm ((ht.put_perm slot x).flatMap_right values)).count_eq k
  simpa only [List.flatMap_append, List.flatMap_cons, Value.handlesAll_append,
    List.count_append] using hput

/-- Saying what functions with a body do. -/
private theorem implement (s : Sound w hs due) (body : String) (f : Native)
    (hb : Handle.Borrowed (hs ++ w.guest.kept) (Value.handlesAll f.keeps)) :
    Sound (w.implement body f) hs due ∧ Quiet w (w.implement body f) := by
  refine s.rescript { w.guest with bodies := (w.guest.bodies.put (Scene.bodyKey body) f).2 }
    f.keeps ((w.guest.bodies.put (Scene.bodyKey body) f).1.toList.flatMap Native.keeps) hb ?_
    rfl rfl rfl rfl ⟨s.script.bodies.put _ f, s.script.expressions, s.script.packages,
      s.script.members, s.script.globals, s.script.moduleObjects⟩
  rw [List.perm_iff_count]
  intro x
  have hput := count_put s.script.bodies (Scene.bodyKey body) f Native.keeps x
  simp only [Stage.kept, List.count_append]
  omega

/-- Giving an expression a value. -/
private theorem setExpression (s : Sound w hs due) (code : String) (value : Value)
    (hb : Handle.Borrowed (hs ++ w.guest.kept) value.handles) :
    Sound (w.setExpression code value) hs due ∧ Quiet w (w.setExpression code value) := by
  have hnew : Value.handlesAll [value] = value.handles := List.append_nil _
  unfold Scene.setExpression Ledger.retain
  rw [← hnew] at hb ⊢
  refine s.rescript { w.guest with expressions := (w.guest.expressions.put code value).2 }
    [value] (w.guest.expressions.put code value).1.toList hb ?_ rfl rfl rfl rfl
    ⟨s.script.bodies, s.script.expressions.put code value, s.script.packages, s.script.members,
      s.script.globals, s.script.moduleObjects⟩
  rw [List.perm_iff_count]
  intro x
  have hput := count_put s.script.expressions code value (fun v ↦ [v]) x
  simp only [List.flatMap_singleton'] at hput
  simp only [Stage.kept, List.count_append]
  omega

/-- Putting a member into a module. -/
private theorem setMember (s : Sound w hs due) (module name : String) (value : Value)
    (hb : Handle.Borrowed (hs ++ w.guest.kept) value.handles) :
    Sound (w.setMember module name value) hs due ∧ Quiet w (w.setMember module name value) := by
  have hnew : Value.handlesAll [value] = value.handles := List.append_nil _
  let members := (w.guest.packages.find? module).getD Slots.empty
  have hmembers : members.WF := by
    cases hf : w.guest.packages.find? module with
    | none => simp only [members, hf]; exact Slots.wf_empty
    | some m =>
      simp only [members, hf]
      exact s.script.members m (Slots.mem_toList_of_find? hf)
  have hold : members.toList = (w.guest.packages.find? module).toList.flatMap Slots.toList := by
    cases hf : w.guest.packages.find? module <;> simp [members, hf, Slots.empty, Slots.toList]
  unfold Scene.setMember Ledger.retain
  rw [← hnew] at hb ⊢
  refine s.rescript { w.guest with
      packages := (w.guest.packages.put module (members.put name value).2).2 }
    [value] (members.put name value).1.toList hb ?_ rfl rfl rfl rfl
    ⟨s.script.bodies, s.script.expressions, s.script.packages.put module _, ?_,
      s.script.globals, s.script.moduleObjects⟩
  · rw [List.perm_iff_count]
    intro x
    have hput := count_put s.script.packages module (members.put name value).2 Slots.toList x
    have hmember := count_put hmembers name value (fun v ↦ [v]) x
    simp only [List.flatMap_singleton', hold] at hmember
    rw [show (w.guest.packages.put module (members.put name value).2).1 =
      w.guest.packages.find? module from rfl] at hput
    simp only [Stage.kept, List.count_append]
    omega
  · intro m hm
    rcases Slots.mem_toList_put hm with rfl | hm
    · exact hmembers.put name value
    · exact s.script.members m hm

/-- Every line of a script that names only handles that are held leaves a rehearsal in
order. -/
theorem play {line : Line} (s : Sound w hs due) (hb : Handle.Borrowed hs line.handles) :
    Sound (w.play line) hs due ∧ Quiet w (w.play line) := by
  have hb' : Handle.Borrowed (hs ++ w.guest.kept) line.handles :=
    hb.mono (List.subset_append_left _ _)
  cases line with
  | implement body f => exact s.implement body f hb'
  | expression code value => exact s.setExpression code value hb'
  | member module name value => exact s.setMember module name value hb'
  | memberFunction module name f =>
    have hstored := s.store (o := .function f) "Function" hb'
    obtain ⟨hsound, hquiet⟩ := hstored.setMember module name
      (.handle (w.store (.function f) "Function").1) (borrowed_unowned rfl _)
    exact ⟨hsound, (s.extends_store (.function f) "Function").quiet.trans hquiet⟩

end Sound

end GuestBridge.Rehearsal
