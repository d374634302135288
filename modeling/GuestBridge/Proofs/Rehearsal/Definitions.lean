import GuestBridge.Proofs.Definition.ReadBack
import GuestBridge.Proofs.Rehearsal.Names

/-!
# Definitions in a rehearsal

A definition that is built for a guest is understood by a rehearsal: evaluating it binds its
name to what was scripted for its statements, evaluating its helper binds the helper's name to
the function applied to every element of a batch, and nothing else changes.
-/

namespace GuestBridge.Rehearsal

variable {w w' : Scene} {hs hs' : List Handle} {due : List Nat} {xs : List (Nat × Object)}
  {name code body target : String} {f : Native}

/-! ### Bindings -/

/-- From one scene to a later one a function is bound to a name. What all other names stand for
and everything scripted is the same, and no object changes but those that are forgotten. -/
structure Binds (w w' : Scene) (name : String) (f : Native) : Prop where
  bound : w'.global name = .ok f
  others : ∀ other, other ≠ name →
    w'.guest.globals.find? other = w.guest.globals.find? other ∧ w'.global other = w.global other
  bodies : w'.guest.bodies = w.guest.bodies
  expressions : w'.guest.expressions = w.guest.expressions
  packages : w'.guest.packages = w.guest.packages
  moduleObjects : w'.guest.moduleObjects = w.guest.moduleObjects
  objects : w.guest.Shrinks w'.guest

/-- A name goes on to stand for the same function as long as it is not defined again. -/
theorem AllAnchored.global_eq (a : AllAnchored w) (s : Sound w hs due) (s' : Sound w' hs' due)
    (l : Later w w' xs)
    (hfind : w'.guest.globals.find? name = w.guest.globals.find? name) :
    w'.global name = w.global name := by
  unfold Scene.global
  rw [hfind]
  cases hh : w.guest.globals.find? name with
  | none => rfl
  | some h =>
    have hobject := (a h (Slots.mem_toList_of_find? hh)).object? s s' l
    simp only [Stage.object, hobject]

/-- What is bound to a name is what the name stands for. -/
theorem Sound.global_bindFunction (s : Sound w hs due) (name : String) (f : Native) :
    (w.bindFunction name f).global name = .ok f := by
  have hfind : (w.bindFunction name f).guest.globals.find? name =
      some (.permanent (w.guest.lastId + 1) "Function") :=
    (Slots.find?_put _ _ _ _).trans (if_pos rfl)
  have hobject := s.object?_bindFunction name f (w.guest.lastId + 1)
  rw [if_pos rfl] at hobject
  unfold Scene.global
  rw [hfind]
  simp only [Stage.object, Handle.permanent, hobject]

/-- A code that comes to a definition binds its name. -/
theorem Sound.answer_definition (s : Sound w hs []) (a : AllAnchored w)
    (hcode : w.guest.expressions.find? code = none)
    (hrun : (w.evaluating code).run (Scene.bodyKey code) =
      (.ok .nothing, (w.evaluating code).bindFunction name f)) :
    ∃ w', w.answer (.eval code) = (.ok .nothing, w') ∧ Binds w w' name f ∧ Sound w' hs [] ∧
      AllAnchored w' := by
  obtain ⟨hsound, hquiet⟩ := s.evaluating code
  have hscript := sameScript_evaluating w code
  have hanswer : w.answer (.eval code) =
      (.ok .nothing, (w.evaluating code).bindFunction name f) := by
    have houtcome : w.eval code = (.ok .nothing, (w.evaluating code).bindFunction name f) := by
      rw [← hrun]
      show (w.evaluating code).outcome code = _
      rw [Scene.outcome, hscript.expressions, hcode]
    simp only [Scene.answer, Scene.respond, houtcome]
    rfl
  have hkept := (custodyOf AllAnchored persists_allAnchored).answer (r := .eval code) ⟨s, a⟩
    (Handle.borrowed_nil _)
  have hsound' : Sound (w.answer (.eval code)).2 hs [] ∧ AllAnchored (w.answer (.eval code)).2 := by
    rw [show (interpreter.answer (.eval code) w) = w.answer (.eval code) from rfl, hanswer] at hkept
    rw [hanswer]
    exact hkept
  rw [hanswer] at hsound'
  have hbound := hquiet.trans (hsound.extends_bindFunction name f).quiet
  refine ⟨_, hanswer, ⟨hsound.global_bindFunction name f, fun other hne ↦ ?_, hscript.bodies,
    hscript.expressions, hscript.packages, hscript.moduleObjects, hbound.shrinks⟩, hsound'⟩
  have hfind : ((w.evaluating code).bindFunction name f).guest.globals.find? other =
      w.guest.globals.find? other := by
    rw [← hscript.globals]
    exact (Slots.find?_put _ _ _ _).trans (if_neg hne)
  exact ⟨hfind, a.global_eq s hsound'.1 hbound.later hfind⟩

/-- Evaluating a definition binds its name to what was scripted for its body. -/
theorem Sound.answer_define (s : Sound w hs []) (a : AllAnchored w)
    (hcode : w.guest.expressions.find? code = none)
    (hform : Form.of (Text.trim code.toList) = .define name body)
    (hbody : w.guest.bodies.find? (Scene.bodyKey (Text.dedent body)) = some f) :
    ∃ w', w.answer (.eval code) = (.ok .nothing, w') ∧ Binds w w' name f ∧ Sound w' hs [] ∧
      AllAnchored w' := by
  apply s.answer_definition a hcode
  simp only [Scene.run, Scene.bodyKey, String.toList_ofList, hform, Scene.define,
    (sameScript_evaluating w code).bodies]
  rw [show String.ofList (Text.trim (Text.dedent body).toList) =
    Scene.bodyKey (Text.dedent body) from rfl, hbody]

/-- Evaluating a helper binds its name to the function applied to every element of a batch. -/
theorem Sound.answer_defineBatch (s : Sound w hs []) (a : AllAnchored w)
    (hcode : w.guest.expressions.find? code = none)
    (hform : Form.of (Text.trim code.toList) = .defineBatch name target)
    (htarget : w.global target = .ok f) :
    ∃ w', w.answer (.eval code) = (.ok .nothing, w') ∧ Binds w w' name f.batch ∧
      Sound w' hs [] ∧ AllAnchored w' := by
  apply s.answer_definition a hcode
  obtain ⟨hsound, hquiet⟩ := s.evaluating code
  have hglobal : (w.evaluating code).global target = .ok f := by
    rw [← htarget]
    exact a.global_eq s hsound hquiet.later
      (congrArg (·.find? target) (sameScript_evaluating w code).globals)
  simp only [Scene.run, Scene.bodyKey, String.toList_ofList, hform, Scene.defineBatch, hglobal]

/-! ### Built definitions -/

/-- The helper of a function applies it to every argument list of a batch, and stops at the
first failure. -/
theorem Native.batch_apply (f : Native) (batch : List (List Value)) :
    f.batch.apply [.array (batch.map .tuple)] = (batch.mapM f.apply).map .array := by
  have hall : Native.applyAll f.apply (batch.map .tuple) = batch.mapM f.apply := by
    induction batch with
    | nil => rfl
    | cons args batch ih =>
      rw [List.map_cons, Native.applyAll, Native.arguments, ih, List.mapM_cons]
      cases f.apply args with
      | error e => rfl
      | ok v => cases batch.mapM f.apply <;> rfl
  simp only [Native.batch, Native.applyBatch, List.head?_cons, Option.bind_some, Value.items?, hall]

/-- The statements that are read back from a wrapped settled text are the text, when their
margin and their outer blanks are gone. -/
theorem settle_indent {s : String} (h : Text.IsSettled s.toList) :
    Text.dedent (Text.indent Definition.bodyMargin s) = s := by
  have hback :
      Text.dedentChars (Text.indentChars Definition.bodyMargin.toList s.toList) = s.toList :=
    Text.dedentChars_indentChars (by decide) (by decide) h
  rw [Text.dedent, Text.indent, String.toList_ofList, hback, String.ofList_toList]

/-- The definition that is built for settled statements, and its helper, mean in every
rehearsed session what they are built for: the statements that are read out of the definition
are the ones that were wrapped; evaluating it binds its name to what was scripted for them; and
evaluating the helper then binds the helper's name to the function applied to every element of a
batch. -/
theorem built_definitions_bind (refusals : List (Option String))
    (expressionCapacity functionCapacity : Nat) (ready : Bool) (events : List Event)
    (v name : String) (params : List String) (f : Native) :
    let w := (rehearse (opening (Stage.bare refusals) expressionCapacity functionCapacity ready)
      events).bridge.toWorld
    let s := Text.settle v
    let d := Definition.build name params s
    let helper := Definition.buildMap name
    isName name.toList = true → Definition.isComplete s = false →
    (∀ p ∈ params, ')' ∉ p.toList) → w.guest.bodies.find? s = some f →
    w.guest.expressions.find? d.source = none →
    w.guest.expressions.find? helper.source = none →
    (∃ body, longForm? (Text.trim d.source.toList) = some (name.toList, body) ∧
      Text.settleChars body = s.toList) ∧
    ∃ w₁ w₂, interpreter.answer (.eval d.source) w = (.ok .nothing, w₁) ∧ Binds w w₁ name f ∧
      interpreter.answer (.eval helper.source) w₁ = (.ok .nothing, w₂) ∧
      Binds w₁ w₂ helper.name f.batch ∧ Scene.global w₂ name = .ok f ∧
      ∀ batch : List (List Value),
        f.batch.apply [.array (batch.map .tuple)] = (batch.mapM f.apply).map .array := by
  intro w s d helper hname hcomplete hparams hbody hsource hhelper
  have hkeeps := keepsAll_anchored refusals expressionCapacity functionCapacity ready events
  obtain ⟨hsound, hanchored⟩ := hkeeps.keeps.sound
  have hsettled : Text.IsSettled s.toList := by
    simp only [s, Text.settle, String.toList_ofList]
    exact Text.isSettled_settleChars v.toList
  have hd : d = ⟨name, Definition.wrap name params s, false⟩ := by
    have hnone : Definition.definedName? s = none := by
      simpa [Definition.isComplete] using hcomplete
    simp only [d, Definition.build, hnone]
  have hback := settle_indent hsettled
  have hkey : Scene.bodyKey s = s := by
    rw [Scene.bodyKey, hsettled.trim, String.ofList_toList]
  have hform : Form.of (Text.trim d.source.toList) =
      .define name (Text.indent Definition.bodyMargin s) := by
    rw [hd, trim_wrap, form_wrap hname hparams]
  obtain ⟨w₁, hanswer, hbinds, hsound₁, hanchored₁⟩ := hsound.answer_define hanchored hsource hform
    (by rw [hback, hkey]; exact hbody)
  obtain ⟨w₂, hanswer', hbinds', -, -⟩ := hsound₁.answer_defineBatch hanchored₁
    (by rw [hbinds.expressions]; exact hhelper)
    (by rw [trim_buildMap hname, form_buildMap hname]) hbinds.bound
  refine ⟨⟨Text.indentChars Definition.bodyMargin.toList s.toList, ?_, ?_⟩, w₁, w₂, hanswer,
    hbinds, hanswer', hbinds', ?_, f.batch_apply⟩
  · rw [hd, trim_wrap]
    exact longForm?_wrap hname hparams s
  · rw [Text.settleChars, Text.dedentChars_indentChars (by decide) (by decide) hsettled,
      hsettled.trim]
  · have hne : name ≠ helper.name := by
      intro heq
      have hlength := congrArg (fun n ↦ n.toList.length) heq
      simp [helper, Definition.buildMap, Definition.mapName] at hlength
    rw [(hbinds'.others name hne).2, hbinds.bound]

/-- Two lines of statements with a margin, in a session in which something was scripted for
them. -/
theorem built_definitions_bind_two_lines :
    let v := "\n    y = x!\n    y + 1\n  "
    let w := (rehearse (opening (Stage.bare []) 2 2 true)
      [.script (.implement "y = x!\ny + 1" Native.sum)]).bridge.toWorld
    ∃ w₁ w₂, interpreter.answer (.eval (Definition.build "f!" ["x!"] (Text.settle v)).source) w =
        (.ok .nothing, w₁) ∧
      interpreter.answer (.eval (Definition.buildMap "f!").source) w₁ = (.ok .nothing, w₂) ∧
      Scene.global w₂ "f!" = .ok Native.sum := by
  intro v w
  have hkey : Text.settle v = Scene.bodyKey "y = x!\ny + 1" := by decide +kernel
  have hbody : w.guest.bodies.find? (Text.settle v) = some Native.sum := by
    show (Slots.empty.put (Scene.bodyKey "y = x!\ny + 1") Native.sum).2.find? _ = _
    rw [Slots.find?_put, if_pos hkey]
  obtain ⟨-, w₁, w₂, h₁, -, h₂, -, h₃, -⟩ := built_definitions_bind [] 2 2 true
    [.script (.implement "y = x!\ny + 1" Native.sum)] v "f!" ["x!"] Native.sum (by decide)
    (by decide +kernel) (by decide +kernel) hbody rfl rfl
  exact ⟨w₁, w₂, h₁, h₂, h₃⟩

end GuestBridge.Rehearsal
