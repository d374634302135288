import GuestBridge.Bridge.Session
import GuestBridge.Proofs.Value.Conservation
import GuestBridge.Proofs.Value.HostTypeHandles

/-!
# Custody of handles

A discipline for the handles that are held on the host's side of an interpreter: some
property of the world and of the list of all handles held there, which is kept when a held
handle is copied, when one is dropped, and when a request that names only held handles is
answered. Whatever the interpreter, every operation of a bridge keeps the discipline, and the
handles of its result, or of its failure, are held in addition to those held before.
-/

namespace GuestBridge

/-- The handles that a request names. -/
def Request.handles : Request → List Handle
  | .eval _ | .newModule _ => []
  | .call callee args => callee :: Value.handlesAll args
  | .getAttr target _ => [target]
  | .convert _ value => value.handles

/-- A discipline for the handles held on the host's side of an interpreter. -/
structure Custody {σ : Type} (i : Interpreter σ) where
  /-- The world is in order while these handles are held. -/
  Sound : World σ → List Handle → Prop
  perm : ∀ {w : World σ} {hs hs' : List Handle}, Sound w hs → hs.Perm hs' → Sound w hs'
  retain : ∀ {w : World σ} {hs : List Handle} {h : Handle}, Sound w hs →
    Handle.Borrowed hs [h] → Sound { w with ledger := w.ledger.retainHandle h } (h :: hs)
  drop : ∀ {w : World σ} {hs : List Handle} {h : Handle}, Sound w (h :: hs) →
    Sound { w with ledger := w.ledger.dropHandle h } hs
  start : ∀ {w : World σ} {hs : List Handle}, Sound w hs →
    Sound { w with guest := (i.start w.guest).2 }
      (Failure.shownBy (fun _ ↦ []) (i.start w.guest).1 ++ hs)
  answer : ∀ {w : World σ} {hs : List Handle} {r : Request}, Sound w hs →
    Handle.Borrowed hs r.handles →
    Sound (i.answer r w).2 (Failure.shownBy Value.handles (i.answer r w).1 ++ hs)

/-- The handles in the caches of a bridge. -/
def Bridge.cached {σ : Type} (b : Bridge σ) : List Handle :=
  Value.handlesAll b.expressions.values ++ Value.handlesAll b.functions.values

/-- The handles of values in another order. -/
theorem Value.handlesAll_perm {vs ws : List Value} (h : vs.Perm ws) :
    (handlesAll vs).Perm (handlesAll ws) := by
  induction h with
  | nil => rfl
  | cons v _ ih => exact List.Perm.append_left v.handles ih
  | swap v w vs =>
    simp only [handlesAll, ← List.append_assoc]
    exact List.perm_append_comm.append_right _
  | trans _ _ ih₁ ih₂ => exact ih₁.trans ih₂

namespace Custody

variable {σ : Type} {i : Interpreter σ} (c : Custody i)

/-- Copies of handles that are held are held as well. -/
theorem retainHandles {w : World σ} {hs ks : List Handle} (h : c.Sound w hs)
    (hb : Handle.Borrowed hs ks) :
    c.Sound { w with ledger := w.ledger.retainHandles ks } (ks ++ hs) := by
  induction ks generalizing w hs with
  | nil => exact h
  | cons k ks ih =>
    have hk : Handle.Borrowed hs [k] := hb.of_subset (by simp)
    have hks : Handle.Borrowed (k :: hs) ks :=
      (hb.of_subset (List.subset_cons_self k ks)).mono (List.subset_cons_self k hs)
    exact c.perm (ih (c.retain h hk) hks) List.perm_middle

/-- Handles that are dropped are not held any more. -/
theorem dropHandles {w : World σ} {hs ks : List Handle} (h : c.Sound w (ks ++ hs)) :
    c.Sound { w with ledger := w.ledger.dropHandles ks } hs := by
  induction ks generalizing w with
  | nil => exact h
  | cons k ks ih => exact ih (c.drop h)

/-- A bridge is in order while some handles are held beside those in its caches. -/
structure Keeps (b : Bridge σ) (hs : List Handle) : Prop where
  sound : c.Sound b.toWorld (hs ++ b.cached)
  expressions : b.expressions.WF
  functions : b.functions.WF

/-- What an operation comes to: the handles of its result or its failure are held from then
on. -/
def Settles {α : Type} (shown : α → List Handle) (o : Outcome σ α) (hs : List Handle) : Prop :=
  c.Keeps o.2 (Failure.shownBy shown o.1 ++ hs)

variable {c} {b : Bridge σ} {hs hs' ks : List Handle} {v : Value} {vs : List Value}

/-- The order of the handles does not matter. -/
theorem Keeps.perm (h : c.Keeps b hs) (hp : hs.Perm hs') : c.Keeps b hs' where
  sound := c.perm h.sound (hp.append_right _)
  expressions := h.expressions
  functions := h.functions

/-- Another copy of a value is held. -/
theorem Keeps.retain (h : c.Keeps b hs) (hb : Handle.Borrowed (hs ++ b.cached) v.handles) :
    c.Keeps (b.retain v) (v.handles ++ hs) where
  sound := c.perm (c.retainHandles h.sound hb) (by rw [← List.append_assoc]; rfl)
  expressions := h.expressions
  functions := h.functions

/-- Handles are dropped. -/
theorem Keeps.dropHandles (h : c.Keeps b (ks ++ hs)) :
    c.Keeps { b with ledger := b.ledger.dropHandles ks } hs where
  sound := c.dropHandles (c.perm h.sound (by rw [List.append_assoc]; exact .refl _))
  expressions := h.expressions
  functions := h.functions

/-- A value is dropped. -/
theorem Keeps.drop (h : c.Keeps b (v.handles ++ hs)) : c.Keeps (b.drop v) hs :=
  h.dropHandles

/-- Values are dropped. -/
theorem Keeps.dropAll (h : c.Keeps b (Value.handlesAll vs ++ hs)) :
    c.Keeps (b.dropAll vs) hs :=
  h.dropHandles

/-- Going on with a result. -/
theorem Settles.andThen {α β : Type} {shown : α → List Handle} {shown' : β → List Handle}
    {o : Outcome σ α} {next : α → Bridge σ → Outcome σ β} (h : c.Settles shown o hs)
    (hn : ∀ x b, c.Keeps b (shown x ++ hs) → c.Settles shown' (next x b) hs) :
    c.Settles shown' (o.andThen next) hs := by
  obtain ⟨result, b⟩ := o
  cases result with
  | ok x => exact hn x b h
  | error e => exact h

/-- Starting the interpreter brings no handles, unless it fails with some. -/
theorem Keeps.require (h : c.Keeps b hs) : c.Settles (fun _ ↦ []) (b.require i) hs := by
  unfold Bridge.require
  split
  · exact h
  · have hstart := c.start h.sound
    rw [← List.append_assoc] at hstart
    cases hst : i.start b.guest with
    | mk result guest =>
      rw [hst] at hstart
      cases result with
      | ok u => exact ⟨hstart, h.expressions, h.functions⟩
      | error e => exact ⟨hstart, h.expressions, h.functions⟩

/-- The answer to a request that names held handles is held. -/
theorem Keeps.ask {r : Request} (h : c.Keeps b hs) (hb : Handle.Borrowed hs r.handles) :
    c.Settles Value.handles (b.ask i r) hs := by
  apply h.require.andThen
  intro _ b h
  have hb' : Handle.Borrowed (hs ++ b.cached) r.handles :=
    hb.mono (List.subset_append_left hs _)
  have hanswer := c.answer h.sound hb'
  exact ⟨by rw [← List.append_assoc] at hanswer; exact hanswer, h.expressions, h.functions⟩

/-- The value of an evaluation is held. -/
theorem Keeps.eval {code : String} (h : c.Keeps b hs) :
    c.Settles Value.handles (b.eval i code) hs :=
  h.ask (Handle.borrowed_nil _)

/-- An execution leaves nothing held. -/
theorem Keeps.exec {code : String} (h : c.Keeps b hs) :
    c.Settles (fun _ ↦ []) (b.exec i code) hs := by
  apply h.eval.andThen
  intro v b h
  exact h.drop

/-- A cache takes the place of one of a bridge; what it does not hold is held elsewhere. -/
theorem Keeps.withMemo {m : Bridge.Memo} {cache : Recency String Value} (h : c.Keeps b hs)
    (hwf : cache.WF)
    (hp : (hs ++ Value.handlesAll (b.memo m).values).Perm
      (hs' ++ Value.handlesAll cache.values)) :
    c.Keeps (b.withMemo cache m) hs' := by
  cases m with
  | expressions =>
    refine ⟨c.perm h.sound ?_, hwf, h.functions⟩
    simp only [Bridge.cached, Bridge.withMemo, ← List.append_assoc]
    exact hp.append_right _
  | functions =>
    refine ⟨c.perm h.sound ?_, h.expressions, hwf⟩
    rw [List.perm_iff_count] at hp ⊢
    intro x
    have hx := hp x
    simp only [Bridge.cached, Bridge.withMemo, Bridge.memo, List.count_append] at hx ⊢
    omega

/-- The keys of both caches are distinct. -/
theorem Keeps.memo_wf (h : c.Keeps b hs) (m : Bridge.Memo) : (b.memo m).WF := by
  cases m with
  | expressions => exact h.expressions
  | functions => exact h.functions

/-- What is in a cache is in the caches. -/
theorem memo_subset_cached (b : Bridge σ) (m : Bridge.Memo) :
    Value.handlesAll (b.memo m).values ⊆ b.cached := by
  cases m with
  | expressions => exact List.subset_append_left _ _
  | functions => exact List.subset_append_right _ _

/-- Remembering a value keeps a copy of it and drops what the cache lets go. -/
theorem Keeps.remember {m : Bridge.Memo} {code : String} (h : c.Keeps b (v.handles ++ hs)) :
    c.Keeps (b.remember m code v) (v.handles ++ hs) := by
  have hcopy := h.retain (v := v)
    (Handle.borrowed_of_subset fun x hx ↦ by simp only [List.mem_append]; exact .inl (.inl hx))
  have hperm := Value.handlesAll_perm ((h.memo_wf m).insert_perm code v)
  have hcache : c.Keeps (((b.retain v).withMemo ((b.memo m).insert code v).2 m))
      (Value.handlesAll ((b.memo m).insert code v).1 ++ (v.handles ++ hs)) := by
    apply hcopy.withMemo ((h.memo_wf m).insert code v)
    rw [Value.handlesAll_append, List.perm_iff_count] at hperm
    rw [List.perm_iff_count]
    intro x
    have hx := hperm x
    have hm : (b.retain v).memo m = b.memo m := by cases m <;> rfl
    simp only [List.count_append, Value.handlesAll, hm] at hx ⊢
    omega
  have hsame : ((b.retain v).withMemo ((b.memo m).insert code v).2 m) =
      (b.withMemo ((b.memo m).insert code v).2 m).retain v := by cases m <;> rfl
  rw [hsame] at hcache
  exact hcache.dropAll

/-- The value of an expression is held, whether it was remembered or not. -/
theorem Keeps.evalThrough {m : Bridge.Memo} {code : String} (h : c.Keeps b hs) :
    c.Settles Value.handles (b.evalThrough i m code) hs := by
  unfold Bridge.evalThrough
  split
  · next v cache hget =>
    have hfound : ((b.memo m).get code).1 = some v := by rw [hget]
    have hv : v ∈ (b.memo m).values := Recency.mem_values_of_get hfound
    have hvalues := Recency.values_get (b.memo m) code
    have hwf := (h.memo_wf m).get code
    rw [hget] at hvalues hwf
    have htouched : c.Keeps (b.withMemo cache m) hs := h.withMemo hwf (by rw [hvalues])
    apply htouched.retain
    apply Handle.borrowed_of_subset
    rw [← hvalues] at hv
    refine List.Subset.trans (Value.handles_subset_of_mem hv) ?_
    refine List.Subset.trans ?_ (List.subset_append_right _ _)
    have hmemo : (b.withMemo cache m).memo m = cache := by cases m <;> rfl
    have hsub := memo_subset_cached (b.withMemo cache m) m
    rw [hmemo] at hsub
    exact hsub
  · apply h.eval.andThen
    intro v b h
    exact h.remember

/-- A result stays held when a value that was held beside it is dropped. -/
theorem Settles.drop {α : Type} {shown : α → List Handle} {o : Outcome σ α}
    (h : c.Settles shown o (v.handles ++ hs)) : c.Settles shown (o.1, o.2.drop v) hs := by
  refine Keeps.drop (Keeps.perm h ?_)
  rw [← List.append_assoc, ← List.append_assoc]
  exact List.perm_append_comm.append_right hs

/-- A value that cannot be called is held by the failure. -/
theorem Keeps.notCallable {α : Type} {shown : α → List Handle} (h : c.Keeps b hs)
    (hb : Handle.Borrowed hs v.handles) :
    c.Settles shown (.error (.notCallable v), b.retain v) hs := by
  rw [Settles, Failure.shownBy_notCallable]
  exact h.retain (hb.mono (List.subset_append_left _ _))

/-- The result of calling a value is held. -/
theorem Keeps.callValue {callee : Value} {args : List Value} (h : c.Keeps b hs)
    (hb : Handle.Borrowed hs (callee.handles ++ Value.handlesAll args)) :
    c.Settles Value.handles (b.callValue i callee args) hs := by
  cases callee with
  | handle k => exact h.ask hb
  | _ => exact h.notCallable (Handle.borrowed_append.1 hb).1

/-- The result of calling a function by its name is held, and its name's value is not. -/
theorem Keeps.call {name : String} {args : List Value} (h : c.Keeps b hs)
    (hb : Handle.Borrowed hs (Value.handlesAll args)) :
    c.Settles Value.handles (b.call i name args) hs := by
  apply (h.evalThrough (m := .functions)).andThen
  intro callee b h
  apply Settles.drop
  apply h.callValue
  rw [Handle.borrowed_append]
  exact ⟨Handle.borrowed_of_subset (List.subset_append_left _ _),
    hb.mono (List.subset_append_right _ _)⟩

/-- What is read from a value is held instead of it, and nothing if it cannot be read. -/
theorem Keeps.read {t : HostType} (h : c.Keeps b (v.handles ++ hs)) :
    c.Settles (fun x ↦ (t.toValue x).handles) (b.read t v) hs := by
  have hread := t.fromValue_settles v
  unfold Bridge.read
  cases hr : t.fromValue v with
  | ok x =>
    rw [hr] at hread
    have hx : (t.toValue x).handles = v.handles := hread
    simpa only [Settles, Failure.shownBy, hx] using h
  | error m =>
    rw [hr] at hread
    exact (h.perm (List.Perm.append_right hs (List.Perm.symm hread))).dropHandles

end Custody

end GuestBridge
