import GuestBridge.Proofs.Value.Conservation
import GuestBridge.Rehearsal.Interpreter

/-!
# The table of objects

The ids of a rehearsal's table come from one counter. Some were handed out to the host, and
may be forgotten once; all others stay. Every object in the table is also there under an id
that stays, so that forgetting an object never takes away the last copy of anything that it
keeps alive.
-/

namespace GuestBridge.Rehearsal

/-! ### Looking objects up -/

/-- An object comes to the table under the next id. -/
structure Stage.Adds (s s' : Stage) (o : Object) : Prop where
  objects : s'.objects = s.objects ++ [(s.lastId + 1, o)]
  lastId : s'.lastId = s.lastId + 1
  released : s'.released = s.released

/-- An object leaves the table. -/
structure Stage.Removes (s s' : Stage) (id : Nat) : Prop where
  objects : s'.objects = s.objects.filter (·.1 ≠ id)
  lastId : s'.lastId = s.lastId
  exported : s'.exported = s.exported
  released : s'.released = s.released + 1

/-- An object that is added is found under its id. -/
theorem Stage.Adds.object? {s s' : Stage} {o : Object} (h : s.Adds s' o)
    (hnew : s.object? (s.lastId + 1) = none) (k : Nat) :
    s'.object? k = if k = s.lastId + 1 then some o else s.object? k := by
  rw [Stage.object?, h.objects, List.find?_append]
  by_cases hk : k = s.lastId + 1
  · subst hk
    have hnone : s.objects.find? (·.1 = s.lastId + 1) = none := by
      simpa [Stage.object?] using hnew
    simp [hnone]
  · simp [hk, Ne.symm hk, Stage.object?]

/-- An object that has left the table is not found any more. -/
theorem Stage.Removes.object? {s s' : Stage} {id : Nat} (h : s.Removes s' id) (k : Nat) :
    s'.object? k = if k = id then none else s.object? k := by
  rw [Stage.object?, h.objects, List.find?_filter]
  by_cases hk : k = id
  · subst hk
    simp [List.find?_eq_none]
  · rw [if_neg hk, Stage.object?]
    congr 2
    funext e
    by_cases he : e.1 = k <;> simp [he, hk]

/-- Later on an object is what it was, or it has been forgotten. -/
def Stage.Shrinks (s s' : Stage) : Prop :=
  s.lastId ≤ s'.lastId ∧
    ∀ id ≤ s.lastId, s'.object? id = none ∨ s'.object? id = s.object? id

/-- Nothing changes at once. -/
theorem Stage.Shrinks.refl (s : Stage) : s.Shrinks s :=
  ⟨Nat.le_refl _, fun _ _ ↦ .inr rfl⟩

/-- What changes in two steps. -/
theorem Stage.Shrinks.trans {s t u : Stage} (h : s.Shrinks t) (h' : t.Shrinks u) :
    s.Shrinks u := by
  refine ⟨Nat.le_trans h.1 h'.1, fun id hid ↦ ?_⟩
  rcases h'.2 id (Nat.le_trans hid h.1) with hu | hu
  · exact .inl hu
  · rw [hu]
    exact h.2 id hid

/-- No object has an id that was not given out. -/
def Stage.Bounded (s : Stage) : Prop :=
  ∀ id, s.object? id ≠ none → id ≤ s.lastId

/-- From one stage to a later one objects are only added. -/
structure Stage.Grows (s s' : Stage) : Prop where
  lastId : s.lastId ≤ s'.lastId
  bounded : s'.Bounded
  object? : ∀ id ≤ s.lastId, s'.object? id = s.object? id

/-- Nothing is added at once. -/
theorem Stage.Grows.refl {s : Stage} (hb : s.Bounded) : s.Grows s :=
  ⟨Nat.le_refl _, hb, fun _ _ ↦ rfl⟩

/-- What is added in two steps. -/
theorem Stage.Grows.trans {s t u : Stage} (g : s.Grows t) (g' : t.Grows u) : s.Grows u where
  lastId := Nat.le_trans g.lastId g'.lastId
  bounded := g'.bounded
  object? id hid := (g'.object? id (Nat.le_trans hid g.lastId)).trans (g.object? id hid)

/-- Only the objects and the last id matter. -/
theorem Stage.Grows.congr {s t u : Stage} (g : s.Grows t) (ho : u.objects = t.objects)
    (hl : u.lastId = t.lastId) : s.Grows u := by
  have hobject : ∀ id, u.object? id = t.object? id := by simp [Stage.object?, ho]
  refine ⟨by rw [hl]; exact g.lastId, fun id hid ↦ ?_, fun id hid ↦ ?_⟩
  · rw [hl]
    exact g.bounded id (hobject id ▸ hid)
  · rw [hobject, g.object? id hid]

/-- What is only added to changes no object. -/
theorem Stage.Grows.shrinks {s s' : Stage} (g : s.Grows s') : s.Shrinks s' :=
  ⟨g.lastId, fun id hid ↦ .inr (g.object? id hid)⟩

/-- An object that comes to the table under the next id leaves all others. -/
theorem Stage.Adds.grows {s s' : Stage} {o : Object} (a : s.Adds s' o) (hb : s.Bounded) :
    s.Grows s' ∧ s'.object? (s.lastId + 1) = some o := by
  have hnew : s.object? (s.lastId + 1) = none := by
    cases hn : s.object? (s.lastId + 1) with
    | none => rfl
    | some _ =>
      have hle := hb (s.lastId + 1) (by simp [hn])
      omega
  have hobject := a.object? hnew
  have hlast := a.lastId
  refine ⟨⟨by omega, fun id hid ↦ ?_, fun id hid ↦ ?_⟩, ?_⟩
  · rw [hobject] at hid
    by_cases heq : id = s.lastId + 1
    · omega
    · rw [if_neg heq] at hid
      have hle := hb id hid
      omega
  · rw [hobject, if_neg (by omega)]
  · rw [hobject, if_pos rfl]

/-! ### The table -/

/-- The table of a stage, when these ids were handed out. -/
structure Stage.Table (s : Stage) (ids : List Nat) : Prop where
  issued : ∀ id ∈ ids, 0 < id ∧ id ≤ s.lastId
  distinct : Distinct s.objects
  given : ∀ id, s.object? id ≠ none → 0 < id ∧ id ≤ s.lastId
  permanent : ∀ id, 0 < id → id ≤ s.lastId → id ∉ ids → s.object? id ≠ none
  originals : ∀ id o, s.object? id = some o → ∃ k, k ∉ ids ∧ s.object? k = some o
  exported : s.exported = ids.length
  released : s.released = ids.countP fun id ↦ !(s.object? id).isSome

namespace Stage.Table

variable {s s' : Stage} {ids : List Nat} {o : Object}

/-- The table of an empty stage. -/
theorem bare (refusals : List (Option String)) : (Stage.bare refusals).Table [] where
  issued id h := by simp at h
  distinct := by simp [Distinct, Stage.bare]
  given id h := by simp [Stage.object?, Stage.bare] at h
  permanent id h h' := by simp [Stage.bare] at h'; omega
  originals id o h := by simp [Stage.object?, Stage.bare] at h
  exported := rfl
  released := rfl

/-- Only the objects and the counters matter. -/
theorem congr (t : s.Table ids) (ho : s'.objects = s.objects) (hl : s'.lastId = s.lastId)
    (he : s'.exported = s.exported) (hr : s'.released = s.released) : s'.Table ids := by
  have hobject : ∀ id, s'.object? id = s.object? id := by simp [Stage.object?, ho]
  constructor
  · simpa only [hl] using t.issued
  · simpa only [ho] using t.distinct
  · simpa only [hobject, hl] using t.given
  · simpa only [hobject, hl] using t.permanent
  · simpa only [hobject] using t.originals
  · rw [he, t.exported]
  · simp only [hr, hobject, t.released]

/-- The next id is not in use. -/
theorem fresh (t : s.Table ids) : s.object? (s.lastId + 1) = none := by
  cases h : s.object? (s.lastId + 1) with
  | none => rfl
  | some o =>
    have hgiven := t.given (s.lastId + 1) (by simp [h])
    omega

/-- The next id was not handed out. -/
theorem fresh_notMem (t : s.Table ids) : s.lastId + 1 ∉ ids := by
  intro hm
  have hissued := t.issued _ hm
  omega

/-- The next id does not count as released. -/
private theorem countP_adds (t : s.Table ids) (h : s.Adds s' o) :
    s'.released = ids.countP fun id ↦ !(s'.object? id).isSome := by
  rw [h.released, t.released]
  apply List.countP_congr
  intro id hid
  have hne : id ≠ s.lastId + 1 := by
    rintro rfl
    exact t.fresh_notMem hid
  rw [h.object? t.fresh, if_neg hne]

/-- The ids of the objects stay distinct under the next id. -/
private theorem distinct_adds (t : s.Table ids) (h : s.Adds s' o) : Distinct s'.objects := by
  have hnone : ∀ e ∈ s.objects, e.1 ≠ s.lastId + 1 := by
    simpa [Stage.object?, List.find?_eq_none] using t.fresh
  rw [h.objects]
  unfold Distinct
  rw [List.map_append, List.nodup_append]
  refine ⟨t.distinct, by simp, ?_⟩
  intro id hid k hk
  obtain ⟨e, he, rfl⟩ := List.mem_map.1 hid
  obtain rfl : k = s.lastId + 1 := by simpa using hk
  exact hnone e he

/-- Every object has an id that was given out. -/
private theorem given_adds (t : s.Table ids) (h : s.Adds s' o) (id : Nat)
    (hid : s'.object? id ≠ none) : 0 < id ∧ id ≤ s'.lastId := by
  rw [h.object? t.fresh] at hid
  rw [h.lastId]
  by_cases hk : id = s.lastId + 1
  · omega
  · rw [if_neg hk] at hid
    have hgiven := t.given id hid
    omega

/-- An object that is found keeps its id. -/
private theorem object?_adds (t : s.Table ids) (h : s.Adds s' o) {k : Nat} {o' : Object}
    (hk : s.object? k = some o') : k ≠ s.lastId + 1 ∧ s'.object? k = some o' := by
  have hne : k ≠ s.lastId + 1 := by
    rintro rfl
    rw [t.fresh] at hk
    cases hk
  exact ⟨hne, by rw [h.object? t.fresh, if_neg hne, hk]⟩

/-- An object is stored for good. -/
theorem store (t : s.Table ids) (h : s.Adds s' o) (he : s'.exported = s.exported) :
    s'.Table ids where
  issued id hid := by
    have hissued := t.issued id hid
    rw [h.lastId]
    omega
  distinct := t.distinct_adds h
  given := t.given_adds h
  permanent id hpos hle hout := by
    rw [h.object? t.fresh]
    split
    · simp
    · next hk =>
      rw [h.lastId] at hle
      exact t.permanent id hpos (by omega) hout
  originals id o' ho' := by
    rw [h.object? t.fresh] at ho'
    split at ho'
    · refine ⟨s.lastId + 1, t.fresh_notMem, ?_⟩
      rw [h.object? t.fresh, if_pos rfl, ho']
    · obtain ⟨k, hk, hko⟩ := t.originals id o' ho'
      exact ⟨k, hk, (t.object?_adds h hko).2⟩
  exported := he.trans t.exported
  released := t.countP_adds h

/-- A copy of an object is handed out under the next id. -/
theorem handOut (t : s.Table ids) {id : Nat} (ho : s.object? id = some o) (h : s.Adds s' o)
    (he : s'.exported = s.exported + 1) : s'.Table (ids ++ [s.lastId + 1]) where
  issued k hk := by
    rw [h.lastId]
    rcases List.mem_append.1 hk with hk | hk
    · have hissued := t.issued k hk
      omega
    · rw [List.mem_singleton.1 hk]
      omega
  distinct := t.distinct_adds h
  given := t.given_adds h
  permanent k hpos hle hout := by
    rw [List.mem_append, List.mem_singleton, not_or] at hout
    rw [h.lastId] at hle
    rw [h.object? t.fresh, if_neg hout.2]
    have hlast := hout.2
    exact t.permanent k hpos (by omega) hout.1
  originals k o' hk := by
    have hold : ∀ k', s.object? k' = some o' →
        ∃ m, m ∉ ids ++ [s.lastId + 1] ∧ s'.object? m = some o' := by
      intro k' hk'
      obtain ⟨m, hm, hmo⟩ := t.originals k' o' hk'
      obtain ⟨hne, hfound⟩ := t.object?_adds h hmo
      exact ⟨m, by simp [hm, hne], hfound⟩
    rw [h.object? t.fresh] at hk
    split at hk
    · cases hk
      exact hold id ho
    · exact hold k hk
  exported := by simp [he, t.exported]
  released := by
    rw [List.countP_append, ← t.countP_adds h]
    simp [h.object? t.fresh]

/-- Taking away one of several ids leaves one id fewer present. -/
private theorem countP_settle (present : Nat → Bool) {id : Nat} (hnodup : ids.Nodup)
    (hm : id ∈ ids) (hp : present id) :
    (ids.countP fun k ↦ !(present k && k ≠ id)) = (ids.countP fun k ↦ !present k) + 1 := by
  induction ids with
  | nil => simp at hm
  | cons k ids ih =>
    obtain ⟨hk, hnodup⟩ := List.nodup_cons.1 hnodup
    simp only [List.countP_cons]
    by_cases heq : k = id
    · subst heq
      have hrest : (ids.countP fun m ↦ !(present m && m ≠ k)) =
          ids.countP fun m ↦ !present m := by
        apply List.countP_congr
        intro m hm
        have hne : m ≠ k := fun heq ↦ hk (heq ▸ hm)
        simp [hne]
      rw [hrest]
      simp [hp]
    · have hm : id ∈ ids := by simpa [Ne.symm heq] using hm
      rw [ih hnodup hm]
      simp only [heq, ne_eq, not_false_eq_true, decide_true, Bool.and_true]
      omega

/-- An object that was handed out is forgotten. -/
theorem forget (t : s.Table ids) {id : Nat} (hnodup : ids.Nodup) (hm : id ∈ ids)
    (ho : s.object? id ≠ none) (h : s.Removes s' id) : s'.Table ids where
  issued := by rw [h.lastId]; exact t.issued
  distinct := by rw [h.objects]; exact t.distinct.others id
  given k hk := by
    rw [h.object?] at hk
    rw [h.lastId]
    split at hk
    · exact absurd rfl hk
    · exact t.given k hk
  permanent k hpos hle hout := by
    have hne : k ≠ id := fun heq ↦ hout (heq ▸ hm)
    rw [h.lastId] at hle
    rw [h.object?, if_neg hne]
    exact t.permanent k hpos hle hout
  originals k o hk := by
    rw [h.object?] at hk
    split at hk
    · cases hk
    · obtain ⟨m, hout, hmo⟩ := t.originals k o hk
      have hne : m ≠ id := fun heq ↦ hout (heq ▸ hm)
      exact ⟨m, hout, by rw [h.object?, if_neg hne, hmo]⟩
  exported := h.exported.trans t.exported
  released := by
    have hpresent : (s.object? id).isSome := Option.isSome_iff_ne_none.2 ho
    rw [h.released, t.released,
      ← countP_settle (fun k ↦ (s.object? k).isSome) hnodup hm hpresent]
    apply List.countP_congr
    intro k _
    by_cases hk : k = id <;> simp [hk, h.object?]

/-- Forgetting an object changes no other one. -/
theorem shrinks_removes {id : Nat} (h : s.Removes s' id) : s.Shrinks s' := by
  refine ⟨Nat.le_of_eq h.lastId.symm, fun k _ ↦ ?_⟩
  rw [h.object?]
  split
  · exact .inl rfl
  · exact .inr rfl

end Stage.Table

end GuestBridge.Rehearsal
