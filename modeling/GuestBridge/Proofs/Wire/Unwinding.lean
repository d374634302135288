import GuestBridge.Proofs.Value.Accounts
import GuestBridge.Wire.Reply

/-!
# What decoding owns and lets go

Decoding a reply owns a handle for every handle object that it meets. If it succeeds, all of
them are in the value, and dropping the value releases them in document order. If it fails, the
values decoded so far are dropped at every level that encloses the failing element, the
innermost level first.
-/

namespace GuestBridge

/-! ### Handles that are the only copies of their owners -/

namespace Ledger

/-- Every one of some handles is the only copy of an owner of its own. -/
structure Sole (l : Ledger) (hs : List Handle) : Prop where
  owned : ∀ h ∈ hs, ∃ n, h.owner = some n ∧ l.owners[n]? = some ⟨h.id, 1⟩
  distinct : (hs.map (·.owner)).Nodup

/-- The first owners are the same. -/
def Extends (l l' : Ledger) : Prop :=
  ∀ (n : Nat) (o : Owner), l.owners[n]? = some o → l'.owners[n]? = some o

/-- What is extended twice. -/
theorem Extends.trans {l l' l'' : Ledger} (h : l.Extends l') (h' : l'.Extends l'') :
    l.Extends l'' :=
  fun n o ho ↦ h' n o (h n o ho)

/-- A new owner extends a ledger. -/
theorem extends_own (l : Ledger) (id : Nat) (typeName : String) :
    l.Extends (l.own id typeName).2 := by
  intro n o ho
  simp only [own]
  rw [List.getElem?_append_left (List.getElem?_eq_some_iff.1 ho).1, ho]

/-- Handles that are the only copies of their owners stay so when owners come. -/
theorem Sole.mono {l l' : Ledger} {hs : List Handle} (h : l.Sole hs) (he : l.Extends l') :
    l'.Sole hs where
  owned k hk := by
    obtain ⟨n, hn, ho⟩ := h.owned k hk
    exact ⟨n, hn, he n _ ho⟩
  distinct := h.distinct

/-- Dropping the only copy of an owner. -/
private theorem dropHandle_sole {l : Ledger} {h : Handle} {n : Nat} (hn : h.owner = some n)
    (ho : l.owners[n]? = some ⟨h.id, 1⟩) :
    l.dropHandle h = ⟨l.owners.set n ⟨h.id, 0⟩, l.pending ++ [h.id]⟩ := by
  simp [dropHandle, hn, ho]

/-- Dropping the only copies of owners releases their ids in order, and leaves all other
owners as they are. -/
theorem Sole.dropHandles {l : Ledger} {hs : List Handle} (h : l.Sole hs) :
    (l.dropHandles hs).pending = l.pending ++ hs.map (·.id) ∧
      ∀ n, (∀ k ∈ hs, k.owner ≠ some n) →
        (l.dropHandles hs).owners[n]? = l.owners[n]? := by
  induction hs generalizing l with
  | nil => exact ⟨by simp [Ledger.dropHandles], fun _ _ ↦ rfl⟩
  | cons k hs ih =>
    obtain ⟨n, hn, ho⟩ := h.owned k (List.mem_cons_self ..)
    have hfirst := dropHandle_sole hn ho
    obtain ⟨hout, hdistinct⟩ := List.nodup_cons.1 h.distinct
    have hrest : (l.dropHandle k).Sole hs := by
      refine ⟨fun k' hk' ↦ ?_, hdistinct⟩
      obtain ⟨m, hm, ho'⟩ := h.owned k' (List.mem_cons_of_mem k hk')
      have hne : n ≠ m := by
        rintro rfl
        exact hout (List.mem_map.2 ⟨k', hk', hm.trans hn.symm⟩)
      exact ⟨m, hm, by rw [hfirst, List.getElem?_set_ne hne, ho']⟩
    obtain ⟨hpending, howners⟩ := ih hrest
    rw [show l.dropHandles (k :: hs) = (l.dropHandle k).dropHandles hs from rfl]
    refine ⟨by rw [hpending, hfirst]; simp, fun m hm ↦ ?_⟩
    rw [howners m fun k' hk' ↦ hm k' (List.mem_cons_of_mem k hk'), hfirst]
    have hne : n ≠ m := by
      rintro rfl
      exact hm k (List.mem_cons_self ..) hn
    exact List.getElem?_set_ne hne

/-- Owners have come, one for each of some handles, and nothing waits that did not. -/
structure Grows (l l' : Ledger) (hs : List Handle) : Prop where
  extended : l.Extends l'
  sole : l'.Sole hs
  new : ∀ h ∈ hs, ∀ n, h.owner = some n → l.owners.length ≤ n
  pending : l'.pending = l.pending

/-- No owner comes. -/
theorem Grows.refl (l : Ledger) : l.Grows l [] where
  extended _ _ h := h
  sole := ⟨by simp, by simp⟩
  new := by simp
  pending := rfl

/-- An owner comes. -/
theorem grows_own (l : Ledger) (id : Nat) (typeName : String) :
    l.Grows (l.own id typeName).2 [(l.own id typeName).1] where
  extended := extends_own l id typeName
  sole := ⟨by simp [own], by simp⟩
  new := by simp [own]
  pending := rfl

/-- A ledger that is extended has at least as many owners. -/
private theorem Extends.length_le {l l' : Ledger} (h : l.Extends l') :
    l.owners.length ≤ l'.owners.length := by
  by_cases hz : l.owners.length = 0
  · omega
  · have hlast := h (l.owners.length - 1) _ (List.getElem?_eq_getElem (by omega))
    have hlt := (List.getElem?_eq_some_iff.1 hlast).1
    omega

/-- Owners come for some handles and then for others. -/
theorem Grows.trans {l l' l'' : Ledger} {hs ks : List Handle} (h : l.Grows l' hs)
    (h' : l'.Grows l'' ks) : l.Grows l'' (hs ++ ks) where
  extended := h.extended.trans h'.extended
  sole := by
    refine ⟨fun k hk ↦ ?_, ?_⟩
    · rcases List.mem_append.1 hk with hk | hk
      · exact (h.sole.mono h'.extended).owned k hk
      · exact h'.sole.owned k hk
    · rw [List.map_append, List.nodup_append]
      refine ⟨h.sole.distinct, h'.sole.distinct, ?_⟩
      rintro a ha b hb rfl
      obtain ⟨k, hk, hka⟩ := List.mem_map.1 ha
      obtain ⟨k', hk', hka'⟩ := List.mem_map.1 hb
      obtain ⟨n, hn, ho⟩ := h.sole.owned k hk
      have hold := (List.getElem?_eq_some_iff.1 ho).1
      have hnew := h'.new k' hk' n (by rw [hka', ← hka, hn])
      omega
  new k hk n hn := by
    rcases List.mem_append.1 hk with hk | hk
    · exact h.new k hk n hn
    · exact Nat.le_trans h.extended.length_le (h'.new k hk n hn)
  pending := h'.pending.trans h.pending

end Ledger

namespace Wire

/-! ### What a tree of JSON shows -/

/-- What decoding sees of a JSON value before it looks at other ones. -/
inductive Shape where
  /-- A value without handles. -/
  | plain
  /-- A handle object with its id. -/
  | handle (id : Nat)
  /-- An array or a tuple with its items. -/
  | group (items : List Json)
  /-- A value that cannot be decoded. -/
  | fault (e : ProtocolFault)

/-- What an object that is no tuple shows. -/
def objectShape (members : List (String × Json)) : Shape :=
  match Json.member? "float" members with
  | some (.str name) =>
    if name = "NaN" ∨ name = "Inf" ∨ name = "-Inf" then .plain else .fault (.unknownFloat name)
  | _ =>
    match Json.member? "handle" members, Json.member? "type" members with
    | some (.number (.natural id)), some (.str _) => .handle id.toNat
    | _, _ => .fault (.unrecognized (.object members))

/-- What a JSON value shows. -/
def shape : Json → Shape
  | .null | .bool _ | .number _ | .str _ => .plain
  | .array items => .group items
  | .object members =>
    match Json.member? "tuple" members with
    | some (.array items) => .group items
    | _ => objectShape (withoutTuple members)

mutual

/-- A tree can be decoded, and its handle objects have these ids, in document order. -/
inductive Decodes : Json → List Nat → Prop
  | plain {j : Json} : shape j = .plain → Decodes j []
  | handle {j : Json} {id : Nat} : shape j = .handle id → Decodes j [id]
  | group {j : Json} {items : List Json} {ids : List Nat} :
    shape j = .group items → DecodesAll items ids → Decodes j ids

/-- Trees can be decoded, and their handle objects have these ids, in document order. -/
inductive DecodesAll : List Json → List Nat → Prop
  | nil : DecodesAll [] []
  | cons {j : Json} {js : List Json} {ids ids' : List Nat} :
    Decodes j ids → DecodesAll js ids' → DecodesAll (j :: js) (ids ++ ids')

end

/-- A tree cannot be decoded: the first element that is faulty is inside of some arrays and
tuples, and at each of these levels some elements stand in front. Their handle objects have
these ids, the innermost level first and each level in document order. -/
inductive Fails : Json → List (List Nat) → ProtocolFault → Prop
  | here {j : Json} {e : ProtocolFault} : shape j = .fault e → Fails j [] e
  | inside {j bad : Json} {front back : List Json} {ids : List Nat} {levels : List (List Nat)}
    {e : ProtocolFault} :
    shape j = .group (front ++ bad :: back) → DecodesAll front ids → Fails bad levels e →
      Fails j (levels ++ [ids]) e

/-- Looking for the components of a tuple. -/
theorem decodeTuple?_eq (members : List (String × Json)) (l : Ledger) :
    decodeTuple? members l =
      match Json.member? "tuple" members with
      | some (.array items) => some (decodeItems [] items l)
      | _ => none := by
  induction members with
  | nil =>
    rw [decodeTuple?]
    rfl
  | cons m members ih =>
    obtain ⟨key, j⟩ := m
    rw [decodeTuple?.eq_def]
    by_cases hk : key = "tuple"
    · subst hk
      simp only [if_true, Json.member?, List.find?_cons, decide_true, Option.map_some]
      cases j <;> rfl
    · have hfind : Json.member? "tuple" ((key, j) :: members) =
          Json.member? "tuple" members := by simp [Json.member?, hk]
      rw [hfind, ← ih]
      exact if_neg hk

/-- What decoding comes to, by what is shown. -/
private def Agrees (l : Ledger) : Shape → Except ProtocolFault Value × Ledger → Prop
  | .plain, o => ∃ v, o = (.ok v, l) ∧ v.handles = []
  | .handle id, o => ∃ typeName,
    o = (.ok (.handle (l.own id typeName).1), (l.own id typeName).2)
  | .group items, o =>
    (∀ vs l', decodeItems [] items l = (.ok vs, l') →
      ∃ v, o = (.ok v, l') ∧ v.handles = Value.handlesAll vs) ∧
    ∀ e l', decodeItems [] items l = (.error e, l') → o = (.error e, l')
  | .fault e, o => o = (.error e, l)

/-- Decoding an object that is neither a tuple nor a special floating-point number. -/
private theorem handleObject_agrees (handle type : Option Json) (e : ProtocolFault)
    (l : Ledger) :
    Agrees l
      (match handle, type with
      | some (.number (.natural id)), some (.str _) => .handle id.toNat
      | _, _ => .fault e)
      (match handle, type with
      | some (.number (.natural id)), some (.str typeName) =>
        (.ok (.handle (l.own id.toNat typeName).1), (l.own id.toNat typeName).2)
      | _, _ => (.error e, l)) := by
  rcases handle with _ | (_ | _ | (id | _ | _) | _ | _ | _) <;> try rfl
  rcases type with _ | (_ | _ | _ | typeName | _ | _) <;> try rfl
  exact ⟨typeName, rfl⟩

/-- Decoding an object that is no tuple. -/
private theorem decodeObject_agrees (members : List (String × Json)) (l : Ledger) :
    Agrees l (objectShape members) (decodeObject members l) := by
  unfold objectShape decodeObject
  have hhandle := handleObject_agrees (Json.member? "handle" members)
    (Json.member? "type" members) (.unrecognized (.object members)) l
  generalize Json.member? "float" members = float
  rcases float with _ | (_ | _ | _ | name | _ | _)
  case some.str =>
    simp only [specialFloat?]
    by_cases hspecial : name = "NaN" ∨ name = "Inf" ∨ name = "-Inf"
    · rw [if_pos hspecial]
      rcases hspecial with rfl | rfl | rfl
      · exact ⟨.float Binary64.nan, rfl, rfl⟩
      · exact ⟨.float (Binary64.infinity false), rfl, rfl⟩
      · exact ⟨.float (Binary64.infinity true), rfl, rfl⟩
    · have hnone := hspecial
      rw [not_or, not_or] at hnone
      rw [if_neg hspecial]
      simp only [hnone, if_false]
      rfl
  all_goals exact hhandle

/-- Decoding a value. -/
private theorem decode_agrees (j : Json) (l : Ledger) : Agrees l (shape j) (decode j l) := by
  cases j with
  | null => exact ⟨.nothing, by rw [decode], rfl⟩
  | bool b => exact ⟨.bool b, by rw [decode], rfl⟩
  | number n =>
    refine ⟨decodeNumber n, by rw [decode], ?_⟩
    unfold decodeNumber
    cases n with
    | natural n =>
      simp only
      split <;> rfl
    | negative n => rfl
    | float x => rfl
  | str s => exact ⟨.str s, by rw [decode], rfl⟩
  | array items =>
    refine ⟨fun vs l' h ↦ ⟨.array vs, by rw [decode, h], rfl⟩, fun e l' h ↦ ?_⟩
    rw [decode, h]
  | object members =>
    rw [decode, decodeTuple?_eq, shape]
    split
    · next items hitems =>
      refine ⟨fun vs l' h ↦ ⟨.tuple vs, by simp only [h], rfl⟩, fun e l' h ↦ ?_⟩
      simp only [h]
    · exact decodeObject_agrees (withoutTuple members) l

/-- Decoding items in front of others. -/
private theorem decodeItems_append {done vs : List Value} {front back : List Json}
    {l l' : Ledger} (h : decodeItems done front l = (.ok vs, l')) :
    decodeItems done (front ++ back) l = decodeItems vs back l' := by
  induction front generalizing done l with
  | nil =>
    rw [decodeItems] at h
    cases h
    rfl
  | cons j front ih =>
    rw [decodeItems] at h
    rw [List.cons_append, decodeItems]
    cases hj : decode j l with
    | mk result l₁ =>
      rw [hj] at h
      cases result with
      | ok v => exact ih h
      | error e => cases h

mutual

/-- A tree that can be decoded is decoded, and owns a handle for each of its ids. -/
theorem decode_of_decodes : ∀ {j : Json} {ids : List Nat}, Decodes j ids →
    ∀ l, ∃ v l', decode j l = (.ok v, l') ∧ l.Grows l' v.handles ∧ v.handles.map (·.id) = ids
  | j, _, .plain hs, l => by
    have hagrees := decode_agrees j l
    rw [hs] at hagrees
    obtain ⟨v, hv, hnone⟩ := hagrees
    exact ⟨v, l, hv, hnone ▸ .refl l, by rw [hnone]; rfl⟩
  | j, _, .handle hs, l => by
    have hagrees := decode_agrees j l
    rw [hs] at hagrees
    obtain ⟨typeName, hv⟩ := hagrees
    exact ⟨_, _, hv, Ledger.grows_own l _ typeName, rfl⟩
  | j, _, .group hs hitems, l => by
    have hagrees := decode_agrees j l
    rw [hs] at hagrees
    obtain ⟨vs, l', hvs, hgrows, hids⟩ := decodeItems_of_decodesAll hitems [] l
    obtain ⟨v, hv, hhandles⟩ := hagrees.1 vs l' hvs
    exact ⟨v, l', hv, hhandles ▸ hgrows, hhandles ▸ hids⟩

/-- Trees that can be decoded are decoded, and own handles for their ids. -/
private theorem decodeItems_of_decodesAll : ∀ {js : List Json} {ids : List Nat},
    DecodesAll js ids → ∀ (done : List Value) (l : Ledger),
      ∃ vs l', decodeItems done js l = (.ok (done ++ vs), l') ∧
        l.Grows l' (Value.handlesAll vs) ∧ (Value.handlesAll vs).map (·.id) = ids
  | _, _, .nil, done, l => ⟨[], l, by rw [decodeItems, List.append_nil], .refl l, rfl⟩
  | _, _, .cons hj hjs, done, l => by
    obtain ⟨v, l₁, hv, hgrows, hids⟩ := decode_of_decodes hj l
    obtain ⟨vs, l₂, hvs, hgrows', hids'⟩ := decodeItems_of_decodesAll hjs (done ++ [v]) l₁
    refine ⟨v :: vs, l₂, ?_, hgrows.trans hgrows', ?_⟩
    · rw [decodeItems, hv]
      simpa using hvs
    · rw [Value.handlesAll, List.map_append, hids, hids']

end

/-- A tree that cannot be decoded is not decoded. What was decoded in front of the failing
element is dropped, and all owners that were there before are as they were. -/
theorem decode_of_fails {j : Json} {levels : List (List Nat)} {e : ProtocolFault}
    (h : Fails j levels e) (l : Ledger) :
    ∃ l', decode j l = (.error e, l') ∧ l.Extends l' ∧
      l'.pending = l.pending ++ levels.flatten := by
  induction h generalizing l with
  | @here j e hs =>
    have hagrees := decode_agrees j l
    rw [hs] at hagrees
    exact ⟨l, hagrees, fun _ _ h ↦ h, by simp⟩
  | @inside j bad front back ids levels e hs hfront _ ih =>
    have hagrees := decode_agrees j l
    rw [hs] at hagrees
    obtain ⟨vs, l₁, hvs, hgrows, hids⟩ := decodeItems_of_decodesAll hfront [] l
    obtain ⟨l₂, hbad, hextends, hpending⟩ := ih l₁
    have hitems : decodeItems [] (front ++ bad :: back) l = (.error e, l₂.dropAll vs) := by
      rw [decodeItems_append hvs, List.nil_append, decodeItems, hbad]
    obtain ⟨hdropped, howners⟩ := (hgrows.sole.mono hextends).dropHandles
    refine ⟨l₂.dropAll vs, hagrees.2 e _ hitems, fun n o ho ↦ ?_, ?_⟩
    · have hold := (List.getElem?_eq_some_iff.1 ho).1
      rw [Ledger.dropAll, howners n fun k hk hn ↦ ?_]
      · exact hextends n o (hgrows.extended n o ho)
      · have hnew := hgrows.new k hk n hn
        omega
    · rw [Ledger.dropAll, hdropped, hids, hpending, hgrows.pending]
      simp

/-- Either all of some trees can be decoded, or one of them is the first that fails. -/
private def Settled (items : List Json) : Prop :=
  (∃ ids, DecodesAll items ids) ∨ ∃ front bad back ids levels e,
    items = front ++ bad :: back ∧ DecodesAll front ids ∧ Fails bad levels e

/-- A group can be decoded or fails if this is so for its items. -/
private theorem settled_group {j : Json} {items : List Json} (hs : shape j = .group items)
    (h : Settled items) : (∃ ids, Decodes j ids) ∨ ∃ levels e, Fails j levels e := by
  rcases h with ⟨ids, hids⟩ | ⟨front, bad, back, ids, levels, e, rfl, hfront, hbad⟩
  · exact .inl ⟨ids, .group hs hids⟩
  · exact .inr ⟨_, e, .inside hs hfront hbad⟩

/-- An object that is no tuple shows no group. -/
theorem objectShape_ne_group (members : List (String × Json)) (items : List Json) :
    objectShape members ≠ .group items := by
  intro h
  unfold objectShape at h
  split at h
  · split at h <;> cases h
  · split at h <;> cases h

/-- The items of an object that shows a group are those of its tuple member. -/
private theorem member?_of_shape {members : List (String × Json)} {items : List Json}
    (h : shape (.object members) = .group items) :
    Json.member? "tuple" members = some (.array items) := by
  simp only [shape] at h
  split at h
  · next items' hitems =>
    cases h
    exact hitems
  · exact absurd h (objectShape_ne_group _ items)

mutual

/-- Every tree can be decoded or fails somewhere. -/
theorem decodes_or_fails : ∀ j : Json,
    (∃ ids, Decodes j ids) ∨ ∃ levels e, Fails j levels e
  | .null => .inl ⟨[], .plain rfl⟩
  | .bool _ => .inl ⟨[], .plain rfl⟩
  | .number _ => .inl ⟨[], .plain rfl⟩
  | .str _ => .inl ⟨[], .plain rfl⟩
  | .array items => settled_group rfl (settled_items items)
  | .object members => by
    cases hs : shape (.object members) with
    | plain => exact .inl ⟨[], .plain hs⟩
    | handle id => exact .inl ⟨[id], .handle hs⟩
    | fault e => exact .inr ⟨[], e, .here hs⟩
    | group items =>
      exact settled_group hs (settled_members members items (member?_of_shape hs))

/-- Every list of trees is settled. -/
private theorem settled_items : ∀ items : List Json, Settled items
  | [] => .inl ⟨[], .nil⟩
  | j :: js => by
    rcases decodes_or_fails j with ⟨ids, hj⟩ | ⟨levels, e, hj⟩
    · rcases settled_items js with ⟨ids', hjs⟩ | ⟨front, bad, back, ids', levels, e, rfl, hf, hb⟩
      · exact .inl ⟨ids ++ ids', .cons hj hjs⟩
      · exact .inr ⟨j :: front, bad, back, ids ++ ids', levels, e, rfl, .cons hj hf, hb⟩
    · exact .inr ⟨[], j, js, [], levels, e, rfl, .nil, hj⟩

/-- The components of a tuple are settled. -/
private theorem settled_members : ∀ (members : List (String × Json)) (items : List Json),
    Json.member? "tuple" members = some (.array items) → Settled items
  | [], _, h => by cases h
  | (key, j) :: members, items, h => by
    by_cases hk : key = "tuple"
    · cases j with
      | array items' =>
        obtain rfl : items' = items := by simpa [Json.member?, hk] using h
        exact settled_items items'
      | _ => simp [Json.member?, hk] at h
    · exact settled_members members items (by simpa [Json.member?, hk] using h)

end

/-- Decoding a reply leaves no handle behind. If it succeeds nothing is released, and dropping
the value releases its handles in document order; if it fails, the handles decoded in front
of the failing element are released level by level, the innermost first. -/
theorem decodeReply_releases (line : String) (l : Ledger) :
    match ReplyText.parse? line with
    | none => decodeReply line l = (.error (.protocol .malformed), l)
    | some (.err kind message) => decodeReply line l = (.error (.raised kind message), l)
    | some (.ok j) =>
      (∀ ids, Decodes j ids → ∃ v l', decodeReply line l = (.ok v, l') ∧
        l'.pending = l.pending ∧ (l'.drop v).pending = l.pending ++ ids) ∧
      (∀ levels e, Fails j levels e → ∃ l', decodeReply line l = (.error (.protocol e), l') ∧
        l'.pending = l.pending ++ levels.flatten) ∧
      ((∃ ids, Decodes j ids) ∨ ∃ levels e, Fails j levels e) := by
  unfold decodeReply
  cases ReplyText.parse? line with
  | none => rfl
  | some reply =>
    cases reply with
    | err kind message => rfl
    | ok j =>
      refine ⟨fun ids h ↦ ?_, fun levels e h ↦ ?_, decodes_or_fails j⟩
      · obtain ⟨v, l', hv, hgrows, hids⟩ := decode_of_decodes h l
        refine ⟨v, l', by simp only [hv], hgrows.pending, ?_⟩
        rw [Ledger.drop, hgrows.sole.dropHandles.1, hgrows.pending, hids]
      · obtain ⟨l', he, -, hpending⟩ := decode_of_fails h l
        exact ⟨l', by simp only [he], hpending⟩

end Wire

end GuestBridge
