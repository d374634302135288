import GuestBridge.Proofs.Wire.Unwinding
import Mathlib

/-!
# What the report of a rejected object shows

Decoding looks at a value and then at the items of an array or the components of a tuple, in
document order. It stops at the first object that stands for nothing, or whose floating-point
number has an unknown name. An object that stands for nothing is reported with its members, but
one called `tuple` is lost: it was taken out to see whether the object is a tuple.
-/

namespace GuestBridge.Wire

variable {j x : Json} {items : List Json} {e : ProtocolFault} {members : List (String × Json)}

/-! ### What decoding looks at -/

/-- The items of an array, and the components of a tuple. -/
def parts : Json → List Json
  | .array items => items
  | .object members =>
    match Json.member? "tuple" members with
    | some (.array items) => items
    | _ => []
  | _ => []

/-- A part is smaller than the whole. -/
theorem sizeOf_lt_of_mem_parts (h : x ∈ parts j) : sizeOf x < sizeOf j := by
  unfold parts at h
  split at h
  · next items =>
    have hlt := List.sizeOf_lt_of_mem h
    rw [Json.array.sizeOf_spec]
    omega
  · next members =>
    split at h
    · next items hitems =>
      obtain ⟨m, hm, hvalue⟩ := Option.map_eq_some_iff.1 hitems
      have hmember := List.sizeOf_lt_of_mem (List.mem_of_find?_eq_some hm)
      have hlt := List.sizeOf_lt_of_mem h
      obtain ⟨key, value⟩ := m
      obtain rfl : value = .array items := hvalue
      rw [Prod.mk.sizeOf_spec, Json.array.sizeOf_spec] at hmember
      rw [Json.object.sizeOf_spec]
      omega
    · cases h
  · cases h

/-- A JSON value and all that decoding looks at inside of it, in document order. -/
def elements (j : Json) : List Json :=
  j :: (parts j).attach.flatMap fun x ↦ elements x.1
termination_by sizeOf j
decreasing_by exact sizeOf_lt_of_mem_parts x.2

/-- Decoding looks at a value first and then at its parts. -/
theorem elements_eq (j : Json) : elements j = j :: (parts j).flatMap elements := by
  rw [elements]
  simp

/-! ### Objects that are rejected -/

/-- An object is a tuple. -/
def IsTuple (members : List (String × Json)) : Prop :=
  ∃ items, Json.member? "tuple" members = some (.array items)

/-- An object is a floating-point number with a name, known or not. -/
def IsFloat (members : List (String × Json)) : Prop :=
  ∃ name, Json.member? "float" members = some (.str name)

/-- An object is a handle. -/
def IsHandle (members : List (String × Json)) : Prop :=
  ∃ id typeName, Json.member? "handle" members = some (.number (.natural id)) ∧
    Json.member? "type" members = some (.str typeName)

/-- An object stands for nothing. -/
def Unrecognized (members : List (String × Json)) : Prop :=
  ¬ IsTuple members ∧ ¬ IsFloat members ∧ ¬ IsHandle members

/-- A value is rejected when decoding looks at it, with this fault. -/
inductive Rejected : Json → ProtocolFault → Prop
  | unrecognized {members : List (String × Json)} : Unrecognized members →
    Rejected (.object members) (.unrecognized (.object (withoutTuple members)))
  | unknownFloat {members : List (String × Json)} {name : String} : ¬ IsTuple members →
    Json.member? "float" members = some (.str name) → specialFloat? name = none →
    Rejected (.object members) (.unknownFloat name)

/-- A value is not rejected when decoding looks at it; something inside of it may be. -/
def Accepted (j : Json) : Prop :=
  ∀ e, ¬ Rejected j e

/-- Taking out a tuple leaves the other members. -/
theorem member?_withoutTuple {key : String} (h : key ≠ "tuple")
    (members : List (String × Json)) :
    Json.member? key (withoutTuple members) = Json.member? key members := by
  have hkey (k : String) : (k ≠ "tuple" ∧ k = key) ↔ k = key :=
    ⟨And.right, fun hk ↦ ⟨hk ▸ h, hk⟩⟩
  simp only [Json.member?, withoutTuple, List.find?_filter, decide_eq_true_eq, hkey]

/-- The names that no special floating-point number has. -/
theorem specialFloat?_eq_none_iff (name : String) :
    specialFloat? name = none ↔ ¬ (name = "NaN" ∨ name = "Inf" ∨ name = "-Inf") := by
  unfold specialFloat?
  by_cases hnan : name = "NaN"
  · simp [hnan]
  · by_cases hinf : name = "Inf"
    · simp [hinf]
    · by_cases hneg : name = "-Inf" <;> simp [hnan, hinf, hneg]

/-- A tuple shows its components. -/
theorem shape_tuple (h : Json.member? "tuple" members = some (.array items)) :
    shape (.object members) = .group items := by
  rw [shape, h]

/-- What an object that is no tuple shows. -/
theorem shape_object (h : ¬ IsTuple members) :
    shape (.object members) = objectShape (withoutTuple members) := by
  rw [shape]
  split
  · next items hitems => exact absurd ⟨items, hitems⟩ h
  · rfl

/-- An object that is no tuple is faulty if it is rejected. -/
private theorem objectShape_fault_iff (h : ¬ IsTuple members) :
    objectShape (withoutTuple members) = .fault e ↔ Rejected (.object members) e := by
  unfold objectShape
  rw [member?_withoutTuple (by decide), member?_withoutTuple (by decide),
    member?_withoutTuple (by decide)]
  constructor
  · intro he
    split at he
    · next name hname =>
      split at he
      · cases he
      · next hspecial =>
        cases he
        exact .unknownFloat h hname ((specialFloat?_eq_none_iff name).2 hspecial)
    · next hfloat =>
      split at he
      · cases he
      · next hhandle =>
        cases he
        refine .unrecognized ⟨h, fun ⟨name, hname⟩ ↦ hfloat name hname, ?_⟩
        rintro ⟨id, typeName, hid, htype⟩
        exact hhandle id typeName hid htype
  · intro hrejected
    cases hrejected with
    | unrecognized hnothing =>
      obtain ⟨-, hfloat, hhandle⟩ := hnothing
      split
      · next name hname => exact absurd ⟨name, hname⟩ hfloat
      · split
        · next id typeName hid htype => exact absurd ⟨id, typeName, hid, htype⟩ hhandle
        · rfl
    | @unknownFloat _ name _ hname hspecial =>
      rw [hname]
      exact if_neg ((specialFloat?_eq_none_iff name).1 hspecial)

/-- A value shows a fault if it is rejected. -/
theorem shape_fault_iff : shape j = .fault e ↔ Rejected j e := by
  cases j with
  | object members =>
    by_cases htuple : IsTuple members
    · obtain ⟨items, hitems⟩ := htuple
      rw [shape_tuple hitems]
      refine ⟨nofun, fun h ↦ ?_⟩
      cases h with
      | unrecognized hnothing => exact absurd ⟨items, hitems⟩ hnothing.1
      | unknownFloat htuple => exact absurd ⟨items, hitems⟩ htuple
    · rw [shape_object htuple, objectShape_fault_iff htuple]
  | _ => exact ⟨nofun, nofun⟩

/-- A value has parts if it shows a group. -/
theorem parts_eq (j : Json) : parts j = match shape j with
    | .group items => items
    | _ => [] := by
  cases j with
  | object members =>
    by_cases htuple : IsTuple members
    · obtain ⟨items, hitems⟩ := htuple
      rw [shape_tuple hitems, parts, hitems]
    · rw [shape_object htuple, parts]
      split
      · next items hitems => exact absurd ⟨items, hitems⟩ htuple
      · cases hs : objectShape (withoutTuple members) with
        | group items => exact absurd hs (objectShape_ne_group _ items)
        | _ => rfl
  | _ => rfl

/-! ### The first rejected element -/

/-- The fault of a value that is rejected when decoding looks at it. -/
def fault? (j : Json) : Option ProtocolFault :=
  match shape j with
  | .fault e => some e
  | _ => none

private theorem fault?_eq_some_iff : fault? j = some e ↔ Rejected j e := by
  rw [← shape_fault_iff, fault?]
  cases shape j <;> simp

private theorem fault?_eq_none_iff : fault? j = none ↔ Accepted j := by
  simp only [Accepted, ← fault?_eq_some_iff, Option.eq_none_iff_forall_ne_some, ne_eq]

mutual

/-- Nothing that decoding looks at in a tree that can be decoded is faulty. -/
theorem fault?_of_decodes : ∀ {j : Json} {ids : List Nat}, Decodes j ids →
    ∀ x ∈ elements j, fault? x = none
  | j, _, .plain hs => by
    rw [elements_eq, parts_eq, hs]
    simp [fault?, hs]
  | j, _, .handle hs => by
    rw [elements_eq, parts_eq, hs]
    simp [fault?, hs]
  | j, _, .group hs hitems => by
    rw [elements_eq, parts_eq, hs]
    intro x hx
    rcases List.mem_cons.1 hx with rfl | hx
    · rw [fault?, hs]
    · obtain ⟨k, hk, hx⟩ := List.mem_flatMap.1 hx
      exact fault?_of_decodesAll hitems k hk x hx

/-- Nothing that decoding looks at in trees that can be decoded is faulty. -/
theorem fault?_of_decodesAll : ∀ {js : List Json} {ids : List Nat}, DecodesAll js ids →
    ∀ k ∈ js, ∀ x ∈ elements k, fault? x = none
  | _, _, .nil, k, hk, _, _ => by cases hk
  | _, _, .cons hj hjs, k, hk, x, hx => by
    rcases List.mem_cons.1 hk with hfirst | hk
    · exact fault?_of_decodes hj x (hfirst ▸ hx)
    · exact fault?_of_decodesAll hjs k hk x hx

end

/-- A tree that cannot be decoded has the fault of the first faulty element. -/
theorem findSome?_of_fails {levels : List (List Nat)} (h : Fails j levels e) :
    (elements j).findSome? fault? = some e := by
  induction h with
  | here hs => rw [elements_eq, List.findSome?_cons, fault?, hs]
  | @inside j bad front back ids levels e hs hfront _ ih =>
    -- What stands in front of the failing item can be decoded, so the search goes on in the item.
    have hself : fault? j = none := by rw [fault?, hs]
    have hnone : (front.flatMap elements).findSome? fault? = none := by
      rw [List.findSome?_eq_none_iff]
      intro x hx
      obtain ⟨k, hk, hx⟩ := List.mem_flatMap.1 hx
      exact fault?_of_decodesAll hfront k hk x hx
    rw [elements_eq, parts_eq, hs, List.findSome?_cons, hself]
    simp only [List.flatMap_append, List.flatMap_cons, List.findSome?_append, hnone, ih,
      Option.none_or, Option.some_or]

/-- Decoding fails with the fault of the first element that is rejected. -/
theorem decode_error_iff (j : Json) (l : Ledger) :
    (decode j l).1 = .error e ↔ ∃ before bad after, elements j = before ++ bad :: after ∧
      Rejected bad e ∧ ∀ x ∈ before, Accepted x := by
  simp only [← fault?_eq_some_iff, ← fault?_eq_none_iff, ← List.findSome?_eq_some_iff]
  rcases decodes_or_fails j with ⟨ids, hj⟩ | ⟨levels, e', hj⟩
  · obtain ⟨v, l', hv, -⟩ := decode_of_decodes hj l
    rw [hv, List.findSome?_eq_none_iff.2 (fault?_of_decodes hj)]
    simp
  · obtain ⟨l', he, -⟩ := decode_of_fails hj l
    rw [he, findSome?_of_fails hj]
    simp

/-- A reply with a value fails as decoding the value does. -/
theorem decodeReply_error_iff {line : String} (hj : ReplyText.parse? line = some (.ok j))
    (l : Ledger) : (decodeReply line l).1 = .error (.protocol e) ↔ (decode j l).1 = .error e := by
  rw [decodeReply, hj]
  cases hv : decode j l with
  | mk result l' => cases result <;> simp [hv]

/-! ### The text of an object -/

/-- How a member of an object is written. -/
private def memberText (m : String × Json) : String :=
  Json.quoteString m.1 ++ ":" ++ m.2.compact

/-- The length of a member with the comma that parts it from the next one. -/
private def memberLength (m : String × Json) : Nat :=
  (memberText m).length + 1

private theorem compactMembers_eq (members : List (String × Json)) :
    Json.compactMembers members = members.map memberText := by
  induction members with
  | nil => rw [Json.compactMembers, List.map_nil]
  | cons m members ih => rw [Json.compactMembers, ih, List.map_cons, memberText]

/-- The length of texts with commas between them. -/
private theorem length_intercalate (texts : List String) :
    (",".intercalate texts).length = (texts.map (·.length + 1)).sum - 1 := by
  induction texts with
  | nil => rfl
  | cons t texts ih =>
    cases texts with
    | nil => simp
    | cons u texts =>
      have hcomma : ",".length = 1 := rfl
      rw [String.intercalate_cons_cons, String.length_append, String.length_append, ih, hcomma]
      simp only [List.map_cons, List.sum_cons]
      omega

/-- The length of an object is that of its members and two braces. -/
private theorem length_compact_object (members : List (String × Json)) :
    (Json.object members).compact.length = (members.map memberLength).sum - 1 + 2 := by
  have hbraces : "\x7b".length = 1 ∧ "\x7d".length = 1 := ⟨rfl, rfl⟩
  have hmembers : (fun text : String ↦ text.length + 1) ∘ memberText = memberLength := rfl
  rw [Json.compact, String.length_append, String.length_append, length_intercalate,
    compactMembers_eq, List.map_map, hmembers, hbraces.1, hbraces.2]
  omega

/-- An object that loses a member called `tuple` loses text. -/
private theorem length_withoutTuple_lt {m : String × Json} (hm : m ∈ members)
    (hkey : m.1 = "tuple") :
    (Json.object (withoutTuple members)).compact.length <
      (Json.object members).compact.length := by
  have hcolon : 2 ≤ memberLength m := by
    simp only [memberLength, memberText, String.length_append, show ":".length = 1 from rfl]
    omega
  -- The members are those that stay and those that are lost, among them `m`.
  have hlost : m ∈ members.filter fun m ↦ !decide (m.1 ≠ "tuple") := by simp [hm, hkey]
  have hle := List.le_sum_of_mem (List.mem_map_of_mem (f := memberLength) hlost)
  have hsum := ((List.filter_append_perm (fun m ↦ decide (m.1 ≠ "tuple")) members).map
    memberLength).sum_nat
  rw [List.map_append, List.sum_append_nat] at hsum
  rw [length_compact_object, length_compact_object, withoutTuple]
  omega

/-- An object is written the same without its member called `tuple` only if it has none. -/
theorem compact_withoutTuple_iff (members : List (String × Json)) :
    (Json.object (withoutTuple members)).compact = (Json.object members).compact ↔
      ∀ m ∈ members, m.1 ≠ "tuple" := by
  constructor
  · intro heq m hm hkey
    have hlt := length_withoutTuple_lt hm hkey
    rw [heq] at hlt
    exact Nat.lt_irrefl _ hlt
  · intro hnone
    rw [withoutTuple, List.filter_eq_self.2 fun m hm ↦ decide_eq_true (hnone m hm)]

/-! ### What is reported -/

/-- A reply with a value is reported as unrecognized exactly if an object that stands for nothing
comes before every other rejected element in document order. The report is the text of this
object without a member called `tuple`, so it shows the object as it came exactly if there is no
such member. -/
theorem decodeReply_unrecognized {line : String} (hj : ReplyText.parse? line = some (.ok j))
    (l : Ledger) :
    (∀ o, (decodeReply line l).1 = .error (.protocol (.unrecognized o)) ↔
      ∃ before members after, elements j = before ++ .object members :: after ∧
        (∀ x ∈ before, Accepted x) ∧ Unrecognized members ∧
        o = .object (withoutTuple members)) ∧
      ∀ members, (ProtocolFault.unrecognized (.object (withoutTuple members))).message =
          "unrecognized value " ++ (Json.object members).compact ↔
        ∀ m ∈ members, m.1 ≠ "tuple" := by
  refine ⟨fun o ↦ ?_, fun members ↦ ?_⟩
  · rw [decodeReply_error_iff hj, decode_error_iff]
    constructor
    · rintro ⟨before, bad, after, helements, hbad, hbefore⟩
      cases hbad with
      | unrecognized hnothing =>
        exact ⟨before, _, after, helements, hbefore, hnothing, rfl⟩
    · rintro ⟨before, members, after, helements, hbefore, hnothing, rfl⟩
      exact ⟨before, _, after, helements, .unrecognized hnothing, hbefore⟩
  · have hmessage : (ProtocolFault.unrecognized (.object (withoutTuple members))).message =
        "unrecognized value " ++ (Json.object (withoutTuple members)).compact := rfl
    rw [hmessage, String.append_right_inj, compact_withoutTuple_iff]

/-- The second component of a tuple in an array comes in front of another object that stands for
nothing, and is reported with both of its members. -/
theorem decodeReply_unrecognized_nested :
    let line :=
      "\x7b\"ok\":[\x7b\"tuple\":[1,\x7b\"b\":[\x7b\x7d],\"a\":null\x7d]\x7d,\x7b\x7d]\x7d"
    let members : List (String × Json) := [("a", .null), ("b", .array [.object []])]
    let tuple : Json := .object [("tuple", .array [.number (.natural 1), .object members])]
    ReplyText.parse? line = some (.ok (.array [tuple, .object []])) ∧
      (decodeReply line .empty).1 = .error (.protocol (.unrecognized (.object members))) ∧
      (ProtocolFault.unrecognized (.object members)).message =
        "unrecognized value " ++ (Json.object members).compact := by
  intro line members tuple
  have hline : ReplyText.parse?
      "\x7b\"ok\":[\x7b\"tuple\":[1,\x7b\"b\":[\x7b\x7d],\"a\":null\x7d]\x7d,\x7b\x7d]\x7d" =
        some (.ok (.array [tuple, .object []])) := by cbv
  have helements : elements (.array [tuple, .object []]) =
      [.array [tuple, .object []], tuple, .number (.natural 1)] ++
        .object members :: [.object []] := by
    simp [elements_eq, parts, Json.member?, tuple, members]
  have hreport := decodeReply_unrecognized hline .empty
  refine ⟨hline, (hreport.1 _).2 ⟨_, members, _, helements, ?_, ?_, rfl⟩,
    (hreport.2 members).2 (by decide)⟩
  · simp only [List.forall_mem_cons, ← fault?_eq_none_iff]
    exact ⟨rfl, rfl, rfl, by simp⟩
  · simp [Unrecognized, IsTuple, IsFloat, IsHandle, Json.member?, members]

/-- An object whose member called `tuple` is no array stands for nothing, and its report leaves
this member out. -/
theorem decodeReply_loses_tuple :
    let line := "\x7b\"ok\":\x7b\"tuple\":\"x\",\"b\":1,\"a\":2\x7d\x7d"
    let members : List (String × Json) :=
      [("a", .number (.natural 2)), ("b", .number (.natural 1)), ("tuple", .str "x")]
    ReplyText.parse? line = some (.ok (.object members)) ∧ Unrecognized members ∧
      ∃ o, (decodeReply line .empty).1 = .error (.protocol (.unrecognized o)) ∧
        (ProtocolFault.unrecognized o).message = "unrecognized value \x7b\"a\":2,\"b\":1\x7d" ∧
        (ProtocolFault.unrecognized o).message ≠
          "unrecognized value " ++ (Json.object members).compact := by
  intro line members
  have hnothing : Unrecognized members := by
    simp [Unrecognized, IsTuple, IsFloat, IsHandle, Json.member?, members]
  exact ⟨by cbv, hnothing, .object (withoutTuple members), by cbv, by decide +kernel,
    by decide +kernel⟩

end GuestBridge.Wire
