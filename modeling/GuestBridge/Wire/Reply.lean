import GuestBridge.Failure
import GuestBridge.Value.Ledger
import GuestBridge.Wire.ReplyText

/-!
# Decoding replies

A JSON value stands for a value of the guest: objects stand for tuples, for the special
floating-point numbers and for handles, which get an owner. If some part cannot be decoded,
the handles decoded before it are dropped, those of the innermost array or tuple first.
-/

namespace GuestBridge.Wire

/-- A number as a value: an integer where it fits, a floating-point number elsewhere. -/
def decodeNumber : JsonNumber → Value
  | .natural n =>
    if n.toNat < 0x8000000000000000 then
      .int (Int64.ofNat n.toNat)
    else
      .float (Binary64.ofNat n.toNat)
  | .negative n => .int n
  | .float x => .float x

/-- The special floating-point numbers by name. -/
def specialFloat? (name : String) : Option Binary64 :=
  if name = "NaN" then some Binary64.nan
  else if name = "Inf" then some (Binary64.infinity false)
  else if name = "-Inf" then some (Binary64.infinity true)
  else none

/-- The object that remains when the member that would make it a tuple is taken out. -/
def withoutTuple (members : List (String × Json)) : List (String × Json) :=
  members.filter (·.1 ≠ "tuple")

/-- An object that is no tuple: a special floating-point number or a handle. -/
def decodeObject (members : List (String × Json)) (l : Ledger) :
    Except ProtocolFault Value × Ledger :=
  match Json.member? "float" members with
  | some (.str name) =>
    match specialFloat? name with
    | some x => (.ok (.float x), l)
    | none => (.error (.unknownFloat name), l)
  | _ =>
    match Json.member? "handle" members, Json.member? "type" members with
    | some (.number (.natural id)), some (.str typeName) =>
      let (h, l) := l.own id.toNat typeName
      (.ok (.handle h), l)
    | _, _ => (.error (.unrecognized (.object members)), l)

mutual

/-- The value that a JSON value stands for. -/
def decode : Json → Ledger → Except ProtocolFault Value × Ledger
  | .null, l => (.ok .nothing, l)
  | .bool b, l => (.ok (.bool b), l)
  | .number n, l => (.ok (decodeNumber n), l)
  | .str s, l => (.ok (.str s), l)
  | .array items, l =>
    match decodeItems [] items l with
    | (.ok vs, l) => (.ok (.array vs), l)
    | (.error e, l) => (.error e, l)
  | .object members, l =>
    match decodeTuple? members l with
    | some (.ok vs, l) => (.ok (.tuple vs), l)
    | some (.error e, l) => (.error e, l)
    | none => decodeObject (withoutTuple members) l

/-- The values that JSON values stand for, after those already decoded. -/
def decodeItems : (done : List Value) → List Json → Ledger →
    Except ProtocolFault (List Value) × Ledger
  | done, [], l => (.ok done, l)
  | done, j :: js, l =>
    match decode j l with
    | (.ok v, l) => decodeItems (done ++ [v]) js l
    | (.error e, l) => (.error e, l.dropAll done)

/-- The components of the tuple that an object stands for, if it stands for one. -/
def decodeTuple? : List (String × Json) → Ledger →
    Option (Except ProtocolFault (List Value) × Ledger)
  | [], _ => none
  | (key, j) :: members, l =>
    if key = "tuple" then
      match j with
      | .array items => some (decodeItems [] items l)
      | _ => none
    else decodeTuple? members l

end

/-- What a reply line brings: a value, an exception of the guest, or a fault. -/
def decodeReply (line : String) (l : Ledger) : Except Failure Value × Ledger :=
  match ReplyText.parse? line with
  | none => (.error (.protocol .malformed), l)
  | some (.err kind message) => (.error (.raised kind message), l)
  | some (.ok j) =>
    match decode j l with
    | (.ok v, l) => (.ok v, l)
    | (.error e, l) => (.error (.protocol e), l)

end GuestBridge.Wire
