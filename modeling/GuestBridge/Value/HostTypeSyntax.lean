import GuestBridge.Host.Parse
import GuestBridge.Value.HostType

/-!
# Host types as written

The host type that a type expression names. A reference counts as what it refers to, a slice
or an array as a list, and a number of single width as one of double width, which holds all
of them.
-/

namespace GuestBridge.HostType

open Host Host.Reader

/-- The types that are written as one word. -/
def ofWord? (w : String) : Option HostType :=
  match w with
  | "Value" => some .value
  | "i8" => some (.int .int8)
  | "i16" => some (.int .int16)
  | "i32" => some (.int .int32)
  | "i64" => some (.int .int64)
  | "u8" => some (.int .nat8)
  | "u16" => some (.int .nat16)
  | "u32" => some (.int .nat32)
  | "f32" | "f64" => some .double
  | "bool" => some .bool
  | "String" | "str" => some .string
  | "Handle" => some .handle
  | _ => none

/-- The argument between angle brackets. -/
def angled (item : Reader HostType) : Reader HostType := do
  punct "<"
  let t ← item
  punct ">"
  return t

/-- A host type. -/
def reader : (fuel : Nat) → Reader HostType
  | 0 => failure
  | fuel + 1 => do
    if ← punct? "&" then
      reader fuel
    else if ← word? "Vec" then
      return .list (← angled (reader fuel))
    else if ← word? "Option" then
      return .option (← angled (reader fuel))
    else if ← peek Test.bracket then
      group .bracket do
        let t ← reader fuel
        if ← punct? ";" then
          skip 1
        return .list t
    else if ← peek Test.paren then
      let items ← group .paren (commaList (reader fuel))
      return if items.isEmpty then .unit else .tuple items
    else
      let w ← anyWord
      match ofWord? w with
      | some t => return t
      | none => failure

/-- The host type that a type expression names. -/
def parse? (text : String) : Option HostType :=
  (scan text).bind fun ts ↦ (reader (Token.sizeAll ts + 1)).all? ts

end GuestBridge.HostType
