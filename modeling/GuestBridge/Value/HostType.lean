import GuestBridge.Value.Basic

/-!
# Host types

The types whose elements travel as values: whole numbers of several widths, floating-point
numbers, truth values, texts, the unit type, handles, values themselves, and lists, options
and tuples of these. `HostType.toValue` sends an element to the boundary, and
`HostType.fromValue` reads one back. A value that does not read says what was expected and
found, and in which order the handles taken apart so far are dropped.
-/

namespace GuestBridge

/-- The widths of whole numbers. -/
inductive Width where
  | int8
  | int16
  | int32
  | int64
  | nat8
  | nat16
  | nat32
  deriving DecidableEq, Repr, Inhabited

/-- The least number of a width. -/
def Width.least : Width → Int
  | .int8 => -0x80
  | .int16 => -0x8000
  | .int32 => -0x80000000
  | .int64 => -0x8000000000000000
  | .nat8 | .nat16 | .nat32 => 0

/-- The greatest number of a width. -/
def Width.greatest : Width → Int
  | .int8 => 0x7F
  | .int16 => 0x7FFF
  | .int32 => 0x7FFFFFFF
  | .int64 => 0x7FFFFFFFFFFFFFFF
  | .nat8 => 0xFF
  | .nat16 => 0xFFFF
  | .nat32 => 0xFFFFFFFF

/-- A number fits into a width. -/
def Width.fits (w : Width) (n : Int64) : Bool :=
  w.least ≤ n.toInt && n.toInt ≤ w.greatest

/-- The name of a width. -/
def Width.name : Width → String
  | .int8 => "i8"
  | .int16 => "i16"
  | .int32 => "i32"
  | .int64 => "i64"
  | .nat8 => "u8"
  | .nat16 => "u16"
  | .nat32 => "u32"

/-- A type of the host. -/
inductive HostType where
  | value
  | int (w : Width)
  | double
  | bool
  | string
  | unit
  | handle
  | list (item : HostType)
  | option (item : HostType)
  | tuple (items : List HostType)
  deriving Repr, Inhabited

mutual

/-- The elements of a host type. -/
def HostType.Carrier : HostType → Type
  | .value => Value
  | .int w => { n : Int64 // w.fits n = true }
  | .double => Binary64
  | .bool => Bool
  | .string => String
  | .unit => Unit
  | .handle => Handle
  | .list item => List item.Carrier
  | .option item => Option item.Carrier
  | .tuple items => HostType.Carriers items

/-- The tuples over a list of host types. -/
def HostType.Carriers : List HostType → Type
  | [] => Unit
  | t :: ts => t.Carrier × HostType.Carriers ts

end

mutual

/-- The value of an element of a host type. -/
def HostType.toValue : (t : HostType) → t.Carrier → Value
  | .value, v => v
  | .int _, n => .int n.val
  | .double, x => .float x
  | .bool, b => .bool b
  | .string, s => .str s
  | .unit, _ => .nothing
  | .handle, h => .handle h
  | .list item, xs => .array (List.map item.toValue xs)
  | .option item, x => Option.elim x .nothing item.toValue
  | .tuple items, xs => .tuple (HostType.toValues items xs)

/-- The values of the components of a tuple. -/
def HostType.toValues : (ts : List HostType) → HostType.Carriers ts → List Value
  | [], _ => []
  | t :: ts, (x, xs) => t.toValue x :: HostType.toValues ts xs

end

/-- The argument list that an element of a host type stands for: the components of a tuple,
and nothing for the unit. -/
def HostType.toArgs? : (t : HostType) → t.Carrier → Option (List Value)
  | .unit, _ => some []
  | .tuple items, xs => some (HostType.toValues items xs)
  | _, _ => none

/-- Why a value does not read as a host type. -/
structure Mismatch where
  expected : String
  found : String
  /-- The handles of the value, in the order in which they are dropped. -/
  dropped : List Handle
  deriving Repr, Inhabited

/-- A mismatch of a whole value. -/
def Mismatch.of (expected : String) (v : Value) : Mismatch :=
  ⟨expected, v.kind, v.handles⟩

/-- The mismatch after which further handles are dropped. -/
def Mismatch.followedBy (m : Mismatch) (handles : List Handle) : Mismatch :=
  { m with dropped := m.dropped ++ handles }

/-- Read values one after the other. At the first that does not read, the values behind it
are dropped, and then those in front of it. -/
def readAll {α : Type} (read : Value → Except Mismatch α) :
    (done : List Value) → List Value → Except Mismatch (List α)
  | _, [] => .ok []
  | done, v :: vs =>
    match read v with
    | .ok x => (readAll read (done ++ [v]) vs).map (x :: ·)
    | .error m => .error (m.followedBy (Value.handlesAll vs ++ Value.handlesAll done))

mutual

/-- Read a value as an element of a host type. -/
def HostType.fromValue : (t : HostType) → Value → Except Mismatch t.Carrier
  | .value, v => .ok v
  | .int w, v =>
    match v with
    | .int n => if h : w.fits n = true then .ok ⟨n, h⟩ else .error (.of w.name (.int n))
    | v => .error (.of "int" v)
  | .double, v =>
    match v with
    | .float x => .ok x
    | .int n => .ok (Binary64.ofInt n.toInt)
    | v => .error (.of "float" v)
  | .bool, v =>
    match v with
    | .bool b => .ok b
    | v => .error (.of "bool" v)
  | .string, v =>
    match v with
    | .str s => .ok s
    | v => .error (.of "string" v)
  | .unit, v =>
    match v with
    | .nothing => .ok ()
    | v => .error (.of "nothing" v)
  | .handle, v =>
    match v with
    | .handle h => .ok h
    | v => .error (.of "handle" v)
  | .list item, v =>
    match v.items? with
    | some vs => readAll item.fromValue [] vs
    | none => .error (.of "array" v)
  | .option item, v =>
    match v with
    | .nothing => .ok none
    | v => (item.fromValue v).map some
  | .tuple items, v =>
    match v.items? with
    | some vs => HostType.fromValues items [] vs
    | none => .error (.of "tuple" v)

/-- Read the components of a tuple. At the first that does not read, the components in
front of it are dropped, last first, and then the values behind it. -/
def HostType.fromValues : (ts : List HostType) → (done : List Value) → List Value →
    Except Mismatch (HostType.Carriers ts)
  | [], _, [] => .ok ()
  | [], done, v :: vs =>
    .error ⟨"shorter tuple", "longer tuple",
      v.handles ++ Value.handlesAll done ++ Value.handlesAll vs⟩
  | _ :: _, done, [] => .error ⟨"longer tuple", "shorter tuple", Value.handlesAll done⟩
  | t :: ts, done, v :: vs =>
    match t.fromValue v with
    | .ok x => (HostType.fromValues ts (v :: done) vs).map (x, ·)
    | .error m => .error (m.followedBy (Value.handlesAll done ++ Value.handlesAll vs))

end

end GuestBridge
