import GuestBridge.Number.Layout

/-!
# JSON values

The tree of a JSON text. A number is a natural or a negative integer of 64 bits where it is
written as one, and a floating-point number otherwise; objects are sorted by key and hold
each key once.
-/

namespace GuestBridge.Wire

/-- A number of a JSON text. -/
inductive JsonNumber where
  | natural (n : UInt64)
  /-- A negative integer. -/
  | negative (n : Int64)
  | float (x : Binary64)
  deriving DecidableEq, Repr, Inhabited

/-- A JSON value. -/
inductive Json where
  | null
  | bool (b : Bool)
  | number (n : JsonNumber)
  | str (s : String)
  | array (items : List Json)
  | object (members : List (String × Json))
  deriving Repr, Inhabited

namespace Json

/-- Put a member into sorted members; it takes the place of one with the same key. -/
def insertMember (key : String) (value : Json) : List (String × Json) → List (String × Json)
  | [] => [(key, value)]
  | (k, v) :: members =>
    if key = k then (key, value) :: members
    else if key < k then (key, value) :: (k, v) :: members
    else (k, v) :: insertMember key value members

/-- The value of a member. -/
def member? (key : String) (members : List (String × Json)) : Option Json :=
  (members.find? (·.1 = key)).map (·.2)

/-- How a character stands in a JSON string. -/
def stringChar (c : Char) : List Char :=
  if c = '"' then ['\\', '"']
  else if c = '\\' then ['\\', '\\']
  else if c = '\n' then ['\\', 'n']
  else if c = '\r' then ['\\', 'r']
  else if c = '\t' then ['\\', 't']
  else if c.toNat = 8 then ['\\', 'b']
  else if c.toNat = 12 then ['\\', 'f']
  else if c.toNat < 32 then
    let digits := Nat.toDigits 16 c.toNat
    '\\' :: 'u' :: (List.replicate (4 - digits.length) '0' ++ digits)
  else [c]

/-- A text as a JSON string. -/
def quoteString (s : String) : String :=
  String.ofList ('"' :: s.toList.flatMap stringChar ++ ['"'])

/-- A number as JSON text. -/
def numberText : JsonNumber → String
  | .natural n => toString n.toNat
  | .negative n => toString n.toInt
  | .float x => x.text .json

mutual

/-- A value as compact JSON text. -/
def compact : Json → String
  | .null => "null"
  | .bool b => if b then "true" else "false"
  | .number n => numberText n
  | .str s => quoteString s
  | .array items => "[" ++ ",".intercalate (compactAll items) ++ "]"
  | .object members => "\x7b" ++ ",".intercalate (compactMembers members) ++ "\x7d"

/-- The texts of a list of values. -/
def compactAll : List Json → List String
  | [] => []
  | v :: vs => compact v :: compactAll vs

/-- The texts of the members of an object. -/
def compactMembers : List (String × Json) → List String
  | [] => []
  | (key, v) :: members => (quoteString key ++ ":" ++ compact v) :: compactMembers members

end

end Json

end GuestBridge.Wire
