import GuestBridge.Host.Scan
import GuestBridge.Wire.JsonNumber

/-!
# Reading JSON text

Each reader takes a text and gives what it starts with and the rest. Values may nest only
so deep, and of members with one key the last counts. A value that nobody looks at is
skipped: it must be well formed, but it may nest to any depth, its numbers may have any
size, and its strings may hold halves of surrogate pairs.
-/

namespace GuestBridge.Wire.Json

open GuestBridge.Text

/-- A blank of JSON text. -/
def isSpace (c : Char) : Bool :=
  c = ' ' || c = '\n' || c = '\t' || c = '\r'

/-- A text without its leading blanks. -/
def skipSpace (cs : List Char) : List Char :=
  cs.dropWhile isSpace

/-- The number that four hexadecimal digits write, and the rest. -/
def hexQuad? : List Char → Option (Nat × List Char)
  | a :: b :: c :: d :: cs =>
    match Host.Scan.hexValue a, Host.Scan.hexValue b, Host.Scan.hexValue c,
        Host.Scan.hexValue d with
    | some a, some b, some c, some d => some (((a * 16 + b) * 16 + c) * 16 + d, cs)
    | _, _, _, _ => none
  | _ => none

/-- What a one-letter escape stands for. -/
def simpleEscape? (c : Char) : Option Char :=
  if c = '"' || c = '\\' || c = '/' then some c
  else if c = 'b' then some (Char.ofNat 8)
  else if c = 'f' then some (Char.ofNat 12)
  else if c = 'n' then some '\n'
  else if c = 'r' then some '\r'
  else if c = 't' then some '\t'
  else none

/-- The character of a code escape, from behind its letter: one unit, or a pair of
surrogates in two escapes. -/
def codeEscape? (cs : List Char) : Option (Char × List Char) :=
  match hexQuad? cs with
  | none => none
  | some (unit, rest) =>
    if unit < 0xD800 || 0xDFFF < unit then some (Char.ofNat unit, rest)
    else if 0xDC00 ≤ unit then none
    else match rest with
      | '\\' :: 'u' :: rest =>
        match hexQuad? rest with
        | some (low, rest) =>
          if 0xDC00 ≤ low && low ≤ 0xDFFF then
            some (Char.ofNat ((unit - 0xD800) * 1024 + (low - 0xDC00) + 0x10000), rest)
          else none
        | none => none
      | _ => none

/-- A string from behind its opening quote. -/
def stringBody : (fuel : Nat) → List Char → Option (List Char × List Char)
  | 0, _ => none
  | _, [] => none
  | fuel + 1, c :: cs =>
    if c = '"' then some ([], cs)
    else if c = '\\' then
      match cs with
      | 'u' :: cs =>
        (codeEscape? cs).bind fun (c, rest) ↦
          (stringBody fuel rest).map fun (text, rest) ↦ (c :: text, rest)
      | c :: cs =>
        (simpleEscape? c).bind fun c ↦
          (stringBody fuel cs).map fun (text, rest) ↦ (c :: text, rest)
      | [] => none
    else if c.toNat < 32 then none
    else (stringBody fuel cs).map fun (text, rest) ↦ (c :: text, rest)

/-- A string, with its quotes. -/
def string? : List Char → Option (String × List Char)
  | '"' :: cs => (stringBody (cs.length + 1) cs).map fun (text, rest) ↦ (String.ofList text, rest)
  | _ => none

/-- The rest after a colon, blanks around it aside. -/
def colon? (cs : List Char) : Option (List Char) :=
  match skipSpace cs with
  | ':' :: cs => some (skipSpace cs)
  | _ => none

/-- A word of JSON and what it stands for. -/
def keyword? (cs : List Char) : Option (Json × List Char) :=
  match dropPrefix? "null".toList cs with
  | some rest => some (.null, rest)
  | none =>
    match dropPrefix? "true".toList cs with
    | some rest => some (.bool true, rest)
    | none => (dropPrefix? "false".toList cs).map fun rest ↦ (.bool false, rest)

mutual

/-- A value at the start of a text, which may nest `depth` levels deep. -/
def value? : (fuel depth : Nat) → List Char → Option (Json × List Char)
  | 0, _, _ => none
  | fuel + 1, depth, cs =>
    match cs with
    | '"' :: _ => (string? cs).map fun (s, rest) ↦ (.str s, rest)
    | '[' :: cs =>
      match depth with
      | 0 => none
      | depth + 1 =>
        match skipSpace cs with
        | ']' :: rest => some (.array [], rest)
        | cs => (items? fuel depth cs).map fun (items, rest) ↦ (.array items, rest)
    | '\x7b' :: cs =>
      match depth with
      | 0 => none
      | depth + 1 =>
        match skipSpace cs with
        | '\x7d' :: rest => some (.object [], rest)
        | cs => (members? fuel depth [] cs).map fun (members, rest) ↦ (.object members, rest)
    | cs =>
      match keyword? cs with
      | some result => some result
      | none => (JsonNumber.read? cs).map fun (n, rest) ↦ (.number n, rest)

/-- The items of an array, from the first one to behind the closing bracket. -/
def items? : (fuel depth : Nat) → List Char → Option (List Json × List Char)
  | 0, _, _ => none
  | fuel + 1, depth, cs =>
    match value? fuel depth cs with
    | none => none
    | some (v, rest) =>
      match skipSpace rest with
      | ',' :: rest =>
        (items? fuel depth (skipSpace rest)).map fun (vs, rest) ↦ (v :: vs, rest)
      | ']' :: rest => some ([v], rest)
      | _ => none

/-- The members of an object, from the next one to behind the closing brace, added to those
already read. -/
def members? : (fuel depth : Nat) → List (String × Json) → List Char →
    Option (List (String × Json) × List Char)
  | 0, _, _, _ => none
  | fuel + 1, depth, members, cs =>
    match (string? cs).bind fun (key, rest) ↦ (colon? rest).map (key, ·) with
    | none => none
    | some (key, rest) =>
      match value? fuel depth rest with
      | none => none
      | some (v, rest) =>
        let members := insertMember key v members
        match skipSpace rest with
        | ',' :: rest => members? fuel depth members (skipSpace rest)
        | '\x7d' :: rest => some (members, rest)
        | _ => none

end

/-- The rest after a string that nobody looks at, from behind its opening quote. -/
def stringEnd : (fuel : Nat) → List Char → Option (List Char)
  | 0, _ => none
  | _, [] => none
  | fuel + 1, c :: cs =>
    if c = '"' then some cs
    else if c = '\\' then
      match cs with
      | 'u' :: cs => (hexQuad? cs).bind fun (_, rest) ↦ stringEnd fuel rest
      | c :: cs => (simpleEscape? c).bind fun _ ↦ stringEnd fuel cs
      | [] => none
    else if c.toNat < 32 then none
    else stringEnd fuel cs

/-- The rest after digits, of which there must be one. -/
def digitsEnd (cs : List Char) : Option (List Char) :=
  if cs.head?.any isAsciiDigit then some (cs.dropWhile isAsciiDigit) else none

/-- The rest after an exponent, if one comes next. -/
def exponentEnd (cs : List Char) : Option (List Char) :=
  match cs with
  | c :: rest =>
    if c = 'e' || c = 'E' then
      match rest with
      | '+' :: rest => digitsEnd rest
      | '-' :: rest => digitsEnd rest
      | rest => digitsEnd rest
    else some cs
  | [] => some []

/-- The rest after a number of any size. -/
def numberEnd (cs : List Char) : Option (List Char) :=
  let cs := match cs with
    | '-' :: cs => cs
    | cs => cs
  (digitsEnd cs).bind fun rest ↦
    if cs.head? = some '0' && (cs.drop 1).head?.any isAsciiDigit then none
    else match rest with
      | '.' :: rest => (digitsEnd rest).bind exponentEnd
      | rest => exponentEnd rest

mutual

/-- The rest after a value that nobody looks at. -/
def valueEnd : (fuel : Nat) → List Char → Option (List Char)
  | 0, _ => none
  | fuel + 1, cs =>
    match cs with
    | '"' :: cs => stringEnd (cs.length + 1) cs
    | '[' :: cs =>
      match skipSpace cs with
      | ']' :: rest => some rest
      | cs => itemsEnd fuel cs
    | '\x7b' :: cs =>
      match skipSpace cs with
      | '\x7d' :: rest => some rest
      | cs => membersEnd fuel cs
    | cs =>
      match keyword? cs with
      | some (_, rest) => some rest
      | none => numberEnd cs

/-- The rest after the items of an array that nobody looks at. -/
def itemsEnd : (fuel : Nat) → List Char → Option (List Char)
  | 0, _ => none
  | fuel + 1, cs =>
    match valueEnd fuel cs with
    | none => none
    | some rest =>
      match skipSpace rest with
      | ',' :: rest => itemsEnd fuel (skipSpace rest)
      | ']' :: rest => some rest
      | _ => none

/-- The rest after the members of an object that nobody looks at. -/
def membersEnd : (fuel : Nat) → List Char → Option (List Char)
  | 0, _ => none
  | fuel + 1, cs =>
    match cs with
    | '"' :: cs =>
      match ((stringEnd (cs.length + 1) cs).bind colon?).bind (valueEnd fuel) with
      | none => none
      | some rest =>
        match skipSpace rest with
        | ',' :: rest => membersEnd fuel (skipSpace rest)
        | '\x7d' :: rest => some rest
        | _ => none
    | _ => none

end

end GuestBridge.Wire.Json
