import GuestBridge.Host.Scan
import GuestBridge.Proofs.Number.DecimalText
import GuestBridge.Wire.Literal

/-!
# A reader for guest code that is a value

The part of the guest's language that literals are written in: words, numbers, texts, arrays,
tuples and lookups in the table of objects behind handles. A word reaches as far as it can,
an escape takes as many hexadecimal digits as there are, up to four, and a dollar without a
backslash in a text interpolates, which no value does.
-/

namespace GuestBridge.Wire.LiteralReader

open Text

/-! ### Texts -/

/-- The number that at most so many hexadecimal digits write, behind a number, and the rest. -/
def hexDigits : (limit value : Nat) → List Char → Nat × List Char
  | 0, value, cs => (value, cs)
  | _ + 1, value, [] => (value, [])
  | limit + 1, value, c :: cs =>
    match Host.Scan.hexValue c with
    | some digit => hexDigits limit (value * 16 + digit) cs
    | none => (value, c :: cs)

/-- The character of a code escape, from behind its letter: one to four digits of a code that
is a character. -/
def codeEscape? (cs : List Char) : Option (Char × List Char) :=
  if cs.head?.any fun c ↦ (Host.Scan.hexValue c).isSome then
    let (code, rest) := hexDigits 4 0 cs
    if code.isValidChar then some (Char.ofNat code, rest) else none
  else none

/-- What a one-letter escape stands for. -/
def simpleEscape? (c : Char) : Option Char :=
  if c = '"' || c = '\\' || c = '$' then some c
  else if c = 'n' then some '\n'
  else if c = 'r' then some '\r'
  else if c = 't' then some '\t'
  else none

/-- A text from behind its opening quote. -/
def textBody : (fuel : Nat) → List Char → Option (List Char × List Char)
  | 0, _ => none
  | _, [] => none
  | fuel + 1, c :: cs =>
    if c = '"' then some ([], cs)
    else if c = '$' then none
    else if c = '\\' then
      match cs with
      | 'u' :: cs =>
        (codeEscape? cs).bind fun (c, rest) ↦
          (textBody fuel rest).map fun (text, rest) ↦ (c :: text, rest)
      | c :: cs =>
        (simpleEscape? c).bind fun c ↦
          (textBody fuel cs).map fun (text, rest) ↦ (c :: text, rest)
      | [] => none
    else (textBody fuel cs).map fun (text, rest) ↦ (c :: text, rest)

/-! ### Words -/

/-- A character that may stand in a word. -/
def isWordChar (c : Char) : Bool :=
  isAsciiDigit c || c.isAlpha || c = '_' || c = '.' || c = '-'

/-- The integer that a word writes, if it fits with its sign taken off. -/
def int? : List Char → Option Int64
  | '-' :: cs =>
    (natural? cs).bind fun n ↦ if n < 2 ^ 63 then some (Int64.ofInt (-(n : Int))) else none
  | cs => (natural? cs).bind fun n ↦ if n < 2 ^ 63 then some (Int64.ofInt n) else none

/-- The number that a word writes: an integer without point and exponent. -/
def number? (word : List Char) : Option Value :=
  match int? word with
  | some n => some (.int n)
  | none => (Binary64.read? word).map .float

/-- The words that are values by themselves. -/
def constants : List (List Char × Value) :=
  [("nothing".toList, .nothing), ("true".toList, .bool true), ("false".toList, .bool false),
    ("NaN".toList, .float Binary64.nan), ("Inf".toList, .float (Binary64.infinity false)),
    ("-Inf".toList, .float (Binary64.infinity true))]

/-- The id in a lookup of a handle, from behind the name of the table. -/
def lookup? : List Char → Option (Nat × List Char)
  | '(' :: cs =>
    match cs.dropWhile isAsciiDigit with
    | ')' :: rest => (natural? (cs.takeWhile isAsciiDigit)).map (·, rest)
    | _ => none
  | _ => none

/-- The value that a word starts, and the rest behind the value. -/
def wordValue? (word rest : List Char) : Option (Value × List Char) :=
  if word = "Any".toList then (dropPrefix? "[]".toList rest).map (.array [], ·)
  else if word = "typemin".toList then
    (dropPrefix? "(Int64)".toList rest).map (.int Int64.minValue, ·)
  else if word = handleTable.toList then
    (lookup? rest).map fun (id, rest) ↦ (.handle (.permanent id ""), rest)
  else
    match constants.find? (·.1 = word) with
    | some (_, v) => some (v, rest)
    | none => (number? word).map (·, rest)

/-! ### Values -/

mutual

/-- A value at the start of a text, and the rest. -/
def value? : (fuel : Nat) → List Char → Option (Value × List Char)
  | 0, _ => none
  | fuel + 1, cs =>
    match cs with
    | '"' :: cs => (textBody (cs.length + 1) cs).map fun (text, rest) ↦
      (.str (String.ofList text), rest)
    | '[' :: cs =>
      match items? fuel cs with
      | some (vs, ']' :: rest) => some (.array vs, rest)
      | _ => none
    | '(' :: ')' :: rest => some (.tuple [], rest)
    | '(' :: cs =>
      match items? fuel cs with
      | some ([v], ',' :: ')' :: rest) => some (.tuple [v], rest)
      | some (v :: w :: vs, ')' :: rest) => some (.tuple (v :: w :: vs), rest)
      | _ => none
    | cs => wordValue? (cs.takeWhile isWordChar) (cs.dropWhile isWordChar)

/-- Values with commas between them, and what follows the last one. -/
def items? : (fuel : Nat) → List Char → Option (List Value × List Char)
  | 0, _ => none
  | fuel + 1, cs =>
    match value? fuel cs with
    | none => none
    | some (v, ',' :: ' ' :: rest) => (items? fuel rest).map fun (vs, rest) ↦ (v :: vs, rest)
    | some (v, rest) => some ([v], rest)

end

/-- The value that a text starts with, and the rest. -/
def read? (cs : List Char) : Option (Value × List Char) :=
  value? (cs.length + 1) cs

end GuestBridge.Wire.LiteralReader
