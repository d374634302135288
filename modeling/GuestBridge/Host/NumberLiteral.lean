import GuestBridge.Host.Scan

/-!
# Number literals

Which number literals are whole numbers, and what they count. A point or an exponent with
a digit makes a decimal literal a float; letters behind the digits are a suffix.
-/

namespace GuestBridge.Host.NumberLiteral

open GuestBridge.Text

/-- Letters and digits that form a word, or nothing. -/
def isSuffix (cs : List Char) : Bool :=
  match cs with
  | [] => true
  | c :: cs => isIdentStart c && cs.all isIdentContinue

/-- Whether an exponent letter, with what follows it, makes a decimal literal a float. -/
def isExponent : (digit : Bool) → List Char → Bool
  | digit, [] => digit
  | digit, c :: cs =>
    if c = '_' then isExponent digit cs
    else if c = '+' || c = '-' then true
    else if isAsciiDigit c then isExponent true cs
    else digit && isSuffix (c :: cs)

/-- The value of the digits a whole number starts with, and the suffix behind them. -/
def digits (base : Nat) : (seen : Bool) → (value : Nat) → List Char → Option (Nat × List Char)
  | seen, value, [] => if seen then some (value, []) else none
  | seen, value, c :: cs =>
    let stop := if seen && isSuffix (c :: cs) then some (value, c :: cs) else none
    if c = '_' then digits base seen value cs
    else if isAsciiDigit c || (base = 16 && (Scan.hexValue c).isSome) then
      match Scan.hexValue c with
      | some d => if d < base then digits base true (value * base + d) cs else none
      | none => stop
    else if base = 10 && c = '.' then none
    else if base = 10 && (c = 'e' || c = 'E') && isExponent false cs then none
    else stop

/-- The value and the suffix of a whole number. -/
def integer? (text : String) : Option (Nat × List Char) :=
  match text.toList with
  | '0' :: 'x' :: cs => digits 16 false 0 cs
  | '0' :: 'o' :: cs => digits 8 false 0 cs
  | '0' :: 'b' :: cs => digits 2 false 0 cs
  | c :: cs => if isAsciiDigit c then digits 10 false 0 (c :: cs) else none
  | [] => none

/-- A number that is no whole number. -/
def isFloat (text : String) : Bool :=
  text.toList.head?.any isAsciiDigit && (integer? text).isNone

/-- A whole number without suffix that can name the position of a field. -/
def isIndex (text : String) : Bool :=
  match integer? text with
  | some (value, []) => value < 4294967296
  | _ => false

/-- The positions that a float names when it stands where a field is expected: all pieces
between its points must be positions. The answer is whether a last point is left over. -/
def indices? (text : String) : Option Bool :=
  let trailing := text.endsWith "."
  let cs := if trailing then text.toList.dropLast else text.toList
  if (pieces cs).all fun piece ↦ isIndex (String.ofList piece) then some trailing else none
where
  /-- The pieces between points. -/
  pieces : List Char → List (List Char)
    | [] => [[]]
    | '.' :: cs => [] :: pieces cs
    | c :: cs =>
      match pieces cs with
      | [] => [[c]]
      | piece :: rest => (c :: piece) :: rest

end GuestBridge.Host.NumberLiteral
