import GuestBridge.Text.Identifier
import GuestBridge.Wire.Json

/-!
# Reading JSON numbers

A number without fraction and exponent is an integer if it fits into 64 bits. All others
become floating-point numbers: the digits are gathered in a significand of 64 bits, digits
that no longer fit only shift the power of ten, and the significand is then multiplied or
divided by that power. A number too great for a finite result does not read.
-/

namespace GuestBridge.Wire.JsonNumber

open GuestBridge.Text

/-- The value of a decimal digit. -/
def digitValue (c : Char) : Nat :=
  c.toNat - 48

/-- The greatest significand. -/
def significandLimit : Nat := 0xFFFFFFFFFFFFFFFF

/-- The greatest exponent that is gathered. -/
def exponentLimit : Nat := 0x7FFFFFFF

/-- The rest of a text after its decimal digits, and how many there were. -/
def skipDigits : List Char → Nat × List Char
  | [] => (0, [])
  | c :: cs =>
    if isAsciiDigit c then
      let (n, rest) := skipDigits cs
      (n + 1, rest)
    else (0, c :: cs)

/-- Gather digits into a significand for as long as they fit: the significand, the number
of digits gathered, and the rest. -/
def gather : (significand count : Nat) → List Char → Nat × Nat × List Char
  | significand, count, [] => (significand, count, [])
  | significand, count, c :: cs =>
    if isAsciiDigit c && significand * 10 + digitValue c ≤ significandLimit then
      gather (significand * 10 + digitValue c) (count + 1) cs
    else (significand, count, c :: cs)

/-- A power of ten as a floating-point number. -/
def powerOfTen (e : Nat) : Binary64 :=
  Binary64.ofNat (Nat.pow 10 e)

/-- Divide by a power of ten in steps of at most the greatest one there is. -/
def divideByPower : (fuel : Nat) → Binary64 → (e : Nat) → Binary64
  | 0, x, _ => x
  | fuel + 1, x, e =>
    if e ≤ 308 then x.div (powerOfTen e)
    else if x.isZero then x
    else divideByPower fuel (x.div (powerOfTen 308)) (e - 308)

/-- A significand times a power of ten, with a sign, if the result is finite. -/
def assemble (negative : Bool) (significand : Nat) (e : Int) : Option Binary64 :=
  let x := Binary64.ofNat significand
  let result :=
    if e < 0 then some (divideByPower 8 x e.natAbs)
    else if e ≤ 308 then
      let product := x.mul (powerOfTen e.toNat)
      if product.isInfinite then none else some product
    else if x.isZero then some x else none
  result.map fun x ↦ if negative then x.neg else x

/-- Gather the digits of an exponent: nothing if they exceed the limit. -/
def gatherExponent : (value : Nat) → List Char → Option Nat × List Char
  | value, [] => (some value, [])
  | value, c :: cs =>
    if isAsciiDigit c then
      if value * 10 + digitValue c ≤ exponentLimit then
        gatherExponent (value * 10 + digitValue c) cs
      else (none, (skipDigits cs).2)
    else (some value, c :: cs)

/-- The number with an exponent, from behind its letter. -/
def withExponent (negative : Bool) (significand : Nat) (start : Int) (cs : List Char) :
    Option (Binary64 × List Char) :=
  let (down, cs) := match cs with
    | '+' :: cs => (false, cs)
    | '-' :: cs => (true, cs)
    | cs => (false, cs)
  if !cs.head?.any isAsciiDigit then none
  else
    match gatherExponent 0 cs with
    | (some e, rest) =>
      let e := if down then start - e else start + e
      (assemble negative significand e).map (·, rest)
    | (none, rest) =>
      if significand ≠ 0 && !down then none else some (Binary64.zero negative, rest)

/-- The number behind its last digit: an exponent may follow. -/
def finish (negative : Bool) (significand : Nat) (e : Int) (cs : List Char) :
    Option (Binary64 × List Char) :=
  match cs with
  | 'e' :: cs => withExponent negative significand e cs
  | 'E' :: cs => withExponent negative significand e cs
  | cs => (assemble negative significand e).map (·, cs)

/-- The number with a fraction, from behind its point. Digits that do not fit are left
out. -/
def withFraction (negative : Bool) (significand : Nat) (e : Int) (cs : List Char) :
    Option (Binary64 × List Char) :=
  if !cs.head?.any isAsciiDigit then none
  else
    let (significand, count, rest) := gather significand 0 cs
    finish negative significand (e - count) (skipDigits rest).2

/-- A number from its integer part on, the sign aside. -/
def unsigned (negative : Bool) (cs : List Char) : Option (JsonNumber × List Char) :=
  let (significand, count, rest) := gather 0 0 cs
  let (shift, rest) := skipDigits rest
  let float (r : Option (Binary64 × List Char)) := r.map fun (x, rest) ↦ (JsonNumber.float x, rest)
  if count = 0 || (cs.head? = some '0' && 1 < count + shift) then none
  else match rest with
    | '.' :: rest => float (withFraction negative significand shift rest)
    | 'e' :: _ => float (finish negative significand shift rest)
    | 'E' :: _ => float (finish negative significand shift rest)
    | _ =>
      if 0 < shift then float ((assemble negative significand shift).map (·, rest))
      else if !negative then some (.natural (UInt64.ofNat significand), rest)
      else if significand = 0 || 0x8000000000000000 < significand then
        some (.float (Binary64.ofNat significand).neg, rest)
      else some (.negative (Int64.ofInt (-significand)), rest)

/-- The number a text starts with, and the rest. -/
def read? : List Char → Option (JsonNumber × List Char)
  | '-' :: cs => unsigned true cs
  | cs => unsigned false cs

end GuestBridge.Wire.JsonNumber
