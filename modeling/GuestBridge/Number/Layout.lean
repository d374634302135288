import GuestBridge.Number.Shortest

/-!
# Floating-point numbers as text

Three layouts of the shortest decimal of a number. They differ in where positional notation
ends, in whether a whole number shows a point, in how an exponent is written, and in how a
tie between two shortest decimals is broken.
-/

namespace GuestBridge

/-- How numbers are laid out. -/
structure Layout where
  /-- Positional notation starts at ten to this power; all numbers if there is none. -/
  low : Option Int
  /-- Positional notation ends before ten to this power. -/
  high : Option Int
  /-- Whether a whole number in positional notation shows a fractional zero. -/
  point : Bool
  /-- Whether a positive exponent has a sign. -/
  plus : Bool
  tie : Tie
  deriving Repr

/-- The layout of numbers in displayed values and in guest code. -/
def Layout.display : Layout := ⟨some (-4), some 16, true, false, .up⟩

/-- The layout of numbers inside messages: no exponents, and no point without need. -/
def Layout.plain : Layout := ⟨none, none, false, false, .up⟩

/-- The layout of numbers in JSON text. -/
def Layout.json : Layout := ⟨some (-5), some 16, true, true, .even⟩

namespace Decimal

/-- The characters of the digits. -/
def chars (d : Decimal) : List Char :=
  Nat.toDigits 10 d.digits

/-- The power of ten of the first digit. -/
def leading (d : Decimal) : Int :=
  d.exponent + d.chars.length - 1

/-- A decimal in positional notation. -/
def positional (point : Bool) (d : Decimal) : List Char :=
  let zeros (n : Nat) := List.replicate n '0'
  if 0 ≤ d.exponent then
    d.chars ++ zeros d.exponent.toNat ++ if point then ['.', '0'] else []
  else
    let places := (-d.exponent).toNat
    let padded := zeros (places + 1 - d.chars.length) ++ d.chars
    let whole := padded.length - places
    padded.take whole ++ '.' :: padded.drop whole

/-- A decimal with an exponent. -/
def scientific (plus : Bool) (d : Decimal) : List Char :=
  let exponent := d.leading
  let sign := if exponent < 0 then ['-'] else if plus then ['+'] else []
  let mantissa := match d.chars with
    | [c] => [c]
    | c :: cs => c :: '.' :: cs
    | [] => []
  mantissa ++ 'e' :: sign ++ Nat.toDigits 10 exponent.natAbs

end Decimal

/-- The text of a number in a layout. -/
def Binary64.text (layout : Layout) (x : Binary64) : String :=
  if x.isNaN then "NaN"
  else
    let sign := if x.negative then ['-'] else []
    let body :=
      if x.isInfinite then "inf".toList
      else
        let d := x.shortest layout.tie
        let plainLow := layout.low.all (· ≤ d.leading)
        let plainHigh := layout.high.all (d.leading < ·)
        if x.isZero || (plainLow && plainHigh) then d.positional layout.point
        else d.scientific layout.plus
    String.ofList (sign ++ body)

end GuestBridge
