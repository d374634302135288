import GuestBridge.Number.Binary64

/-!
# The shortest decimal that reads back

A decimal reads back as a number if it lies closer to it than to its neighbours; a decimal
halfway between two numbers reads back as the one with the even significand. Among the
decimals that read back, `Binary64.shortest` takes one with the fewest digits, and among
those the one nearest to the number.
-/

namespace GuestBridge

/-- A decimal: its digits as a natural, times a power of ten. -/
structure Decimal where
  digits : Nat
  exponent : Int
  deriving DecidableEq, Repr, Inhabited

/-- Which of two equally near decimals is taken. -/
inductive Tie where
  | up
  | even
  deriving DecidableEq, Repr

namespace Binary64

/-- The interval of the reals that read back as a positive finite number, in units of a
power of two: lower end, the number itself, upper end, and the exponent of the unit. -/
def interval (x : Binary64) : Nat × Nat × Nat × Int :=
  let m := x.significand
  let below := if x.fractionField = 0 && 1 < x.exponentField then 1 else 2
  (4 * m - below, 4 * m, 4 * m + 2, x.exponent - 2)

/-- The candidate on the grid of a power of ten, if one of the number's two neighbours on
it reads back. -/
def candidate (tie : Tie) (x : Binary64) (k : Int) : Option Nat :=
  let (low, mid, high, e) := x.interval
  let (num, den) := scaled 1 e
  let up := num * Nat.pow 10 (-k).toNat
  let down := den * Nat.pow 10 k.toNat
  let closed := x.significand % 2 = 0
  let inside (c : Nat) : Bool :=
    if closed then low * up ≤ c * down && c * down ≤ high * up
    else low * up < c * down && c * down < high * up
  let c := mid * up / down
  let rest := 2 * (mid * up % down)
  let upper := down < rest || (rest = down && (tie = .up || c % 2 = 1))
  if inside c && inside (c + 1) then some (if upper then c + 1 else c)
  else if inside c then some c
  else if inside (c + 1) then some (c + 1)
  else none

/-- The candidate on the coarsest grid that has one, among `fuel` grids from the power `k`
downwards. -/
def coarsest (tie : Tie) (x : Binary64) : (fuel : Nat) → (k : Int) → Decimal
  | 0, k => ⟨0, k⟩
  | fuel + 1, k =>
    match x.candidate tie k with
    | some digits => ⟨digits, k⟩
    | none => x.coarsest tie fuel (k - 1)

/-- The shortest decimal that reads back as a finite number, up to the sign. -/
def shortest (tie : Tie) (x : Binary64) : Decimal :=
  if x.significand = 0 then ⟨0, 0⟩
  else
    let magnitude := ((Nat.log2 x.significand : Int) + x.exponent) * 30103 / 100000
    x.coarsest tie 24 (magnitude + 2)

end Binary64

end GuestBridge
