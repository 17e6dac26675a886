import EventQuery.Number.Binary64
import EventQuery.Number.Decimal

namespace EventQuery

/-!
# Shortest decimals

A number is written with the fewest decimal digits that read back as the same number.  The digits
are found by exact arithmetic on naturals: the reals that round to the number form an interval, and
the grids of one, two, three and more digits are tried in turn until one of the two grid points
beside the number lies in the interval.
-/

/--
The reals that round to one positive number.  The number itself is `middle / unit` and the ends are
`low / unit` and `high / unit`; the ends belong to the interval when `closed` holds.
-/
structure RoundingInterval where
  low : Nat
  middle : Nat
  high : Nat
  unit : Nat
  closed : Bool
  deriving Repr

namespace RoundingInterval

/--
The interval of a positive finite word reaches halfway to both neighbours.  Below a power of two the
lower neighbour is half as far away.  The ends round to the word exactly when its mantissa is even.
-/
def ofBinary64 (x : Binary64) : RoundingInterval :=
  let (mantissa, exponent) := x.scaled
  let narrow := x.fractionField == 0 && 1 < x.exponentField
  let factor := Nat.pow 2 (exponent - 2).toNat
  { low := (4 * mantissa - if narrow then 1 else 2) * factor
    middle := 4 * mantissa * factor
    high := (4 * mantissa + 2) * factor
    unit := Nat.pow 2 (2 - exponent).toNat
    closed := mantissa % 2 == 0 }

/-- Grid points of spacing `10 ^ exponent` are `count * step / unit` when bounds are times `lift`. -/
def lift (exponent : Int) : Nat := Nat.pow 10 (-exponent).toNat

/-- The numerator of one grid step over the unit, after lifting. -/
def step (interval : RoundingInterval) (exponent : Int) : Nat :=
  Nat.pow 10 exponent.toNat * interval.unit

/-- Whether a decimal lies in the interval, that is, whether it reads back as the number. -/
def contains (interval : RoundingInterval) (decimal : Decimal) : Bool :=
  let point := decimal.digits * interval.step decimal.exponent
  let low := interval.low * lift decimal.exponent
  let high := interval.high * lift decimal.exponent
  if interval.closed then low ≤ point && point ≤ high else low < point && point < high

/--
The grid point beside the number that reads back.  Of two such points the nearer is taken, and of
two equally near ones the larger.
-/
def onGrid (interval : RoundingInterval) (exponent : Int) : Option Decimal :=
  let middle := interval.middle * lift exponent
  let step := interval.step exponent
  let below : Decimal := ⟨middle / step, exponent⟩
  let above : Decimal := ⟨middle / step + 1, exponent⟩
  match interval.contains below, interval.contains above with
  | true, true => if 2 * middle < (2 * below.digits + 1) * step then some below else some above
  | true, false => some below
  | false, true => some above
  | false, false => none

/-- The least exponent whose power of ten exceeds the number. -/
def scale (interval : RoundingInterval) : Int :=
  if interval.unit ≤ interval.middle then
    (Nat.toDigits 10 (interval.middle / interval.unit)).length
  else
    let shift := (List.range 400).find? fun places =>
      interval.unit ≤ interval.middle * Nat.pow 10 places
    1 - (shift.getD 400 : Nat)

end RoundingInterval

namespace Decimal

/-- Trailing zeros of the digits move into the exponent, at most `fuel` of them. -/
def stripped (decimal : Decimal) : Nat → Decimal
  | 0 => decimal
  | fuel + 1 =>
      if decimal.digits ≠ 0 ∧ decimal.digits % 10 = 0 then
        stripped ⟨decimal.digits / 10, decimal.exponent + 1⟩ fuel
      else decimal

/-- The exact value of a finite word without its sign, with as many digits as that takes. -/
def exact (x : Binary64) : Decimal :=
  match x.scaled with
  | (mantissa, .ofNat exponent) => ⟨mantissa * Nat.pow 2 exponent, 0⟩
  | (mantissa, .negSucc exponent) => ⟨mantissa * Nat.pow 5 (exponent + 1), .negSucc exponent⟩

/-- The decimal of fewest digits that reads back as the magnitude of a finite word. -/
def shortest (x : Binary64) : Decimal :=
  if x.magnitude = 0 then ⟨0, 0⟩
  else
    let interval := RoundingInterval.ofBinary64 x
    let scale := interval.scale
    let found := (List.range 17).findSome? fun (count : Nat) => interval.onGrid (scale - 1 - count)
    (found.getD (exact x)).stripped 17

/-- Positional notation: no exponent is written, and a whole number carries no point. -/
def positional (decimal : Decimal) : String :=
  let digits := Nat.toDigits 10 decimal.digits
  match decimal.exponent with
  | .ofNat zeros => String.ofList (digits ++ List.replicate zeros '0')
  | .negSucc places =>
      let padded := List.replicate (places + 2 - digits.length) '0' ++ digits
      let whole := padded.length - (places + 1)
      String.ofList (padded.take whole ++ '.' :: padded.drop whole)

end Decimal

namespace Binary64

/-- The text of a number: the fewest digits that read back, in positional notation. -/
def text (x : Binary64) : String :=
  if x.isNaN then "NaN"
  else
    let sign := if x.isNegative then "-" else ""
    if x.isInfinite then sign ++ "inf" else sign ++ (Decimal.shortest x).positional

end Binary64

end EventQuery
