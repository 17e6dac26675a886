namespace EventQuery

/-!
# Decimal numbers

Digits with a power of ten.  A decimal number is read as the nearest number of 64 bits, and as
infinity from halfway between the greatest finite one and the power of two behind it on.
-/

/-- The decimal number `digits * 10 ^ exponent`. -/
structure Decimal where
  digits : Nat
  exponent : Int
  deriving DecidableEq, Repr

namespace Decimal

/-- The least number that is read as infinity. -/
def overflowBound : Nat := (Nat.pow 2 54 - 1) * Nat.pow 2 970

/--
Whether a decimal number is read as infinity.  The bound has 309 digits, so that only numbers with
as many are compared with it digit by digit.
-/
def overflows (decimal : Decimal) : Bool :=
  let places := (Nat.toDigits 10 decimal.digits).length + decimal.exponent
  if decimal.digits = 0 || places < 309 then false
  else if places > 309 then true
  else
    overflowBound * Nat.pow 10 (-decimal.exponent).toNat ≤
      decimal.digits * Nat.pow 10 decimal.exponent.toNat

end Decimal

end EventQuery
