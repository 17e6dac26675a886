namespace EventQuery

/-!
# Binary64 numbers

Floating-point values are held as their 64-bit words.  The word keeps what a grouping key and a
total order can tell apart: the sign of zero, and the sign and payload of a NaN.  Arithmetic on
numbers is the correctly rounded arithmetic of `Float`; this module adds the rules for NaN
operands, the two orders, and the conversions from and to 64-bit integers.
-/

/-- A floating-point number, given by its 64-bit word. -/
structure Binary64 where
  bits : UInt64
  deriving DecidableEq, Repr, Inhabited

namespace Binary64

/-- The bit that carries the sign. -/
def signMask : UInt64 := 0x8000000000000000

/-- The bit that marks a NaN as quiet. -/
def quietMask : UInt64 := 0x0008000000000000

/-- The magnitude of the infinities: every larger magnitude is a NaN. -/
def infiniteMagnitude : Nat := 0x7FF0000000000000

/-- The word of a machine number. -/
def ofFloat (number : Float) : Binary64 := ⟨number.toBits⟩

/-- The machine number of a word.  All NaN words become the same number. -/
def toFloat (x : Binary64) : Float := Float.ofBits x.bits

/-- Whether the sign bit is set. -/
def isNegative (x : Binary64) : Bool := x.bits &&& signMask != 0

/-- The word without its sign bit, as a number.  Magnitudes order as absolute values do. -/
def magnitude (x : Binary64) : Nat := (x.bits &&& 0x7FFFFFFFFFFFFFFF).toNat

/-- Whether the word stands for no number. -/
def isNaN (x : Binary64) : Bool := infiniteMagnitude < x.magnitude

/-- Whether the word is one of the two infinities. -/
def isInfinite (x : Binary64) : Bool := x.magnitude == infiniteMagnitude

/-- The number zero without a sign. -/
def zero : Binary64 := ⟨0⟩

/-- The number zero with a sign, the neutral element of addition. -/
def negativeZero : Binary64 := ⟨signMask⟩

/-- The NaN that an invalid operation on numbers yields. -/
def invalid : Binary64 := ⟨0xFFF8000000000000⟩

/-- A NaN that passes through an operation becomes quiet. -/
def quieted (x : Binary64) : Binary64 := ⟨x.bits ||| quietMask⟩

/-- The sign is turned, for NaN words too. -/
def neg (x : Binary64) : Binary64 := ⟨x.bits ^^^ signMask⟩

/-- A NaN operand is passed on, the left one first; otherwise the rounded result counts. -/
def combine (operation : Float → Float → Float) (x y : Binary64) : Binary64 :=
  if x.isNaN then x.quieted
  else if y.isNaN then y.quieted
  else
    let result := ofFloat (operation x.toFloat y.toFloat)
    if result.isNaN then invalid else result

/-- The rounded sum. -/
def add (x y : Binary64) : Binary64 := combine (· + ·) x y

/-- The rounded difference. -/
def sub (x y : Binary64) : Binary64 := combine (· - ·) x y

/-- The rounded product. -/
def mul (x y : Binary64) : Binary64 := combine (· * ·) x y

/-- The rounded quotient. -/
def div (x y : Binary64) : Binary64 := combine (· / ·) x y

/-- The rounded square root. -/
def sqrt (x : Binary64) : Binary64 :=
  if x.isNaN then x.quieted
  else
    let result := ofFloat x.toFloat.sqrt
    if result.isNaN then invalid else result

instance : Add Binary64 := ⟨add⟩
instance : Sub Binary64 := ⟨sub⟩
instance : Mul Binary64 := ⟨mul⟩
instance : Div Binary64 := ⟨div⟩
instance : Neg Binary64 := ⟨neg⟩

/-- The number nearest to an integer, a tie going to the even word. -/
def ofInt (n : Int) : Binary64 := ofFloat (Float.ofInt n)

/-- The exponent field, which places the binary point. -/
def exponentField (x : Binary64) : Nat := x.magnitude / Nat.pow 2 52

/-- The fraction field, the digits after the leading one. -/
def fractionField (x : Binary64) : Nat := x.magnitude % Nat.pow 2 52

/-- A magnitude as `mantissa * 2 ^ exponent`, for every word that is a number. -/
def scaled (x : Binary64) : Nat × Int :=
  if x.exponentField = 0 then (x.fractionField, -1074)
  else (Nat.pow 2 52 + x.fractionField, (x.exponentField : Int) - 1075)

/-- The integer part of the absolute value. -/
def wholePart (x : Binary64) : Nat :=
  match x.scaled with
  | (mantissa, .ofNat shift) => mantissa * Nat.pow 2 shift
  | (mantissa, .negSucc shift) => mantissa / Nat.pow 2 (shift + 1)

/-- The integer toward zero, held at the ends of the 64-bit range; a NaN gives zero. -/
def truncate (x : Binary64) : Int64 :=
  if x.isNaN then 0
  else if x.isNegative then
    if Nat.pow 2 63 ≤ x.wholePart then Int64.minValue else Int64.ofInt (-x.wholePart)
  else
    if Nat.pow 2 63 ≤ x.wholePart then Int64.maxValue else Int64.ofInt x.wholePart

/-- The place of a number on the line; both zeros stand at the same place. -/
def place (x : Binary64) : Int :=
  if x.isNegative then -(x.magnitude : Int) else x.magnitude

/-- The order of numbers; a NaN compares with nothing. -/
def compare? (x y : Binary64) : Option Ordering :=
  if x.isNaN || y.isNaN then none else some (compare x.place y.place)

/-- Equality of numbers: a NaN differs from itself and both zeros are equal. -/
def equals (x y : Binary64) : Bool := x.compare? y == some .eq

/-- Whether the first number is strictly below the second. -/
def below (x y : Binary64) : Bool := x.compare? y == some .lt

/-- The place of a word in the total order of words, in which negative zero precedes zero. -/
def totalPlace (x : Binary64) : Int :=
  if x.isNegative then -(x.magnitude : Int) - 1 else x.magnitude

/-- The total order of words: NaN words stand outside the infinities, on the side of their sign. -/
def totalCompare (x y : Binary64) : Ordering := compare x.totalPlace y.totalPlace

end Binary64

end EventQuery
