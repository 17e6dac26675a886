import EventQuery.Number.Binary64

namespace EventQuery

/-!
# Running spread

The mean and the sum of squared deviations of a sample, kept up to date as numbers join and leave it
without holding the numbers.
-/

/-- The running mean and sum of squared deviations. -/
structure Spread where
  count : Nat
  mean : Binary64
  squares : Binary64
  deriving Repr, Inhabited

namespace Spread

/-- The spread of no numbers. -/
def empty : Spread := ⟨0, .zero, .zero⟩

/-- A number joins the sample. -/
def insert (spread : Spread) (number : Binary64) : Spread :=
  let count := spread.count + 1
  let before := number - spread.mean
  let mean := spread.mean + before / Binary64.ofInt count
  let after := number - mean
  ⟨count, mean, spread.squares + before * after⟩

/-- What is not above zero, or is no number, becomes zero. -/
def atLeastZero (number : Binary64) : Binary64 :=
  if number.isNaN || number.below .zero then .zero else number

/-- A number leaves the sample; with the last number nothing is left over. -/
def erase (spread : Spread) (number : Binary64) : Spread :=
  if spread.count ≤ 1 then empty
  else
    let count := spread.count - 1
    let before := number - spread.mean
    let mean := spread.mean - before / Binary64.ofInt count
    let after := number - mean
    ⟨count, mean, atLeastZero (spread.squares - before * after)⟩

/-- The standard deviation of the sample, which takes two numbers. -/
def deviation? (spread : Spread) : Option Binary64 :=
  if spread.count < 2 then none
  else some (spread.squares / Binary64.ofInt (spread.count - 1 : Nat)).sqrt

end Spread

end EventQuery
