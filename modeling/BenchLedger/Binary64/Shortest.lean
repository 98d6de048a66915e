import BenchLedger.Binary64.Reader

/-! # The fewest digits

A finite magnitude is written with the fewest digits that read back as the same magnitude, and of
the decimals with so few digits with the nearest; of two equally near ones with the larger.

Every finite magnitude is a whole number of units of `10 ^ -1074`. On the grid of the multiples of
`10 ^ (k - 1074)` only the two neighbours of the value can be nearest, so the search walks from a
coarse grid down to the first that has a neighbour which reads back. On the grid of `k = 0` the
value itself is one. -/

namespace BenchLedger

/-- A decimal: `digits * 10 ^ exponent`. -/
structure Decimal where
  digits : Nat
  exponent : Int
  deriving DecidableEq, Repr

namespace Magnitude

/-- The value in units of `10 ^ -1074`. -/
def decimalUnits (m : Magnitude) : Nat := m.units * Nat.pow 5 1074

/-- The decimal reads back as the magnitude. -/
def readsBack (m : Magnitude) (d : Decimal) : Bool := ofDecimal d.digits d.exponent = m

/-- The neighbour of the value on the grid of `10 ^ (k - 1074)` that reads back, the nearer if both
do. -/
def onGrid? (m : Magnitude) (k : Nat) : Option Decimal :=
  let step := Nat.pow 10 k
  let low : Decimal := ⟨m.decimalUnits / step, k - 1074⟩
  let high : Decimal := ⟨m.decimalUnits / step + 1, k - 1074⟩
  let nearer := if 2 * (m.decimalUnits % step) < step then low else high
  let farther := if 2 * (m.decimalUnits % step) < step then high else low
  if m.readsBack nearer then some nearer
  else if m.readsBack farther then some farther
  else none

/-- The decimal on the first grid, from that of `k` downwards, with a neighbour that reads back. -/
def coarsest (m : Magnitude) : Nat → Decimal
  | 0 => ⟨m.decimalUnits, -1074⟩
  | k + 1 => (m.onGrid? (k + 1)).getD (m.coarsest k)

/-- The decimal with the fewest digits that reads back. -/
def shortest (m : Magnitude) : Decimal :=
  if m.rank = 0 then ⟨0, 0⟩ else m.coarsest (Nat.toDigits 10 m.decimalUnits).length

end Magnitude

end BenchLedger
