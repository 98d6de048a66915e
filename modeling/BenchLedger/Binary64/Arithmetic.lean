import BenchLedger.Binary64.Basic

/-! # Sum, half and distance

Each operation gives the magnitude nearest to the exact result. A sum of zero has a minus sign only
if both terms have one. Opposite infinities have no sum. -/

namespace BenchLedger.Binary64

/-- The number with the other sign. -/
def neg : Binary64 → Binary64
  | nan => nan
  | signed negative size => signed (!negative) size

/-- The number without its sign. -/
def abs : Binary64 → Binary64
  | nan => nan
  | signed _ size => signed false size

/-- The number nearest to a whole count of units; `minusZero` is the sign of an exact zero. -/
def ofUnits (minusZero : Bool) (units : Int) : Binary64 :=
  signed (if units = 0 then minusZero else decide (units < 0)) (Magnitude.nearest units.natAbs 1)

/-- The sum. -/
def add : Binary64 → Binary64 → Binary64
  | nan, _ => nan
  | signed _ _, nan => nan
  | signed s a, signed t b =>
    if a.isFinite && b.isFinite then
      ofUnits (s && t) ((signed s a).units + (signed t b).units)
    else if a.isFinite then signed t b
    else if b.isFinite || s == t then signed s a
    else nan

/-- The difference. -/
def sub (x y : Binary64) : Binary64 := x.add y.neg

/-- Half of the number. -/
def half : Binary64 → Binary64
  | nan => nan
  | signed s a => signed s (if a.isFinite then Magnitude.nearest a.units 2 else a)

/-- The mean of two numbers: half of their rounded sum. -/
def mean (x y : Binary64) : Binary64 := (x.add y).half

/-- How far apart two numbers are. -/
def distance (x y : Binary64) : Binary64 := (x.sub y).abs

end BenchLedger.Binary64
