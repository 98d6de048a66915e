/-! # Binary floating point numbers of 64 bits

A magnitude is known by its *rank*: the magnitudes in increasing order are those of rank
`0, 1, 2, …`, up to infinity. Ranks below `2 ^ 52` are the subnormal ones, one unit of `2 ^ -1074`
apart; after them every `2 ^ 52` ranks the distance doubles. Infinity stands where the next
magnitude, `2 ^ 1024`, would stand, so rounding to the nearest magnitude also says which values are
too large to be finite.

* `Magnitude.units`: the value of a magnitude, in units of `2 ^ -1074`.
* `Magnitude.nearest`: the magnitude nearest to a quotient of such units, of two equally near ones
  that of even rank.
* `Binary64`: a signed magnitude, or no number at all. -/

namespace BenchLedger

/-- The rank of infinity. -/
def infinityRank : Nat := 2047 * Nat.pow 2 52

/-- The size of a number, by its place among all sizes. -/
structure Magnitude where
  rank : Nat
  rank_le : rank ≤ infinityRank
  deriving DecidableEq, Repr

namespace Magnitude

/-- The number of times that the distance between neighbours has doubled. -/
def doublings (m : Magnitude) : Nat := m.rank / Nat.pow 2 52 - 1

/-- The value in units of `2 ^ -1074`. -/
def units (m : Magnitude) : Nat :=
  (m.rank - m.doublings * Nat.pow 2 52) * Nat.pow 2 m.doublings

/-- No size. -/
def zero : Magnitude := ⟨0, Nat.zero_le _⟩

/-- Above every finite size. -/
def infinity : Magnitude := ⟨infinityRank, Nat.le_refl _⟩

/-- Below infinity. -/
def isFinite (m : Magnitude) : Bool := m.rank < infinityRank

/-- The whole number nearest to a quotient, the even one of two that are equally near. -/
def roundDiv (num den : Nat) : Nat :=
  let whole := num / den
  let rest := num % den
  if 2 * rest < den then whole
  else if den < 2 * rest then whole + 1
  else whole + whole % 2

/-- The rank of the magnitude nearest to `num / den` units. -/
def nearestRank (num den : Nat) : Nat :=
  let doublings := (num / den).log2 - 52
  min (doublings * Nat.pow 2 52 + roundDiv num (den * Nat.pow 2 doublings)) infinityRank

/-- The magnitude nearest to `num / den` units. -/
def nearest (num den : Nat) : Magnitude := ⟨nearestRank num den, Nat.min_le_right _ _⟩

end Magnitude

/-- A number of 64 bits. There is one value that is no number, whatever operation led to it. -/
inductive Binary64 where
  /-- No number. -/
  | nan
  /-- A size with a sign; zero has two. -/
  | signed (negative : Bool) (size : Magnitude)
  deriving DecidableEq, Repr

namespace Binary64

instance : Inhabited Binary64 := ⟨signed false Magnitude.zero⟩

/-- Zero without a minus sign. -/
def zero : Binary64 := signed false Magnitude.zero

/-- A number of finite size. -/
def isFinite : Binary64 → Bool
  | nan => false
  | signed _ size => size.isFinite

/-- The value of a finite number in units of `2 ^ -1074`. -/
def units : Binary64 → Int
  | nan => 0
  | signed negative size => if negative then -(size.units : Int) else size.units

end Binary64

end BenchLedger
