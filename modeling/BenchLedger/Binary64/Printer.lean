import BenchLedger.Binary64.Shortest

/-! # Writing numbers

The digits of a number are the fewest that read back; where the point and the exponent go is a
matter of style. A number with its point in place is written without an exponent if the style says
so for the place of its first digit; otherwise the point follows the first digit, and the exponent
follows a letter `e`, without a plus sign. -/

namespace BenchLedger

/-- How numbers are laid out. -/
structure NumberStyle where
  /-- The first digit has this place: written without an exponent. -/
  positional : Int → Bool
  /-- A whole number ends in `.0`. -/
  wholePoint : Bool

/-- Columns of numbers: without an exponent from `0.0001` up to below `10 ^ 16`, and always with a
point there. -/
def NumberStyle.column : NumberStyle := ⟨fun place => -4 ≤ place && place < 16, true⟩

/-- Numbers in a sentence: never an exponent, and no point after a whole number. -/
def NumberStyle.prose : NumberStyle := ⟨fun _ => true, false⟩

namespace Decimal

/-- The digits, without an exponent. -/
def positional (style : NumberStyle) (d : Decimal) : List Char :=
  let run := Nat.toDigits 10 d.digits
  let point : Int := run.length + d.exponent
  if point ≤ 0 then
    ['0', '.'] ++ List.replicate (-point).toNat '0' ++ run
  else if point < run.length then
    run.take point.toNat ++ '.' :: run.drop point.toNat
  else
    run ++ List.replicate d.exponent.toNat '0' ++ (if style.wholePoint then ['.', '0'] else [])

/-- A whole number, with a minus sign if it is negative. -/
def signedWhole (n : Int) : List Char :=
  if n < 0 then '-' :: Nat.toDigits 10 n.natAbs else Nat.toDigits 10 n.natAbs

/-- The digits with the point after the first, and an exponent. -/
def scientific (d : Decimal) : List Char :=
  let run := Nat.toDigits 10 d.digits
  let fraction := if run.length ≤ 1 then [] else '.' :: run.drop 1
  run.take 1 ++ fraction ++ 'e' :: signedWhole (run.length - 1 + d.exponent)

/-- The decimal in the given style. -/
def text (style : NumberStyle) (d : Decimal) : List Char :=
  if style.positional ((Nat.toDigits 10 d.digits).length - 1 + d.exponent) then d.positional style
  else d.scientific

end Decimal

namespace Binary64

/-- The number in the given style. -/
def text (style : NumberStyle) : Binary64 → List Char
  | nan => "NaN".toList
  | signed negative size =>
    (if negative then ['-'] else []) ++
      (if size.isFinite then size.shortest.text style else "inf".toList)

end Binary64

end BenchLedger
