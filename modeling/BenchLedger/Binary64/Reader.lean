import BenchLedger.Binary64.Basic
import BenchLedger.Text.Digit

/-! # Reading numbers

A number is an optional sign and then digits with at most one point among or around them and an
optional exponent, or one of the words `inf`, `infinity` and `nan` in any case. At least one digit
is needed, in the exponent also. The value is the number nearest to the decimal; one too large is
infinite. -/

namespace BenchLedger

/-- The magnitude nearest to `digits * 10 ^ exponent`. Exponents beyond the bounds give the same
magnitude as the bounds themselves: infinity above, zero below. -/
def Magnitude.ofDecimal (digits : Nat) (exponent : Int) : Magnitude :=
  let lowest : Int := -(digits.log2 + 331 : Nat)
  match max lowest (min exponent 400) with
  | .ofNat up => nearest (digits * Nat.pow 10 up * Nat.pow 2 1074) 1
  | .negSucc down => nearest (digits * Nat.pow 2 1074) (Nat.pow 10 (down + 1))

namespace Binary64

open Text

/-- The value of a run of digits. -/
def valueOf (run : List Char) : Nat :=
  run.foldl (fun value c => 10 * value + (c.toNat - '0'.toNat)) 0

/-- A whole number with an optional sign: the digits of an exponent. -/
def readExponent? (text : List Char) : Option Int :=
  let run? (run : List Char) : Option Nat :=
    if run ≠ [] ∧ run.all Char.isDigit then some (valueOf run) else none
  match text with
  | '-' :: run => (run? run).map fun n => -(n : Int)
  | '+' :: run => (run? run).map fun n => (n : Int)
  | run => (run? run).map fun n => (n : Int)

/-- What follows the digits: nothing, or an exponent. -/
def readScale? : List Char → Option Int
  | [] => some 0
  | c :: text => if c = 'e' ∨ c = 'E' then readExponent? text else none

/-- A decimal without a sign. -/
def readDecimal? (text : List Char) : Option Magnitude :=
  let whole := text.takeWhile Char.isDigit
  let rest := text.dropWhile Char.isDigit
  let fraction := if rest.head? = some '.' then rest.tail.takeWhile Char.isDigit else []
  let rest := if rest.head? = some '.' then rest.tail.dropWhile Char.isDigit else rest
  if whole ++ fraction = [] then none
  else (readScale? rest).map fun scale =>
    Magnitude.ofDecimal (valueOf (whole ++ fraction)) (scale - fraction.length)

/-- A number without a sign, given the sign it had. -/
def readUnsigned? (negative : Bool) (text : List Char) : Option Binary64 :=
  let word := text.map Char.toLower
  if word = "inf".toList ∨ word = "infinity".toList then some (signed negative .infinity)
  else if word = "nan".toList then some nan
  else (readDecimal? text).map (signed negative)

/-- The number that a text spells. -/
def read? : List Char → Option Binary64
  | '-' :: text => readUnsigned? true text
  | '+' :: text => readUnsigned? false text
  | text => readUnsigned? false text

end Binary64

end BenchLedger
