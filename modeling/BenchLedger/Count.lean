import BenchLedger.Text.Digit

/-! # Counts

A count is a whole number below `2 ^ 64`, written in ASCII digits, with a plus sign before them or
none. A text that is no count is reported by the first character from the left that spoils it. -/

namespace BenchLedger

/-- Why a text is no count. -/
inductive CountFault where
  | empty
  | badDigit
  | tooLarge
  deriving DecidableEq, Repr

/-- The fault in words. -/
def CountFault.message : CountFault → String
  | empty => "cannot parse integer from empty string"
  | badDigit => "invalid digit found in string"
  | tooLarge => "number too large to fit in target type"

namespace Count

/-- The number of the digits so far and the digits that follow. -/
def readDigits (value : Nat) : List Char → Except CountFault Nat
  | [] => .ok value
  | c :: text =>
    match Text.digitValue? c with
    | none => .error .badDigit
    | some digit =>
      if 10 * value + digit < 2 ^ 64 then readDigits (10 * value + digit) text
      else .error .tooLarge

/-- The count that a text spells. -/
def read : List Char → Except CountFault UInt64
  | [] => .error .empty
  | ['+'] => .error .badDigit
  | '+' :: text => (readDigits 0 text).map UInt64.ofNat
  | text => (readDigits 0 text).map UInt64.ofNat

/-- The digits of a count. -/
def text (n : UInt64) : String := n.toNat.repr

end Count

end BenchLedger
