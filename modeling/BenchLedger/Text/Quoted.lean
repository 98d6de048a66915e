import BenchLedger.Text.Shapeless
import BenchLedger.Text.ExtendingMark

/-! # Quoted text

A text in double quotes, as messages show names and input. A quotation mark and a backslash take a
backslash, and so do the controls with a letter of their own; every other character that has no
shape, that attaches to the one before, or that may be shown as nothing, is written as its code
point in hexadecimal. An apostrophe stays as it is. -/

namespace BenchLedger.Text

/-- A number in lower-case hexadecimal, without leading zeros. -/
def hexadecimal (n : Nat) : List Char := Nat.toDigits 16 n

/-- A reader would not see the character as it stands, or would see it as part of the one before. -/
def isElusive (c : Char) : Bool :=
  shapeless.holds c || extendingMarks.holds c || ignorable.holds c

/-- One character inside the quotation marks. -/
def escaped (c : Char) : List Char :=
  if c = '\x00' then ['\\', '0']
  else if c = '\t' then ['\\', 't']
  else if c = '\n' then ['\\', 'n']
  else if c = '\r' then ['\\', 'r']
  else if c = '"' || c = '\\' then ['\\', c]
  else if isElusive c then ['\\', 'u', '\x7b'] ++ hexadecimal c.toNat ++ ['\x7d']
  else [c]

/-- The text in double quotes. -/
def quoted (text : String) : String :=
  String.ofList ('"' :: text.toList.flatMap escaped ++ ['"'])

end BenchLedger.Text
