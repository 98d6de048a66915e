import BenchLedger.Ledger.Basic
import BenchLedger.Binary64.Reader
import BenchLedger.Text.Lines
import BenchLedger.Text.Words
import BenchLedger.Text.Quoted

/-! # Reading a ledger

The first line is the heading, whatever it says. Lines of white space are passed over. Every other
line is a row of seven words, of which the fifth and the seventh are numbers. The first line that is
none is reported, with its number in the whole text. -/

namespace BenchLedger.Ledger

/-- The columns that hold numbers. -/
inductive Column where
  | mean
  | spread
  deriving DecidableEq, Repr

/-- The name of a column in the heading. -/
def Column.name : Column → String
  | mean => "y"
  | spread => "y-err"

/-- What is wrong with a line. -/
inductive RowFault where
  /-- It has not seven words. -/
  | fieldCount (line count : Nat) (text : String)
  /-- A column of numbers holds something else. -/
  | badNumber (line : Nat) (column : Column) (text : String)
  deriving DecidableEq, Repr

/-- The fault in words. -/
def RowFault.message : RowFault → String
  | fieldCount line count text =>
    "line " ++ line.repr ++ ": expected 7 fields, got " ++ count.repr ++ ": " ++ Text.quoted text
  | badNumber line column text =>
    "line " ++ line.repr ++ ": invalid number " ++ Text.quoted text ++ " in column " ++
      Text.quoted column.name ++ ": invalid float literal"

/-- The number in a column. -/
def readNumber (line : Nat) (column : Column) (word : List Char) : Except RowFault Binary64 :=
  match Binary64.read? word with
  | some x => .ok x
  | none => .error (.badNumber line column (String.ofList word))

/-- The row of a line; `line` is the line's number, for messages. -/
def Row.read (line : Nat) (text : List Char) : Except RowFault Row :=
  match Text.words text with
  | [dataset, operation, isOptimized, heapsize, mean, mark, spread] => do
    let key : Key := ⟨String.ofList dataset, String.ofList operation, String.ofList isOptimized,
      String.ofList heapsize⟩
    let mean ← readNumber line .mean mean
    let spread ← readNumber line .spread spread
    return ⟨key, mean, String.ofList mark, spread⟩
  | words => .error (.fieldCount line words.length (String.ofList text))

/-- The lines that hold rows, with their numbers: those after the first with something in them. -/
def rowLines (text : List Char) : List (List Char × Nat) :=
  (((Text.lines text).zipIdx 1).drop 1).filter fun line => !Text.isBlankLine line.1

/-- The ledger that a text spells. -/
def read (text : String) : Except RowFault Ledger := do
  let rows ← (rowLines text.toList).mapM fun line => Row.read line.2 line.1
  return ⟨rows⟩

end BenchLedger.Ledger
