import BenchLedger.Ledger.Basic
import BenchLedger.Binary64.Printer

/-! # The text of a ledger

A heading, then a line for each row: the four fields of the key, the mean, the mark and the spread,
with one space between two of them. -/

namespace BenchLedger.Ledger

/-- The names of the columns. -/
def heading : String := "DS OP is_optimized heapsize y pm y-err"

/-- The fields of a key with spaces between them. -/
def Key.text (key : Key) : String :=
  key.dataset ++ " " ++ key.operation ++ " " ++ key.isOptimized ++ " " ++ key.heapsize

/-- A number as the columns show it. -/
def numberText (x : Binary64) : String := String.ofList (x.text .column)

/-- The line of a row. -/
def Row.text (row : Row) : String :=
  row.key.text ++ " " ++ numberText row.mean ++ " " ++ row.mark ++ " " ++ numberText row.spread

/-- The text of the whole ledger. -/
def text (ledger : Ledger) : String :=
  heading ++ "\n" ++ String.join (ledger.rows.map fun row => row.text ++ "\n")

end BenchLedger.Ledger
