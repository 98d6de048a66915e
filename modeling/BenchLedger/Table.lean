/-! # Tables

A table is printed row by row, so the widths of its columns are fixed before. It is either laid out
for reading, with padded columns and a rule below the titles, or in plain form, with a tab between
two cells. The last column has no width.

* `Table.fitting`, `Table.fitting?`: the widths follow from the titles.
* `Table.titleRow`, `Table.dataRow`: the text of a row. -/

namespace BenchLedger

/-- The columns of a table. -/
structure Table where
  widths : List Nat
  titles : List String
  /-- Tabs instead of padding. -/
  plain : Bool
  deriving DecidableEq, Repr

namespace Table

/-- Why a row cannot be printed. -/
inductive Fault where
  | noCells
  | cellCount (widths cells : Nat)
  /-- The cells end before the columns do. -/
  | rowShort
  deriving DecidableEq, Repr

/-- The fault in words. -/
def Fault.message : Fault → String
  | noCells => "need at least 1 column"
  | cellCount widths cells =>
    "widths.len != row.len - 1: (" ++ widths.repr ++ ", " ++ cells.repr ++ ")"
  | rowShort => "row shorter than widths"

/-- A table whose columns are as wide as their titles and the gap. -/
def fitting (titles : List String) (gap : Nat) (plain : Bool) : Table :=
  ⟨titles.dropLast.map fun title => title.length + gap, titles, plain⟩

/-- The length in bytes of the longest text. -/
def maxText : Nat := 0x7FFFFFFFFFFFFFFF

/-- The table that fits some titles. There is none if a column is wider than a text can be long: the
program breaks off. -/
def fitting? (titles : List String) (gap : Nat) (plain : Bool) : Option Table :=
  let table := fitting titles gap plain
  if table.widths.all (· ≤ maxText) then some table else none

/-- Spaces that fill a cell of the given length to the width, one at least. -/
def padding (width length : Nat) : String :=
  String.ofList (List.replicate (max (width - length) 1) ' ')

/-- Cells with padding after all but the last. -/
def padded (paint : String → String) : List Nat → List String → String
  | width :: widths, cell :: cells =>
    paint cell ++ padding width cell.length ++ padded paint widths cells
  | _, cells => String.join (cells.map paint)

/-- The line of a row: one cell for each width and one more. -/
def row (table : Table) (paint : String → String) (cells : List String) : Except Fault String :=
  if cells = [] then .error .noCells
  else if table.widths.length + 1 ≠ cells.length then
    .error (.cellCount table.widths.length cells.length)
  else if table.plain then .ok ("\t".intercalate (cells.map paint) ++ "\n")
  else .ok (padded paint table.widths cells ++ "\n")

/-- Bold italic letters on a terminal. -/
def emphasized (text : String) : String := "\x1b[1;3m" ++ text ++ "\x1b[0m"

/-- The rule below the titles. -/
def rule (table : Table) : String :=
  let last := match table.titles.getLast? with
    | some title => title.length
    | none => 0
  String.ofList (List.replicate (table.widths.foldr (· + ·) 0 + last) '-')

/-- The titles, with a rule below them unless the table is plain. Titles of a plain table are never
emphasized. -/
def titleRow (table : Table) (color : Bool) : Except Fault String :=
  if table.plain then table.row id table.titles
  else (table.row (if color then emphasized else id) table.titles).map (· ++ table.rule ++ "\n")

/-- The line of some data. -/
def dataRow (table : Table) (cells : List String) : Except Fault String := table.row id cells

end Table

end BenchLedger
