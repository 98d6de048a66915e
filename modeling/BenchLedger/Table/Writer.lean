import BenchLedger.Table

/-! # Writing a table

A row is written piece by piece to an output, which keeps what it was given when the writing stops
before its end. The spaces after the cells are cut from spaces that a table makes once, as many as
its widest column has. The output takes each piece: what comes of one that fails is not told here,
though any write can fail.

* `Table.writeRow`: a row, checked before its first piece.
* `Table.writeTitles`, `Table.writeData`: the rows that are asked for. -/

namespace BenchLedger.Table

/-- Why writing stops before its end. -/
inductive Stop where
  | fault (fault : Fault)
  /-- More spaces are to be cut than there are: the program breaks off. -/
  | spacesShort
  deriving DecidableEq, Repr

/-- Work that adds to an output. -/
abbrev Writer := ExceptT Stop (StateM String)

/-- How the work ends on an output, and the output after it. -/
def Writer.on (work : Writer Unit) (output : String) : Except Stop Unit × String :=
  work.run.run output

/-- A piece of text. -/
def emit (text : String) : Writer Unit := modify (· ++ text)

/-- The spaces that padding is cut from. -/
def spaces (table : Table) : List Char := List.replicate (table.widths.foldr max 0) ' '

/-- The first of the spaces. -/
def emitSpaces (table : Table) (count : Nat) : Writer Unit :=
  if count ≤ table.spaces.length then emit (String.ofList (table.spaces.take count))
  else throw .spacesShort

/-- A tab between two cells of a plain row. -/
def writeTab (table : Table) (index : Nat) : Writer Unit :=
  if table.plain ∧ 0 < index then emit "\t" else pure ()

/-- What stands between a cell and the next column. -/
def writePadding (table : Table) (width length : Nat) : Writer Unit :=
  if table.plain then pure ()
  else if length < width then table.emitSpaces (width - length)
  else emit " "

/-- The cells from an index on, each with the width of its column as long as there is one. -/
def writeCells (table : Table) (paint : String → String) :
    Nat → List Nat → List String → Writer Unit
  | _, [], [] => pure ()
  | index, _ :: _, [] => do
    table.writeTab index
    throw (.fault .rowShort)
  | index, [], cell :: cells => do
    table.writeTab index
    emit (paint cell)
    writeCells table paint (index + 1) [] cells
  | index, width :: widths, cell :: cells => do
    table.writeTab index
    emit (paint cell)
    table.writePadding width cell.length
    writeCells table paint (index + 1) widths cells

/-- A row, if it has one cell for each width and one more. -/
def writeRow (table : Table) (paint : String → String) (cells : List String) : Writer Unit :=
  if cells = [] then throw (.fault .noCells)
  else if table.widths.length ≠ cells.length - 1 then
    throw (.fault (.cellCount table.widths.length cells.length))
  else do
    table.writeCells paint 0 table.widths cells
    emit "\n"

/-- The titles, with a rule below them unless the table is plain. -/
def writeTitles (table : Table) (color : Bool) : Writer Unit :=
  if table.plain then table.writeRow id table.titles
  else do
    table.writeRow (if color then emphasized else id) table.titles
    emit (table.rule ++ "\n")

/-- Some data. -/
def writeData (table : Table) (cells : List String) : Writer Unit := table.writeRow id cells

end BenchLedger.Table
