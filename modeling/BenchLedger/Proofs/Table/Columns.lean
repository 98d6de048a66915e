import BenchLedger.Proofs.Table.Rows
import Mathlib.Algebra.GroupWithZero.Nat

/-! # Columns

A row laid out for reading is its cells with a gap after each but the last (`weave`, `gaps`). A gap
fills the column of its cell, or is one space where the cell does not fit, so a cell begins where
the columns before it end, each at least one place longer than its cell (`column`, `begins_column`).
Cells that fit therefore stand below each other (`column_of_fits`), and cells without spaces are
read back between the runs of spaces (`fieldsOf_weave`). -/

namespace BenchLedger.Table

variable {table : Table} {cells : List String} {widths : List ℕ} {i : ℕ}

/-- Texts one after the other, with the gaps between them. -/
def weave : List String → List String → String
  | text :: texts, gap :: gaps => text ++ gap ++ weave texts gaps
  | texts, _ => String.join texts

/-- The gaps after the cells of a row: what a column has left, and one space at least. -/
def gaps (widths : List ℕ) (cells : List String) : List String :=
  List.zipWith (fun width cell => padding width cell.length) widths cells

/-- **Where a cell begins**: after the columns before it, each longer than its cell. -/
def column (widths : List ℕ) (cells : List String) (i : ℕ) : ℕ :=
  ((List.zipWith (fun width cell => max width (cell.length + 1)) widths cells).take i).sum

/-- All cells but the last are shorter than their columns. -/
def Fits (widths : List ℕ) (cells : List String) : Prop :=
  ∀ pair ∈ widths.zip cells, pair.2.length < pair.1

instance (widths : List ℕ) (cells : List String) : Decidable (Fits widths cells) :=
  List.decidableBAll _ _

/-- **The cell begins so many characters after the beginning** of its line, which is the cells
before it with the gaps after them, and then the cell and what follows. -/
structure Begins (cells gaps : List String) (i place : ℕ) : Prop where
  length_before : (weave (cells.take i) (gaps.take i)).length = place
  line : weave cells gaps = weave (cells.take i) (gaps.take i) ++ weave (cells.drop i) (gaps.drop i)

/-- The pieces of a line between its runs of spaces. -/
def fieldsOf (line : List Char) : List (List Char) := (line.splitOn ' ').filter (· ≠ [])

/-! ### The text of a row -/

theorem weave_cons (text gap : String) (texts gaps : List String) :
    weave (text :: texts) (gap :: gaps) = text ++ gap ++ weave texts gaps := rfl

theorem weave_singleton (text : String) : weave [text] [] = text :=
  String.join_cons.trans String.append_empty

theorem gaps_cons (width : ℕ) (widths : List ℕ) (cell : String) (cells : List String) :
    gaps (width :: widths) (cell :: cells) = padding width cell.length :: gaps widths cells := rfl

theorem padded_eq_weave (paint : String → String) (h : Covers cells widths) :
    padded paint widths cells = weave (cells.map paint) (gaps widths cells) := by
  induction h with
  | last cell => rfl
  | cons cell width _ ih =>
    rw [padded, ih]
    rfl

theorem row_eq_weave (hlaid : table.plain = false) (paint : String → String)
    (h : cells.length = table.widths.length + 1) :
    table.row paint cells =
      .ok (weave (cells.map paint) (gaps table.widths cells) ++ "\n") := by
  rw [row_eq h, if_neg (Bool.eq_false_iff.mp hlaid), padded_eq_weave paint (covers_of_length h)]

theorem writes_data (hlaid : table.plain = false) (h : cells.length = table.widths.length + 1) :
    Writes (table.writeData cells) (weave cells (gaps table.widths cells) ++ "\n") := by
  intro output
  rw [writeData, on_writeRow, row_eq_weave hlaid id h, List.map_id]

/-! ### Places -/

theorem length_padding (width length : ℕ) :
    (padding width length).length = max (width - length) 1 := by
  rw [padding, String.length_ofList, List.length_replicate]

theorem length_cell_padding (width length : ℕ) :
    length + (padding width length).length = max width (length + 1) := by
  rw [length_padding]
  omega

theorem column_succ (width : ℕ) (widths : List ℕ) (cell : String) (cells : List String) (i : ℕ) :
    column (width :: widths) (cell :: cells) (i + 1) =
      max width (cell.length + 1) + column widths cells i := by
  rw [column, List.zipWith_cons_cons, List.take_succ_cons, List.sum_cons]
  rfl

theorem begins_zero (cells gaps : List String) : Begins cells gaps 0 0 :=
  ⟨rfl, String.empty_append.symm⟩

theorem Begins.cons {gaps : List String} {place : ℕ} (h : Begins cells gaps i place)
    (cell gap : String) :
    Begins (cell :: cells) (gap :: gaps) (i + 1) (cell.length + gap.length + place) := by
  constructor
  · rw [List.take_succ_cons, List.take_succ_cons, weave_cons, String.length_append,
      String.length_append, h.length_before]
  · rw [List.take_succ_cons, List.take_succ_cons, List.drop_succ_cons, List.drop_succ_cons,
      weave_cons, weave_cons, h.line, String.append_assoc, String.append_assoc, String.append_assoc]

/-- **A cell begins at its column.** -/
theorem begins_column (h : Covers cells widths) (hi : i < cells.length) :
    Begins cells (gaps widths cells) i (column widths cells i) := by
  induction h generalizing i with
  | last cell =>
    obtain rfl : i = 0 := Nat.lt_one_iff.mp hi
    exact begins_zero [cell] _
  | cons cell width _ ih =>
    cases i with
    | zero => exact begins_zero _ _
    | succ i =>
      have hrest := (ih (Nat.lt_of_succ_lt_succ hi)).cons cell (padding width cell.length)
      rwa [length_cell_padding, ← column_succ] at hrest

/-- **Cells that fit begin where their columns do**, whatever their lengths. -/
theorem column_of_fits (h : Covers cells widths) (hfits : Fits widths cells) (i : ℕ) :
    column widths cells i = (widths.take i).sum := by
  have hzip : List.zipWith (fun width cell => max width (String.length cell + 1)) widths cells =
      widths := by
    induction h with
    | last cell => rfl
    | cons cell width _ ih =>
      obtain ⟨hcell, hcells⟩ := List.forall_mem_cons.mp hfits
      rw [List.zipWith_cons_cons, ih hcells, max_eq_left hcell]
  rw [column, hzip]

/-! ### Reading a row back -/

theorem fieldsOf_spaces (count : ℕ) (rest : List Char) :
    fieldsOf (List.replicate count ' ' ++ rest) = fieldsOf rest := by
  induction count with
  | zero => rfl
  | succ count ih =>
    rw [List.replicate_succ, List.cons_append, fieldsOf, ← List.nil_append (' ' :: _),
      List.splitOn_append_cons_self_of_not_mem List.not_mem_nil]
    exact ih

theorem fieldsOf_append {cell : List Char} (hne : cell ≠ []) (hcell : ' ' ∉ cell) {count : ℕ}
    (hcount : 1 ≤ count) (rest : List Char) :
    fieldsOf (cell ++ (List.replicate count ' ' ++ rest)) = cell :: fieldsOf rest := by
  obtain ⟨count, rfl⟩ := Nat.exists_eq_add_of_le' hcount
  rw [List.replicate_succ, List.cons_append, fieldsOf,
    List.splitOn_append_cons_self_of_not_mem hcell, List.filter_cons, if_pos (decide_eq_true hne)]
  exact congrArg (cell :: ·) (fieldsOf_spaces count rest)

/-- **Cells without spaces are read back.** -/
theorem fieldsOf_weave (h : Covers cells widths)
    (hcells : ∀ cell ∈ cells, cell ≠ "" ∧ ' ' ∉ cell.toList) :
    fieldsOf (weave cells (gaps widths cells)).toList = cells.map String.toList := by
  have hletters : ∀ cell : String, cell ≠ "" → cell.toList ≠ [] := fun cell hne hnil =>
    hne (String.toList_eq_nil_iff.mp hnil)
  induction h with
  | last cell =>
    obtain ⟨hne, hspace⟩ := hcells cell List.mem_cons_self
    rw [gaps, List.zipWith_nil_left, weave_singleton, fieldsOf, List.splitOn_eq_singleton hspace,
      List.filter_cons, if_pos (decide_eq_true (hletters cell hne))]
    rfl
  | @cons cell width cells widths _ ih =>
    obtain ⟨⟨hne, hspace⟩, hcells⟩ := List.forall_mem_cons.mp hcells
    have hweave : (weave (cell :: cells) (gaps (width :: widths) (cell :: cells))).toList =
        cell.toList ++ (List.replicate (max (width - cell.length) 1) ' ' ++
          (weave cells (gaps widths cells)).toList) := by
      rw [gaps_cons, weave_cons, String.toList_append, String.toList_append, padding,
        String.toList_ofList, List.append_assoc]
    rw [hweave, fieldsOf_append (hletters cell hne) hspace (le_max_right _ 1), ih hcells,
      List.map_cons]

/-! ### Rows of data -/

/-- **The columns of a row of data** in a table laid out for reading. The spaces suffice, and the
row is its cells, each but the last with as many spaces after it as its column has left, and one at
least. A cell begins where the columns before it end. Rows whose cells fit have their cells at the
same places, and cells without spaces are read back. -/
theorem writeData_columns (hlaid : table.plain = false)
    (hcells : cells.length = table.widths.length + 1) :
    let line := weave cells (gaps table.widths cells)
    Writes (table.writeData cells) (line ++ "\n") ∧ table.dataRow cells = .ok (line ++ "\n") ∧
      (∀ i < cells.length, Begins cells (gaps table.widths cells) i (column table.widths cells i)) ∧
      (∀ other : List String, other.length = cells.length → Fits table.widths cells →
        Fits table.widths other → ∀ i, column table.widths cells i = column table.widths other i) ∧
      ((∀ cell ∈ cells, cell ≠ "" ∧ ' ' ∉ cell.toList) →
        fieldsOf line.toList = cells.map String.toList) := by
  have hcovers := covers_of_length hcells
  refine ⟨writes_data hlaid hcells, ?_, fun i hi => begins_column hcovers hi,
    fun other hother hfits hfitsOther i => ?_, fieldsOf_weave hcovers⟩
  · rw [dataRow, row_eq_weave hlaid id hcells, List.map_id]
  · rw [column_of_fits hcovers hfits,
      column_of_fits (covers_of_length (hother.trans hcells)) hfitsOther]

/-- A cell longer than its column, one as long as its column and one that fits. -/
theorem writeData_columns_wideCell :
    let table : Table := ⟨[4, 3, 4], ["x", "y", "z", "sum"], false⟩
    let cells := ["12345", "äöü", "1", "22"]
    table.plain = false ∧ cells.length = table.widths.length + 1 ∧
      Writes (table.writeData cells) "12345 äöü 1   22\n" ∧
      Begins cells (gaps table.widths cells) 3 14 ∧
      fieldsOf "12345 äöü 1   22".toList = cells.map String.toList := by
  intro table cells
  have hlaid : table.plain = false := rfl
  have hcells : cells.length = table.widths.length + 1 := rfl
  obtain ⟨hwrites, -, hbegins, -, hfields⟩ := writeData_columns hlaid hcells
  have hline : weave cells (gaps table.widths cells) = "12345 äöü 1   22" := by decide +kernel
  rw [hline] at hwrites hfields
  exact ⟨hlaid, hcells, hwrites, hbegins 3 (by decide), hfields (by decide +kernel)⟩

end BenchLedger.Table
