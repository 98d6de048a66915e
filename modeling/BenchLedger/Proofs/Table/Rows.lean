import BenchLedger.Table.Writer
import Mathlib.Data.List.MinMax
import Mathlib.Data.String.Basic
import Mathlib.Tactic.Common

/-! # Rows as they are written

The spaces of a table suffice for each of its columns (`writes_spaces`), and a row that passes the
check has a cell for each of them, so writing a row comes to adding its text to the output, or to
leaving the output as it is (`on_writeRow`, `on_writeTitles`). So rows written one after the other
do not depend on each other: those with as many cells as there are columns stand in the output, and
nothing else (`serve_rows`). -/

namespace BenchLedger.Table

variable {table : Table} {first second : Writer Unit} {paint : String → String}
  {cells : List String} {widths : List ℕ} {text more : String}

/-! ### Outputs -/

/-- **The work goes well** and adds the text, whatever was written before. -/
def Writes (work : Writer Unit) (text : String) : Prop :=
  ∀ output, work.on output = (.ok (), output ++ text)

theorem on_bind (first : Writer Unit) (next : Unit → Writer Unit) (output : String) :
    (first >>= next).on output = match first.on output with
      | (.ok value, after) => (next value).on after
      | (.error stop, after) => (.error stop, after) := by
  unfold Writer.on
  rw [ExceptT.run_bind, StateT.run_bind]
  obtain ⟨ending, after⟩ := StateT.run (ExceptT.run first) output
  cases ending <;> rfl

theorem writes_emit (text : String) : Writes (emit text) text := fun _ => rfl

theorem writes_pure : Writes (pure ()) "" := fun _ =>
  congrArg (Prod.mk (Except.ok ())) String.append_empty.symm

theorem Writes.bind (h : Writes first text) (hmore : Writes second more) :
    Writes (first >>= fun _ => second) (text ++ more) := by
  intro output
  rw [on_bind, h output]
  show second.on (output ++ text) = _
  rw [hmore, String.append_assoc]

/-! ### Spaces -/

/-- **There are spaces enough** for every column. -/
theorem writes_spaces {width count : ℕ} (hwidth : width ∈ table.widths) (hcount : count ≤ width) :
    Writes (table.emitSpaces count) (String.ofList (List.replicate count ' ')) := by
  have hle : count ≤ table.widths.foldr max 0 := List.le_max_of_le' 0 hwidth hcount
  unfold emitSpaces spaces
  rw [List.length_replicate, if_pos hle, List.take_replicate, min_eq_left hle]
  exact writes_emit _

theorem writes_padding (hplain : table.plain = false) {width : ℕ} (hwidth : width ∈ table.widths)
    (length : ℕ) : Writes (table.writePadding width length) (padding width length) := by
  unfold writePadding padding
  rw [if_neg (Bool.eq_false_iff.mp hplain)]
  split_ifs with hlt
  · rw [max_eq_left (by omega)]
    exact writes_spaces hwidth (Nat.sub_le width length)
  · rw [max_eq_right (by omega)]
    exact writes_emit _

/-! ### Rows -/

/-- The cells of a row: one for each width, and a last one. -/
inductive Covers : List String → List ℕ → Prop
  | last (cell : String) : Covers [cell] []
  | cons (cell : String) (width : ℕ) {cells : List String} {widths : List ℕ} :
      Covers cells widths → Covers (cell :: cells) (width :: widths)

theorem covers_of_length (h : cells.length = widths.length + 1) : Covers cells widths := by
  induction widths generalizing cells with
  | nil =>
    obtain ⟨cell, rfl⟩ := List.length_eq_one_iff.mp h
    exact .last cell
  | cons width widths ih =>
    obtain ⟨cell, cells, rfl⟩ : ∃ cell more, cells = cell :: more :=
      List.exists_cons_of_length_eq_add_one h
    exact .cons cell width (ih (Nat.succ.inj h))

theorem Covers.ne_nil (h : Covers cells widths) : cells ≠ [] := by
  cases h <;> exact List.cons_ne_nil _ _

theorem writes_tab (table : Table) (index : ℕ) :
    Writes (table.writeTab index) (if table.plain ∧ 0 < index then "\t" else "") := by
  unfold writeTab
  split_ifs
  · exact writes_emit _
  · exact writes_pure

theorem writes_padded (hplain : table.plain = false) (h : Covers cells widths)
    (hwidths : ∀ width ∈ widths, width ∈ table.widths) (index : ℕ) :
    Writes (table.writeCells paint index widths cells) (padded paint widths cells) := by
  have htab : ∀ index, Writes (table.writeTab index) "" := by
    intro index
    have htab := writes_tab table index
    rwa [if_neg fun h => Bool.eq_false_iff.mp hplain h.1] at htab
  induction h generalizing index with
  | last cell =>
    have h := (htab index).bind ((writes_emit (paint cell)).bind writes_pure)
    have htext : padded paint [] [cell] = paint cell ++ "" := String.join_cons
    rwa [String.empty_append, ← htext] at h
  | cons cell width _ ih =>
    obtain ⟨hwidth, hwidths⟩ := List.forall_mem_cons.mp hwidths
    have h := (htab index).bind ((writes_emit (paint cell)).bind
      ((writes_padding hplain hwidth cell.length).bind (ih hwidths (index + 1))))
    rwa [String.empty_append, ← String.append_assoc] at h

theorem writes_plain (hplain : table.plain = true) (h : Covers cells widths) (index : ℕ) :
    Writes (table.writeCells paint index widths cells)
      ((if 0 < index then "\t" else "") ++ "\t".intercalate (cells.map paint)) := by
  have htab : ∀ index, Writes (table.writeTab index) (if 0 < index then "\t" else "") := by
    intro index
    have htab := writes_tab table index
    simpa only [hplain, true_and] using htab
  induction h generalizing index with
  | last cell =>
    have h := (htab index).bind ((writes_emit (paint cell)).bind writes_pure)
    have htext : "\t".intercalate ([cell].map paint) = paint cell := String.intercalate_singleton
    rwa [String.append_empty, ← htext] at h
  | @cons cell width cells widths hmore ih =>
    have hpadding : Writes (table.writePadding width cell.length) "" := by
      rw [writePadding, if_pos hplain]
      exact writes_pure
    have hne : cells.map paint ≠ [] := fun hnil => hmore.ne_nil (List.map_eq_nil_iff.mp hnil)
    rw [List.map_cons, String.intercalate_cons_of_ne_nil hne, String.append_assoc]
    have h := (htab index).bind ((writes_emit (paint cell)).bind
      (hpadding.bind (ih (index + 1))))
    rwa [if_pos (Nat.succ_pos index), String.empty_append] at h

/-- What is wrong with a row that has another number of cells. -/
def countFault (table : Table) (cells : List String) : Fault :=
  if cells = [] then .noCells else .cellCount table.widths.length cells.length

theorem row_eq (h : cells.length = table.widths.length + 1) (paint : String → String) :
    table.row paint cells = .ok ((if table.plain then "\t".intercalate (cells.map paint)
      else padded paint table.widths cells) ++ "\n") := by
  rw [row, if_neg (covers_of_length h).ne_nil, if_neg (not_not.mpr h.symm)]
  split_ifs <;> rfl

theorem row_eq_error (h : cells.length ≠ table.widths.length + 1) (paint : String → String) :
    table.row paint cells = .error (table.countFault cells) := by
  unfold row countFault
  rw [if_pos (Ne.symm h)]
  split_ifs <;> rfl

/-- **Writing a row** comes to adding its text, or to nothing. -/
theorem on_writeRow (table : Table) (paint : String → String) (cells : List String)
    (output : String) : (table.writeRow paint cells).on output =
      match table.row paint cells with
      | .ok text => (.ok (), output ++ text)
      | .error fault => (.error (.fault fault), output) := by
  unfold writeRow row
  by_cases hnone : cells = []
  · rw [if_pos hnone, if_pos hnone]
    rfl
  have hpos := List.length_pos_iff.mpr hnone
  rw [if_neg hnone, if_neg hnone]
  by_cases hcells : cells.length = table.widths.length + 1
  · rw [if_neg (by omega), if_neg (by omega)]
    split_ifs with hplain
    · exact ((writes_plain hplain (covers_of_length hcells) 0).bind (writes_emit "\n")) output
    · have hlaid : table.plain = false := Bool.eq_false_iff.mpr hplain
      exact ((writes_padded hlaid (covers_of_length hcells) (fun _ h => h) 0).bind
        (writes_emit "\n")) output
  · rw [if_pos (by omega), if_pos (by omega)]
    rfl

/-- **Writing the titles** comes to adding them and the rule, or to nothing. -/
theorem on_writeTitles (table : Table) (color : Bool) (output : String) :
    (table.writeTitles color).on output =
      match table.titleRow color with
      | .ok text => (.ok (), output ++ text)
      | .error fault => (.error (.fault fault), output) := by
  unfold writeTitles titleRow
  split_ifs
  · exact on_writeRow table id table.titles output
  all_goals
    rw [on_bind, on_writeRow]
    cases table.row _ table.titles with
    | error fault => rfl
    | ok text =>
      show (Except.ok (), output ++ text ++ (table.rule ++ "\n")) =
        (Except.ok (), output ++ (text ++ table.rule ++ "\n"))
      rw [String.append_assoc, String.append_assoc]

/-! ### Rows one after the other -/

/-- A row that is asked for. -/
inductive Request where
  | titles (color : Bool)
  | data (cells : List String)
  deriving DecidableEq, Repr

/-- The cells of the row. -/
def Request.row (table : Table) : Request → List String
  | titles _ => table.titles
  | data cells => cells

/-- Writing the row. -/
def Request.write (table : Table) : Request → Writer Unit
  | titles color => table.writeTitles color
  | data cells => table.writeData cells

/-- The text of the row, for the titles with the rule. -/
def Request.result (table : Table) : Request → Except Fault String
  | titles color => table.titleRow color
  | data cells => table.dataRow cells

/-- The row has one cell for each width and one more. -/
def Accepts (table : Table) (request : Request) : Prop :=
  (request.row table).length = table.widths.length + 1

instance (table : Table) (request : Request) : Decidable (table.Accepts request) :=
  inferInstanceAs (Decidable (_ = _))

/-- Rows asked for one after the other, also after one that is refused: how each call ends, and the
output in the end. -/
def serve (table : Table) : List Request → String → List (Except Stop Unit) × String
  | [], output => ([], output)
  | request :: requests, output =>
    let call := (request.write table).on output
    let rest := serve table requests call.2
    (call.1 :: rest.1, rest.2)

variable {request : Request}

theorem on_write (request : Request) (table : Table) (output : String) :
    (request.write table).on output =
      match request.result table with
      | .ok text => (.ok (), output ++ text)
      | .error fault => (.error (.fault fault), output) := by
  cases request with
  | titles color => exact on_writeTitles table color output
  | data cells => exact on_writeRow table id cells output

theorem exists_result (h : table.Accepts request) : ∃ text, request.result table = .ok text := by
  cases request with
  | data cells => exact ⟨_, row_eq h id⟩
  | titles color =>
    show ∃ text, table.titleRow color = .ok text
    unfold titleRow
    split_ifs
    · exact ⟨_, row_eq h id⟩
    all_goals exact ⟨_, congrArg (Except.map _) (row_eq h _)⟩

theorem result_eq_error (h : ¬ table.Accepts request) :
    request.result table = .error (table.countFault (request.row table)) := by
  cases request with
  | data cells => exact row_eq_error h id
  | titles color =>
    show table.titleRow color = _
    unfold titleRow
    split_ifs
    · exact row_eq_error h id
    all_goals exact congrArg (Except.map _) (row_eq_error h _)

/-- **One call**: a row that is accepted is added to the output, any other leaves it as it is. -/
theorem on_write_eq (request : Request) (table : Table) (output : String) :
    (request.write table).on output =
      if table.Accepts request then (.ok (), output ++ ((request.write table).on "").2)
      else (.error (.fault (table.countFault (request.row table))), output) := by
  split_ifs with h
  · obtain ⟨text, htext⟩ := exists_result h
    rw [on_write, on_write, htext]
    show _ = (_, output ++ ("" ++ text))
    rw [String.empty_append]
  · rw [on_write, result_eq_error h]

theorem serve_eq (table : Table) (requests : List Request) (output : String) :
    serve table requests output =
      (requests.map fun request =>
        if table.Accepts request then .ok ()
        else .error (.fault (table.countFault (request.row table))),
      output ++ String.join ((requests.filter (table.Accepts ·)).map fun request =>
        ((request.write table).on "").2)) := by
  induction requests generalizing output with
  | nil =>
    rw [serve, List.filter_nil, List.map_nil, List.map_nil, String.join_nil, String.append_empty]
  | cons request requests ih =>
    rw [serve, on_write_eq, List.filter_cons]
    by_cases h : table.Accepts request
    · simp only [h, decide_true, if_true, ih, List.map_cons, String.join_cons, String.append_assoc]
    · simp only [h, decide_false, Bool.false_eq_true, if_false, ih, List.map_cons]

theorem length_fitting (titles : List String) (gap : ℕ) (plain : Bool) :
    (fitting titles gap plain).widths.length = titles.length - 1 := by
  rw [fitting, List.length_map, List.length_dropLast]

theorem length_titles {titles : List String} (h : titles ≠ []) (gap : ℕ) (plain : Bool) :
    titles.length = (fitting titles gap plain).widths.length + 1 := by
  rw [length_fitting, Nat.sub_add_cancel (List.length_pos_iff.mpr h)]

/-- **Rows one after the other.** A call fails just if its row does not have one cell for each width
and one more, always by the check before the first piece; then it writes nothing, neither part of a
row nor a rule. The output gets what the other calls write on their own, in order. A table that fits
its titles refuses the titles just if there are none, and accepts the data with a cell for each
title; without titles it has one column. -/
theorem serve_rows (table : Table) (requests : List Request) (output : String) :
    (serve table requests output).1 = requests.map (fun request =>
        if table.Accepts request then .ok ()
        else .error (.fault (table.countFault (request.row table)))) ∧
      (∀ ending ∈ (serve table requests output).1,
        ending ≠ .error (.fault .rowShort) ∧ ending ≠ .error .spacesShort) ∧
      (serve table requests output).2 = output ++ String.join
        ((requests.filter (table.Accepts ·)).map fun request => ((request.write table).on "").2) ∧
      (∀ request, ¬ table.Accepts request →
        ∀ before, ((request.write table).on before).2 = before) ∧
      ∀ (titles : List String) (gap : ℕ) (plain : Bool),
        (∀ color, ¬ (fitting titles gap plain).Accepts (.titles color) ↔ titles = []) ∧
          ∀ cells, (fitting titles gap plain).Accepts (.data cells) ↔
            cells.length = titles.length ∧ 1 ≤ cells.length ∨ titles = [] ∧ cells.length = 1 := by
  rw [serve_eq]
  refine ⟨rfl, fun ending hending => ?_, rfl, fun request h before => ?_,
    fun titles gap plain => ⟨fun color => ?_, fun cells => ?_⟩⟩
  · obtain ⟨request, -, rfl⟩ := List.mem_map.mp hending
    unfold countFault
    split_ifs <;> simp
  · rw [on_write_eq, if_neg h]
  · show ¬ titles.length = _ + 1 ↔ _
    rw [length_fitting, ← List.length_eq_zero_iff]
    omega
  · show cells.length = _ + 1 ↔ _
    rw [length_fitting, ← List.length_eq_zero_iff]
    omega

/-- Without titles there is a column: a row with more cells than there are titles is written. -/
theorem not_refused_untitled :
    ((fitting [] 1 false).writeData ["1"]).on "" = (.ok (), "1\n") ∧
      ¬ (["1"].length = ([] : List String).length ∧ 1 ≤ ["1"].length) := by
  decide +kernel

end BenchLedger.Table
