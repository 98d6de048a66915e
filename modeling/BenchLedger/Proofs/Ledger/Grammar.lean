import BenchLedger.Journal
import BenchLedger.Ledger.Reader
import BenchLedger.Proofs.Text.Fields
import Mathlib.Data.List.Forall2

/-! # The grammar of ledgers

Which texts are ledgers, said line by line: a line spells a row (`Spells`), or something is wrong
with it (`Violates`). Reading a text gives the rows that its lines after the first spell, or the
first fault in them (`read_grammar`). -/

namespace BenchLedger.Ledger

open Text (HasFields HasLines isBlank isBlankLine)

/-! ### Rows and their faults -/

/-- The line has a character that is no white space. -/
def HasContent (line : List Char) : Prop := ∃ c ∈ line, isBlank c = false

instance (line : List Char) : Decidable (HasContent line) := List.decidableBEx _ line

/-- **The line spells the row**: it has seven fields, and the fifth and the seventh are numbers. -/
def Spells (line : List Char) (row : Row) : Prop :=
  ∃ mean spread, HasFields line [row.key.dataset.toList, row.key.operation.toList,
      row.key.isOptimized.toList, row.key.heapsize.toList, mean, row.mark.toList, spread] ∧
    Binary64.read? mean = some row.mean ∧ Binary64.read? spread = some row.spread

/-- **What is wrong with a line** that has the given number: the count of its fields, or else the
mean, or else the spread. -/
inductive Violates (number : ℕ) (line : List Char) : RowFault → Prop where
  | fieldCount {fields : List (List Char)} : HasFields line fields → fields.length ≠ 7 →
      Violates number line (.fieldCount number fields.length (String.ofList line))
  | mean {dataset operation isOptimized heapsize mean mark spread : List Char} :
      HasFields line [dataset, operation, isOptimized, heapsize, mean, mark, spread] →
      Binary64.read? mean = none →
      Violates number line (.badNumber number .mean (String.ofList mean))
  | spread {dataset operation isOptimized heapsize mean mark spread : List Char} :
      HasFields line [dataset, operation, isOptimized, heapsize, mean, mark, spread] →
      Binary64.read? mean ≠ none → Binary64.read? spread = none →
      Violates number line (.badNumber number .spread (String.ofList spread))

/-- **The first of some lines that has something in it and spells no row**, and what is wrong with
it; `first` is the number of the first of the lines. -/
def FirstFault (first : ℕ) (ls : List (List Char)) (fault : RowFault) : Prop :=
  ∃ i line, ls[i]? = some line ∧ HasContent line ∧ Violates (first + i) line fault ∧
    ∀ j earlier, j < i → ls[j]? = some earlier → HasContent earlier → ∃ row, Spells earlier row

/-! ### One line -/

variable {number : ℕ} {line : List Char} {row : Row} {fault : RowFault} {ls : List (List Char)}

theorem readNumber_eq_ok {column : Column} {word : List Char} {x : Binary64} :
    readNumber number column word = .ok x ↔ Binary64.read? word = some x := by
  unfold readNumber
  cases Binary64.read? word <;> simp

theorem readNumber_of_none {column : Column} {word : List Char} (h : Binary64.read? word = none) :
    readNumber number column word = .error (.badNumber number column (String.ofList word)) := by
  rw [readNumber, h]

theorem read_of_hasFields {dataset operation isOptimized heapsize mean mark spread : List Char}
    (h : HasFields line [dataset, operation, isOptimized, heapsize, mean, mark, spread]) :
    Row.read number line = (readNumber number .mean mean).bind fun mean =>
      (readNumber number .spread spread).bind fun spread =>
        .ok ⟨⟨String.ofList dataset, String.ofList operation, String.ofList isOptimized,
          String.ofList heapsize⟩, mean, String.ofList mark, spread⟩ := by
  rw [Row.read, Text.hasFields_iff.mp h]
  rfl

theorem read_of_fieldCount {fields : List (List Char)} (h : HasFields line fields)
    (hcount : fields.length ≠ 7) :
    Row.read number line = .error (.fieldCount number fields.length (String.ofList line)) := by
  rw [Row.read, Text.hasFields_iff.mp h]
  split
  · exact absurd rfl hcount
  · rfl

theorem read_of_spells (h : Spells line row) : Row.read number line = .ok row := by
  obtain ⟨mean, spread, hfields, hmean, hspread⟩ := h
  rw [read_of_hasFields hfields, readNumber_eq_ok.mpr hmean, Except.bind,
    readNumber_eq_ok.mpr hspread, Except.bind]
  simp only [String.ofList_toList]

theorem read_of_violates (h : Violates number line fault) :
    Row.read number line = .error fault := by
  cases h with
  | fieldCount hfields hcount => exact read_of_fieldCount hfields hcount
  | mean hfields hmean => rw [read_of_hasFields hfields, readNumber_of_none hmean, Except.bind]
  | spread hfields hmean hspread =>
    obtain ⟨x, hx⟩ := Option.ne_none_iff_exists'.mp hmean
    rw [read_of_hasFields hfields, readNumber_eq_ok.mpr hx, Except.bind,
      readNumber_of_none hspread, Except.bind]

/-- **A line spells a row, or something is wrong with it.** -/
theorem spells_or_violates (number : ℕ) (line : List Char) :
    (∃ row, Spells line row) ∨ ∃ fault, Violates number line fault := by
  have hfields := Text.hasFields_words line
  generalize Text.words line = fields at hfields
  by_cases hcount : fields.length = 7
  · match fields, hcount with
    | [dataset, operation, isOptimized, heapsize, mean, mark, spread], _ =>
      cases hmean : Binary64.read? mean with
      | none => exact Or.inr ⟨_, .mean hfields hmean⟩
      | some x =>
        cases hspread : Binary64.read? spread with
        | none => exact Or.inr ⟨_, .spread hfields (by rw [hmean]; nofun) hspread⟩
        | some y =>
          refine Or.inl ⟨⟨⟨String.ofList dataset, String.ofList operation,
            String.ofList isOptimized, String.ofList heapsize⟩, x, String.ofList mark, y⟩,
            mean, spread, ?_, hmean, hspread⟩
          simpa only [String.toList_ofList] using hfields
  · exact Or.inr ⟨_, .fieldCount hfields hcount⟩

theorem read_eq_ok_iff : Row.read number line = .ok row ↔ Spells line row := by
  refine ⟨fun h => ?_, read_of_spells⟩
  rcases spells_or_violates number line with ⟨other, hspells⟩ | ⟨fault, hfault⟩
  · rw [read_of_spells hspells] at h
    cases h
    exact hspells
  · rw [read_of_violates hfault] at h
    cases h

theorem read_eq_error_iff : Row.read number line = .error fault ↔ Violates number line fault := by
  refine ⟨fun h => ?_, read_of_violates⟩
  rcases spells_or_violates number line with ⟨row, hspells⟩ | ⟨other, hother⟩
  · rw [read_of_spells hspells] at h
    cases h
  · rw [read_of_violates hother] at h
    cases h
    exact hother

/-! ### Lines one after the other -/

/-- The rows of the lines with something in them; `first` is the number of the first line. -/
def readFrom (first : ℕ) (ls : List (List Char)) : Except RowFault (List Row) :=
  ((ls.zipIdx first).filter fun line => !isBlankLine line.1).mapM fun line => Row.read line.2 line.1

theorem isBlankLine_iff : isBlankLine line = false ↔ HasContent line := by
  simp [isBlankLine, HasContent]

theorem readFrom_cons (first : ℕ) (line : List Char) (ls : List (List Char)) :
    readFrom first (line :: ls) =
      if HasContent line then do
        let row ← Row.read first line
        let rows ← readFrom (first + 1) ls
        return row :: rows
      else readFrom (first + 1) ls := by
  unfold readFrom
  rw [List.zipIdx_cons, List.filter_cons]
  by_cases h : HasContent line
  · rw [if_pos h, if_pos (by rw [isBlankLine_iff.mpr h]; rfl), List.mapM_cons]
  · have hblank : isBlankLine line = true := by
      rw [← Bool.not_eq_false, isBlankLine_iff]
      exact h
    rw [if_neg h, if_neg (by rw [hblank]; decide)]

/-- **One row for each line with something in it**, in order. -/
theorem readFrom_eq_ok_iff (first : ℕ) (ls : List (List Char)) (rows : List Row) :
    readFrom first ls = .ok rows ↔
      List.Forall₂ Spells (ls.filter fun line => HasContent line) rows := by
  induction ls generalizing first rows with
  | nil =>
    rw [List.filter_nil, List.forall₂_nil_left_iff]
    exact ⟨fun h => (Except.ok.inj h).symm, fun h => congrArg Except.ok h.symm⟩
  | cons line ls ih =>
    rw [readFrom_cons]
    by_cases hcontent : HasContent line
    · rw [if_pos hcontent, List.filter_cons, if_pos (decide_eq_true hcontent), bind_eq_ok]
      constructor
      · rintro ⟨row, hrow, hrest⟩
        obtain ⟨others, hothers, hrows⟩ := bind_eq_ok.mp hrest
        cases hrows
        exact .cons (read_eq_ok_iff.mp hrow) ((ih _ _).mp hothers)
      · rintro (_ | ⟨hrow, hothers⟩)
        exact ⟨_, read_eq_ok_iff.mpr hrow, bind_eq_ok.mpr ⟨_, (ih _ _).mpr hothers, rfl⟩⟩
    · rw [if_neg hcontent, List.filter_cons, if_neg (by simpa using hcontent)]
      exact ih _ _

theorem firstFault_cons {first : ℕ} : FirstFault first (line :: ls) fault ↔
    (HasContent line ∧ Violates first line fault) ∨
      ((HasContent line → ∃ row, Spells line row) ∧ FirstFault (first + 1) ls fault) := by
  constructor
  · rintro ⟨i, bad, hbad, hcontent, hviolates, hearlier⟩
    cases i with
    | zero =>
      cases hbad
      exact Or.inl ⟨hcontent, hviolates⟩
    | succ i =>
      refine Or.inr ⟨fun h => hearlier 0 line (Nat.succ_pos i) rfl h, i, bad, hbad, hcontent, ?_,
        fun j earlier hj => hearlier (j + 1) earlier (Nat.succ_lt_succ hj)⟩
      rwa [Nat.add_right_comm]
  · rintro (⟨hcontent, hviolates⟩ | ⟨hline, i, bad, hbad, hcontent, hviolates, hearlier⟩)
    · exact ⟨0, line, rfl, hcontent, hviolates, fun j _ hj => absurd hj (Nat.not_lt_zero j)⟩
    · refine ⟨i + 1, bad, hbad, hcontent, ?_, fun j earlier hj hget => ?_⟩
      · rwa [← Nat.add_assoc, Nat.add_right_comm]
      · cases j with
        | zero =>
          cases hget
          exact hline
        | succ j => exact hearlier j earlier (Nat.lt_of_succ_lt_succ hj) hget

/-- **The first faulty line** is the one that is reported. -/
theorem readFrom_eq_error_iff (first : ℕ) (ls : List (List Char)) (fault : RowFault) :
    readFrom first ls = .error fault ↔ FirstFault first ls fault := by
  induction ls generalizing first with
  | nil =>
    refine ⟨nofun, ?_⟩
    rintro ⟨i, line, hline, -⟩
    cases hline
  | cons line ls ih =>
    rw [readFrom_cons, firstFault_cons, ← ih, ← read_eq_error_iff]
    by_cases hcontent : HasContent line
    · rw [if_pos hcontent]
      cases hline : Row.read first line with
      | error other =>
        -- The line is reported, and spells no row.
        have hnone : ¬ ∃ row, Spells line row := by
          rintro ⟨row, hspells⟩
          rw [read_of_spells hspells] at hline
          cases hline
        constructor
        · intro h
          cases h
          exact Or.inl ⟨hcontent, rfl⟩
        · rintro (⟨-, h⟩ | ⟨h, -⟩)
          · cases h
            rfl
          · exact absurd (h hcontent) hnone
      | ok row =>
        -- The line spells a row, so what is reported is in a later line.
        have hrow : ∃ row, Spells line row := ⟨row, read_eq_ok_iff.mp hline⟩
        cases hrest : readFrom (first + 1) ls with
        | error later =>
          constructor
          · intro h
            cases h
            exact Or.inr ⟨fun _ => hrow, rfl⟩
          · rintro (⟨-, h⟩ | ⟨-, h⟩)
            · cases h
            · cases h
              rfl
        | ok rows =>
          constructor
          · intro h
            cases h
          · rintro (⟨-, h⟩ | ⟨-, h⟩) <;> cases h
    · rw [if_neg hcontent]
      exact ⟨fun h => Or.inr ⟨fun h => absurd h hcontent, h⟩,
        fun h => (h.resolve_left fun h => hcontent h.1).2⟩

/-! ### The whole text -/

theorem read_eq_readFrom (text : String) : read text = do
    let rows ← readFrom 2 ((Text.lines text.toList).drop 1)
    return ⟨rows⟩ := by
  have hlines : rowLines text.toList = (((Text.lines text.toList).drop 1).zipIdx 2).filter
      fun line => !isBlankLine line.1 := by
    unfold rowLines
    cases Text.lines text.toList <;> rfl
  rw [read, hlines]
  rfl

theorem exists_forall₂_iff {α β : Type} {R : α → β → Prop} {xs : List α} :
    (∃ ys, List.Forall₂ R xs ys) ↔ ∀ x ∈ xs, ∃ y, R x y := by
  induction xs with
  | nil => exact ⟨fun _ => List.forall_mem_nil _, fun _ => ⟨[], .nil⟩⟩
  | cons x xs ih =>
    rw [List.forall_mem_cons, ← ih]
    constructor
    · rintro ⟨_, _ | ⟨hx, hxs⟩⟩
      exact ⟨⟨_, hx⟩, _, hxs⟩
    · rintro ⟨⟨y, hy⟩, ys, hys⟩
      exact ⟨y :: ys, .cons hy hys⟩

/-- **Reading a ledger accepts exactly its grammar.** The lines of the text are settled; the ledger
is read just if each of them after the first that has something in it spells a row, and has one row
for each of these lines, in order; otherwise the first of them that spells no row is reported. -/
theorem read_grammar (text : String) :
    ∃ ls, (∀ others, HasLines text.toList others ↔ others = ls) ∧
      ((∃ ledger, read text = .ok ledger) ↔
        ∀ line ∈ ls.drop 1, HasContent line → ∃ row, Spells line row) ∧
      (∀ ledger, read text = .ok ledger ↔
        List.Forall₂ Spells ((ls.drop 1).filter fun line => HasContent line) ledger.rows) ∧
      ∀ fault, read text = .error fault ↔ FirstFault 2 (ls.drop 1) fault := by
  have hread : ∀ ledger, read text = .ok ledger ↔ List.Forall₂ Spells
      (((Text.lines text.toList).drop 1).filter fun line => HasContent line) ledger.rows := by
    intro ledger
    rw [← readFrom_eq_ok_iff 2, read_eq_readFrom, bind_eq_ok]
    constructor
    · rintro ⟨rows, hrows, h⟩
      cases h
      exact hrows
    · exact fun h => ⟨ledger.rows, h, rfl⟩
  refine ⟨Text.lines text.toList, fun others => ?_, ?_, hread, fun fault => ?_⟩
  · rw [Text.hasLines_iff, eq_comm]
  · have hexists := @exists_forall₂_iff _ _ Spells
      (((Text.lines text.toList).drop 1).filter fun line => HasContent line)
    simp only [List.mem_filter, decide_eq_true_eq, and_imp] at hexists
    rw [← hexists]
    exact ⟨fun ⟨ledger, h⟩ => ⟨ledger.rows, (hread ledger).mp h⟩,
      fun ⟨rows, h⟩ => ⟨⟨rows⟩, (hread ⟨rows⟩).mpr h⟩⟩
  · rw [← readFrom_eq_error_iff, read_eq_readFrom]
    cases readFrom 2 ((Text.lines text.toList).drop 1) with
    | error other =>
      constructor <;> intro h <;> cases h <;> rfl
    | ok rows =>
      constructor <;> intro h <;> cases h

example : read "heading\n\na b c d x ± 0\n" = .error (.badNumber 3 .mean "x") := by decide +kernel

end BenchLedger.Ledger
