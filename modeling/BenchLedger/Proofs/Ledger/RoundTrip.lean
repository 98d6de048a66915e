import BenchLedger.Ledger.Printer
import BenchLedger.Ledger.Reader
import BenchLedger.Proofs.Binary64.RoundTrip
import BenchLedger.Proofs.Text.Fields

/-! # Ledgers read back

The line of a row is read back as the row if the fields that are texts are words. So the text of a
ledger is read back as the ledger just if all its rows are legible (`read_text_iff`). A ledger that
was read has legible rows only, so its text is as this library writes it (`read_text_of_read`); and
after one more sample it has legible rows just if the key of the sample is legible
(`read_text_post_iff`). -/

namespace BenchLedger

namespace Text

/-! ### Lines and words that were written -/

theorem words_of_isWord {word : List Char} (h : IsWord word) : words word = [word] := by
  have h := @words_append word [] h (by simp)
  simpa [words] using h

theorem words_intercalate {fields : List (List Char)} (h : ∀ field ∈ fields, IsWord field) :
    words ([' '].intercalate fields) = fields := by
  induction fields with
  | nil => rfl
  | cons field fields ih =>
    rw [List.forall_mem_cons] at h
    cases fields with
    | nil => rw [List.intercalate_singleton, words_of_isWord h.1]
    | cons next fields =>
      have hspace : isBlank ' ' = true := by decide
      rw [List.intercalate_cons_cons, List.append_assoc, List.singleton_append,
        words_append_blank hspace, words_of_isWord h.1, ih h.2, List.singleton_append]

theorem eq_space_of_mem_intercalate {fields : List (List Char)}
    (h : ∀ field ∈ fields, IsWord field) {c : Char} (hc : c ∈ [' '].intercalate fields) :
    c = ' ' ∨ isBlank c = false := by
  refine (mem_intercalate hc).imp_right ?_
  rintro ⟨field, hfield, hmem⟩
  exact (h field hfield).2 c hmem

theorem isBlankLine_intercalate {field : List Char} (h : IsWord field)
    (fields : List (List Char)) : isBlankLine ([' '].intercalate (field :: fields)) = false := by
  obtain ⟨c, rest, rfl⟩ := List.exists_cons_of_ne_nil h.1
  have hc : isBlank c = false := h.2 c List.mem_cons_self
  cases fields with
  | nil => simp [isBlankLine, hc]
  | cons next fields => simp [isBlankLine, hc]

end Text

namespace Ledger

open Text (IsWord isBlank)

/-! ### Legible rows -/

/-- The fields of the key are words. -/
structure Key.Legible (key : Key) : Prop where
  dataset : IsWord key.dataset.toList
  operation : IsWord key.operation.toList
  isOptimized : IsWord key.isOptimized.toList
  heapsize : IsWord key.heapsize.toList

instance (key : Key) : Decidable key.Legible :=
  decidable_of_iff (IsWord key.dataset.toList ∧ IsWord key.operation.toList ∧
      IsWord key.isOptimized.toList ∧ IsWord key.heapsize.toList)
    ⟨fun ⟨h₁, h₂, h₃, h₄⟩ => ⟨h₁, h₂, h₃, h₄⟩, fun ⟨h₁, h₂, h₃, h₄⟩ => ⟨h₁, h₂, h₃, h₄⟩⟩

/-- The fields that are texts are words. -/
structure Row.Legible (row : Row) : Prop where
  key : row.key.Legible
  mark : IsWord row.mark.toList

namespace Row

/-- What the line of a row shows. -/
def fields (row : Row) : List (List Char) :=
  [row.key.dataset.toList, row.key.operation.toList, row.key.isOptimized.toList,
    row.key.heapsize.toList, row.mean.text .column, row.mark.toList, row.spread.text .column]

theorem toList_text (row : Row) : row.text.toList = [' '].intercalate row.fields := by
  simp [text, Key.text, numberText, fields]

theorem isWord_of_mem_fields {row : Row} (h : row.Legible) :
    ∀ field ∈ row.fields, IsWord field := by
  simp only [fields, List.forall_mem_cons]
  exact ⟨h.key.dataset, h.key.operation, h.key.isOptimized, h.key.heapsize,
    row.mean.isWord_text_column, h.mark, row.spread.isWord_text_column, by simp⟩

theorem readNumber_text (line : ℕ) (column : Column) (x : Binary64) :
    readNumber line column (x.text .column) = .ok x := by
  rw [readNumber, x.read?_text_column]

/-- **The line of a legible row is read back.** -/
theorem read_text {row : Row} (h : row.Legible) (line : ℕ) :
    Row.read line row.text.toList = .ok row := by
  rw [Row.read, toList_text, Text.words_intercalate (isWord_of_mem_fields h)]
  simp only [fields, readNumber_text, String.ofList_toList]
  rfl

theorem legible_of_read {line : ℕ} {text : List Char} {row : Row}
    (h : Row.read line text = .ok row) : row.Legible := by
  unfold Row.read at h
  split at h
  · next dataset operation isOptimized heapsize mean mark spread hwords =>
    have hall : ∀ word ∈ Text.words text, IsWord word := fun _ => Text.isWord_of_mem_words
    rw [hwords] at hall
    simp only [List.forall_mem_cons] at hall
    obtain ⟨hdataset, hoperation, hisOptimized, hheapsize, -, hmark, -⟩ := hall
    cases hmean : readNumber line .mean mean with
    | error fault => rw [hmean] at h; cases h
    | ok x =>
      cases hspread : readNumber line .spread spread with
      | error fault => rw [hmean, hspread] at h; cases h
      | ok y =>
        rw [hmean, hspread] at h
        obtain rfl := Except.ok.inj h
        refine ⟨⟨?_, ?_, ?_, ?_⟩, ?_⟩ <;> rw [String.toList_ofList] <;> assumption
  · cases h

theorem not_mem_text {row : Row} (h : row.Legible) :
    '\n' ∉ row.text.toList ∧ '\r' ∉ row.text.toList := by
  rw [toList_text]
  constructor <;> intro hc <;>
    rcases Text.eq_space_of_mem_intercalate (isWord_of_mem_fields h) hc with hc | hc <;>
    exact absurd hc (by decide)

end Row

/-! ### Legible ledgers -/

/-- All rows are legible. -/
def Legible (ledger : Ledger) : Prop := ∀ row ∈ ledger.rows, row.Legible

theorem toList_text (ledger : Ledger) : ledger.text.toList =
    (heading.toList :: ledger.rows.map fun row => row.text.toList).flatMap (· ++ ['\n']) := by
  simp [text, String.toList_join, List.flatMap_map]

theorem lines_text {ledger : Ledger} (h : ledger.Legible) :
    Text.lines ledger.text.toList =
      heading.toList :: ledger.rows.map fun row => row.text.toList := by
  have hlines : ∀ line ∈ heading.toList :: ledger.rows.map (fun row => row.text.toList),
      '\n' ∉ line ∧ '\r' ∉ line := by
    rw [List.forall_mem_cons, List.forall_mem_map]
    exact ⟨by decide, fun row hrow => Row.not_mem_text (h row hrow)⟩
  rw [toList_text]
  refine Text.hasLines_iff.mp (Text.hasLines_flatMap fun line hline => ?_)
  obtain ⟨hfeed, hreturn⟩ := hlines line hline
  exact ⟨hfeed, fun hlast => hreturn (List.mem_of_getLast? hlast)⟩

theorem rowLines_text {ledger : Ledger} (h : ledger.Legible) :
    rowLines ledger.text.toList = (ledger.rows.map fun row => row.text.toList).zipIdx 2 := by
  rw [rowLines, lines_text h, List.zipIdx_cons, List.drop_succ_cons, List.drop_zero,
    List.filter_eq_self]
  rintro ⟨line, number⟩ hline
  obtain ⟨row, hrow, rfl⟩ := List.mem_map.mp (List.fst_mem_of_mem_zipIdx hline)
  have hblank : Text.isBlankLine row.text.toList = false := by
    rw [Row.toList_text]
    exact Text.isBlankLine_intercalate (h row hrow).key.dataset _
  simp [hblank]

theorem mapM_read_text {rows : List Row} (h : ∀ row ∈ rows, row.Legible) (first : ℕ) :
    ((rows.map fun row => row.text.toList).zipIdx first).mapM (fun line => Row.read line.2 line.1) =
      .ok rows := by
  induction rows generalizing first with
  | nil => rfl
  | cons row rows ih =>
    rw [List.forall_mem_cons] at h
    rw [List.map_cons, List.zipIdx_cons, List.mapM_cons, Row.read_text h.1, ih h.2]
    rfl

theorem forall_mem_of_mapM {ε α β : Type} {f : α → Except ε β} {good : β → Prop}
    (hf : ∀ x y, f x = .ok y → good y) {xs : List α} {ys : List β} (h : xs.mapM f = .ok ys) :
    ∀ y ∈ ys, good y := by
  induction xs generalizing ys with
  | nil =>
    obtain rfl : [] = ys := Except.ok.inj h
    simp
  | cons x xs ih =>
    rw [List.mapM_cons] at h
    cases hx : f x with
    | error fault => rw [hx] at h; cases h
    | ok y =>
      cases hxs : xs.mapM f with
      | error fault => rw [hx, hxs] at h; cases h
      | ok others =>
        rw [hx, hxs] at h
        obtain rfl : y :: others = ys := Except.ok.inj h
        exact List.forall_mem_cons.mpr ⟨hf x y hx, ih hxs⟩

/-- **A ledger that was read is legible.** -/
theorem legible_of_read {text : String} {ledger : Ledger} (h : read text = .ok ledger) :
    ledger.Legible := by
  unfold read at h
  cases hrows : (rowLines text.toList).mapM (fun line => Row.read line.2 line.1) with
  | error fault => rw [hrows] at h; cases h
  | ok rows =>
    rw [hrows] at h
    obtain rfl := Except.ok.inj h
    exact forall_mem_of_mapM (fun _ _ => Row.legible_of_read) hrows

/-- **A ledger is read back just if it is legible.** -/
theorem read_text_iff (ledger : Ledger) : read ledger.text = .ok ledger ↔ ledger.Legible := by
  refine ⟨legible_of_read, fun h => ?_⟩
  rw [read, rowLines_text h, mapM_read_text h]
  rfl

/-! ### One more sample -/

theorem Row.legible_start {key : Key} (h : key.Legible) (sample : Binary64) :
    (Row.start key sample).Legible := ⟨h, (by decide : IsWord plusMinus.toList)⟩

theorem legible_absorbInto {key : Key} (hkey : key.Legible) (sample : Binary64) {rows : List Row}
    (h : ∀ row ∈ rows, row.Legible) : ∀ row ∈ absorbInto key sample rows, row.Legible := by
  induction rows with
  | nil => exact List.forall_mem_singleton.mpr (Row.legible_start hkey sample)
  | cons row rows ih =>
    rw [List.forall_mem_cons] at h
    unfold absorbInto
    split_ifs
    · exact List.forall_mem_cons.mpr ⟨⟨h.1.key, h.1.mark⟩, h.2⟩
    · exact List.forall_mem_cons.mpr ⟨h.1, ih h.2⟩

theorem legible_post_iff {ledger : Ledger} (h : ledger.Legible) (key : Key) (sample : Binary64) :
    (ledger.post key sample).2.Legible ↔ key.Legible := by
  refine ⟨fun hpost => ?_, fun hkey => legible_absorbInto hkey sample h⟩
  have hfind := find?_post ledger key sample
  have hmem := List.mem_of_find?_eq_some hfind
  have heq := List.find?_some hfind
  rw [← of_decide_eq_true heq]
  exact (hpost _ hmem).key

/-- **A ledger that was read and then got a sample is read back just if the key of the sample is
legible.** -/
theorem read_text_post_iff {text : String} {ledger : Ledger} (h : read text = .ok ledger)
    (key : Key) (sample : Binary64) :
    read (ledger.post key sample).2.text = .ok (ledger.post key sample).2 ↔ key.Legible := by
  rw [read_text_iff, legible_post_iff (legible_of_read h)]

/-! ### Texts as this library writes them -/

/-- The text of the ledger that a text spells. -/
def tidied (text : String) : Except RowFault String := (read text).map Ledger.text

theorem tidied_text {ledger : Ledger} (h : ledger.Legible) :
    tidied ledger.text = .ok ledger.text := by
  rw [tidied, (read_text_iff ledger).mpr h]
  rfl

theorem bind_tidied (text : String) : (tidied text).bind tidied = tidied text := by
  cases h : read text with
  | error fault =>
    rw [tidied, h]
    rfl
  | ok ledger =>
    have htidied : tidied text = .ok ledger.text := by
      rw [tidied, h]
      rfl
    rw [htidied]
    exact tidied_text (legible_of_read h)

/-- **Reading and writing a ledger.** However a text was laid out, the ledger that it spells is
written in a way that spells the same ledger, so that no text changes when it is read and written a
second time; and a ledger is read back from its text just if its texts are words. -/
theorem read_text_of_read :
    (∀ text ledger, read text = .ok ledger → read ledger.text = .ok ledger) ∧
    (∀ text, (tidied text).bind tidied = tidied text) ∧
    ∀ ledger : Ledger, read ledger.text = .ok ledger ↔ ledger.Legible := by
  refine ⟨fun text ledger h => ?_, bind_tidied, read_text_iff⟩
  have hlegible := legible_of_read h
  exact (read_text_iff ledger).mpr hlegible

/-- Rows under some heading, with other white space and other spellings of numbers. -/
def looseRows : String :=
  "any heading\r\n\r\n \u00a0mnist\u3000insert\t1 1024 -0 +- 25E-1\r\n\u2003\n" ++
    "mnist insert 1 1024 +nAn ± .5e+17\r"

theorem read_text_of_read_loose :
    (∃ ledger, read looseRows = .ok ledger ∧
      ledger.text = heading ++ "\nmnist insert 1 1024 -0.0 +- 2.5\n" ++
        "mnist insert 1 1024 NaN ± 5e16\n" ∧
      read ledger.text = .ok ledger) ∧
    read (Ledger.text ⟨[Row.start ⟨"a", "op", "1", "8"⟩ .nan]⟩) =
      .ok ⟨[Row.start ⟨"a", "op", "1", "8"⟩ .nan]⟩ := by
  have hloose : tidied looseRows = .ok (heading ++ "\nmnist insert 1 1024 -0.0 +- 2.5\n" ++
      "mnist insert 1 1024 NaN ± 5e16\n") := by decide +kernel
  have hlegible : Legible ⟨[Row.start ⟨"a", "op", "1", "8"⟩ .nan]⟩ :=
    List.forall_mem_singleton.mpr (Row.legible_start (by decide) .nan)
  refine ⟨?_, (read_text_of_read.2.2 _).mpr hlegible⟩
  cases h : read looseRows with
  | error fault =>
    rw [tidied, h] at hloose
    cases hloose
  | ok ledger =>
    rw [tidied, h] at hloose
    exact ⟨ledger, rfl, Except.ok.inj hloose, read_text_of_read.1 looseRows ledger h⟩

end Ledger

end BenchLedger
