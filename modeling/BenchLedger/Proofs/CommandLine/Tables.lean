import BenchLedger.CommandLine.Run
import BenchLedger.Proofs.Disk.ReadBack
import BenchLedger.Proofs.Ledger.RoundTrip
import BenchLedger.Proofs.RunLog.FirstRun
import BenchLedger.Proofs.RunLog.Groups
import BenchLedger.Proofs.Table.Rows
import BenchLedger.Proofs.Text.Fields

/-! # Plain tables read back

The plain tables of a profile have a line for each record, whose cells between tabs are the numbers
of the record (`Record.IsRow`), and a layout that tells the two kinds of records apart (`TablesOf`).
So a profile is read back from the text of its tables (`Profile.ofTables?_of_tablesOf`), and a run
that is asked for the plain tables of a log prints the text of a profile and loses nothing of it
(`tables_lossless`). -/

namespace BenchLedger

theorem Table.row_of_plain {table : Table} (hplain : table.plain = true) {cells : List String}
    (h : cells.length = table.widths.length + 1) :
    table.row id cells = .ok ("\t".intercalate cells ++ "\n") := by
  rw [row_eq h, if_pos hplain, List.map_id]

theorem Table.titleRow_of_plain {table : Table} (hplain : table.plain = true) (color : Bool) :
    table.titleRow color = table.row id table.titles := if_pos hplain

namespace RunLog

open Text (HasLines hasLines_iff lines mem_intercalate)

/-! ### Rows and records -/

/-- **The row states the record**: it has nine cells between tabs, and they are the numbers of the
record in the order of the log. -/
def Record.IsRow (record : Record) (row : List Char) : Prop :=
  (row.splitOn '\t').length = 9 ∧ (row.splitOn '\t').map Count.read = record.values.map .ok

/-- The record that a row states. -/
def Record.ofRow? (row : List Char) : Option Record :=
  match (row.splitOn '\t').mapM fun cell => (Count.read cell).toOption with
  | some [sent, bytes, clock, aes, wall, real, user, system, memory] =>
    some ⟨sent, bytes, clock, aes, wall, some ⟨real, user, system, memory⟩⟩
  | _ => none

variable {record : Record} {row : List Char} {c : Char}

theorem mapM_toOption {cells : List (List Char)} {values : List UInt64}
    (h : cells.map Count.read = values.map .ok) :
    (cells.mapM fun cell => (Count.read cell).toOption) = some values := by
  induction cells generalizing values with
  | nil =>
    obtain rfl : values = [] := List.map_eq_nil_iff.mp h.symm
    rfl
  | cons cell cells ih =>
    cases values with
    | nil => cases h
    | cons value values =>
      rw [List.map_cons, List.map_cons, List.cons.injEq] at h
      rw [List.mapM_cons, h.1, ih h.2]
      rfl

/-- **A record is read back from its row.** -/
theorem Record.IsRow.ofRow? (h : record.IsRow row) : Record.ofRow? row = some record := by
  obtain ⟨hlength, hread⟩ := h
  have hnine : record.values.length = 9 := by
    have hlengths := congrArg List.length hread
    rw [List.length_map, List.length_map, hlength] at hlengths
    exact hlengths.symm
  rw [Record.ofRow?, mapM_toOption hread]
  obtain ⟨sent, bytes, clock, aes, wall, usage⟩ := record
  cases usage with
  | none => cases hnine
  | some usage => rfl

theorem Record.IsRow.ne_nil (h : record.IsRow row) : row ≠ [] := by
  rintro rfl
  exact absurd h.1 (by decide)

/-- The line of a record, without its end. -/
def Record.line (record : Record) : List Char := ['\t'].intercalate (record.cells.map String.toList)

theorem Record.cells_eq (h : record.usage ≠ none) :
    record.cells = record.values.map Count.text := by
  obtain ⟨sent, bytes, clock, aes, wall, usage⟩ := record
  cases usage with
  | none => exact absurd rfl h
  | some usage => rfl

theorem Record.tab_or_digit_of_mem_line (h : record.usage ≠ none) (hc : c ∈ record.line) :
    c = '\t' ∨ c.isDigit = true := by
  rw [Record.line, Record.cells_eq h, List.map_map] at hc
  refine (mem_intercalate hc).imp_right fun ⟨cell, hcell, hmem⟩ => ?_
  obtain ⟨n, -, rfl⟩ := List.mem_map.mp hcell
  exact isDigit_of_mem_text hmem

/-- **A record with usage stands in its row.** -/
theorem Record.isRow_line (h : record.usage ≠ none) : record.IsRow record.line := by
  have hcells : record.line.splitOn '\t' = record.values.map fun n => (Count.text n).toList := by
    rw [Record.line, Record.cells_eq h, List.map_map]
    refine List.splitOn_intercalate '\t' (fun cell hcell htab => ?_) ?_
    · obtain ⟨n, -, rfl⟩ := List.mem_map.mp hcell
      exact absurd (isDigit_of_mem_text htab) (by decide)
    · exact List.map_eq_nil_iff.not.mpr (List.cons_ne_nil _ _)
  have hnine : (record.values.map Count.text).length = 9 := by
    rw [← Record.cells_eq h]
    rfl
  rw [List.length_map] at hnine
  rw [Record.IsRow, hcells, List.length_map, List.map_map]
  exact ⟨hnine, List.map_congr_left fun n _ => read_text n⟩

theorem Record.usage_ne_none {o : Text.Occurrence} (h : Record.ofOccurrence true o = .ok record) :
    record.usage ≠ none := by
  obtain ⟨husage, -⟩ := ofGroups_eq_ok_iff.mp h
  exact Option.isSome_iff_ne_none.mp husage

/-- **All records of a profile have usage.** -/
theorem Profile.usage_ne_none {text : String} {profile : Profile}
    (h : Profile.read text = .ok profile) :
    (∀ record ∈ profile.insert, record.usage ≠ none) ∧
      ∀ record ∈ profile.extractMin, record.usage ≠ none := by
  obtain ⟨hinsert, hextract⟩ := read_profile_eq_ok.mp h
  exact ⟨Ledger.forall_mem_of_mapM (fun _ _ => Record.usage_ne_none) hinsert,
    Ledger.forall_mem_of_mapM (fun _ _ => Record.usage_ne_none) hextract⟩

/-! ### Tables and profiles -/

/-- The line of the nine titles. -/
def titleLine : List Char := ['\t'].intercalate (Record.titles.map String.toList)

/-- The lines of a table: a heading, the titles, the rows, and an empty line. -/
def tableLines (heading : String) (rows : List (List Char)) : List (List Char) :=
  heading.toList :: titleLine :: rows ++ [[]]

/-- The lines of both tables of a profile with these rows. -/
def bothTables (insert extractMin : List (List Char)) : List (List Char) :=
  tableLines "Insert Stats:" insert ++ tableLines "Extract Min Stats:" extractMin

/-- **The text is the tables of the profile**: these are its lines, with a row for each record in
order, and a line feed after each. -/
def TablesOf (profile : Profile) (text : String) : Prop :=
  ∃ insert extractMin, text.toList = (bothTables insert extractMin).flatMap (· ++ ['\n']) ∧
    HasLines text.toList (bothTables insert extractMin) ∧
    List.Forall₂ Record.IsRow profile.insert insert ∧
    List.Forall₂ Record.IsRow profile.extractMin extractMin

/-- The profile in the text of tables: the rows up to an empty line, each time after two lines. -/
def Profile.ofTables? (text : List Char) : Option Profile := do
  let rows := (lines text).drop 2
  let insert ← (rows.takeWhile (· ≠ [])).mapM Record.ofRow?
  let more := (rows.dropWhile (· ≠ [])).drop 3
  let extractMin ← (more.takeWhile (· ≠ [])).mapM Record.ofRow?
  return ⟨insert, extractMin⟩

variable {records : List Record} {rows : List (List Char)}

theorem mapM_ofRow? (h : List.Forall₂ Record.IsRow records rows) :
    rows.mapM Record.ofRow? = some records := by
  induction h with
  | nil => rfl
  | cons hrow _ ih =>
    rw [List.mapM_cons, hrow.ofRow?, ih]
    rfl

theorem takeWhile_rows (h : List.Forall₂ Record.IsRow records rows) (rest : List (List Char)) :
    (rows ++ [] :: rest).takeWhile (· ≠ []) = rows ∧
      (rows ++ [] :: rest).dropWhile (· ≠ []) = [] :: rest := by
  have hrows : ∀ row ∈ rows, decide (row ≠ []) = true := by
    induction h with
    | nil => exact List.forall_mem_nil _
    | cons hrow _ ih => exact List.forall_mem_cons.mpr ⟨decide_eq_true hrow.ne_nil, ih⟩
  rw [List.takeWhile_append_of_pos hrows, List.dropWhile_append_of_pos hrows]
  exact ⟨List.append_nil rows, rfl⟩

/-- **A profile is read back from the text of its tables.** -/
theorem Profile.ofTables?_of_tablesOf {profile : Profile} {text : String}
    (h : TablesOf profile text) : Profile.ofTables? text.toList = some profile := by
  obtain ⟨insert, extractMin, -, hlines, hinsert, hextract⟩ := h
  -- Below the first heading and titles: rows, an empty line, and the other table.
  have hrows : (lines text.toList).drop 2 =
      insert ++ [] :: ("Extract Min Stats:".toList :: titleLine :: (extractMin ++ [[]])) := by
    rw [hasLines_iff.mp hlines, bothTables, tableLines, tableLines]
    simp
  obtain ⟨htake, hdrop⟩ := takeWhile_rows hinsert
    ("Extract Min Stats:".toList :: titleLine :: (extractMin ++ [[]]))
  obtain ⟨hlast, -⟩ := takeWhile_rows hextract []
  rw [Profile.ofTables?, hrows, htake, mapM_ofRow? hinsert, hdrop]
  show (((extractMin ++ [[]]).takeWhile (· ≠ [])).mapM Record.ofRow?).bind _ = _
  rw [hlast, mapM_ofRow? hextract]
  rfl

/-! ### Printed tables -/

/-- The lines of the table of an operation. -/
def operationLines (operation : Operation) (records : List Record) : List String :=
  (operation.title ++ ":") :: "\t".intercalate Record.titles ::
    (records.map fun record => "\t".intercalate record.cells) ++ [""]

/-- The lines of both tables of a profile. -/
def profileLines (profile : Profile) : List String :=
  operationLines .insert profile.insert ++ operationLines .extractMin profile.extractMin

theorem map_toList_operationLines (operation : Operation) (records : List Record) :
    (operationLines operation records).map String.toList =
      tableLines (operation.title ++ ":") (records.map Record.line) := by
  rw [operationLines, List.map_append, List.map_cons, List.map_cons, List.map_map,
    String.toList_intercalate]
  have hrows : (String.toList ∘ fun record : Record => "\t".intercalate record.cells) =
      Record.line := funext fun record => String.toList_intercalate
  rw [hrows]
  rfl

theorem map_toList_profileLines (profile : Profile) :
    (profileLines profile).map String.toList =
      bothTables (profile.insert.map Record.line) (profile.extractMin.map Record.line) := by
  rw [profileLines, List.map_append, map_toList_operationLines, map_toList_operationLines]
  rfl

/-- The line has no character that would end it or begin an escape sequence. -/
def IsShown (line : List Char) : Prop := ∀ c ∈ line, c ≠ '\n' ∧ c ≠ '\r' ∧ c ≠ '\x1b'

instance (line : List Char) : Decidable (IsShown line) := List.decidableBAll _ line

theorem Record.isShown_line (h : record.usage ≠ none) : IsShown record.line := by
  intro c hc
  rcases Record.tab_or_digit_of_mem_line h hc with rfl | hdigit
  · decide
  · refine ⟨?_, ?_, ?_⟩ <;> rintro rfl <;> cases hdigit

theorem isShown_tableLines {heading : String} (hheading : IsShown heading.toList)
    {records : List Record} (h : ∀ record ∈ records, record.usage ≠ none) :
    ∀ line ∈ tableLines heading (records.map Record.line), IsShown line := by
  have htitles : IsShown titleLine := by decide +kernel
  have hrows : ∀ line ∈ records.map Record.line, IsShown line := by
    intro line hline
    obtain ⟨record, hrecord, rfl⟩ := List.mem_map.mp hline
    exact Record.isShown_line (h record hrecord)
  have hempty : ∀ line ∈ [([] : List Char)], IsShown line := by decide
  exact List.forall_mem_append.mpr
    ⟨List.forall_mem_cons.mpr ⟨hheading, List.forall_mem_cons.mpr ⟨htitles, hrows⟩⟩, hempty⟩

theorem forall₂_isRow {records : List Record} (h : ∀ record ∈ records, record.usage ≠ none) :
    List.Forall₂ Record.IsRow records (records.map Record.line) :=
  List.forall₂_map_right_iff.mpr
    (List.forall₂_same.mpr fun record hrecord => Record.isRow_line (h record hrecord))

end RunLog

namespace CommandLine

open Disk (Path Worker Script)
open RunLog (IsShown Operation Profile Record TablesOf isShown_tableLines map_toList_profileLines
  operationLines profileLines)

theorem toList_onLines (items : List String) :
    (onLines items).toList = (items.map String.toList).flatMap (· ++ ['\n']) := by
  rw [onLines, String.toList_join, List.flatMap_map, List.flatMap_map]
  exact congrArg (List.flatMap · items) (funext fun item => String.toList_append)

theorem recordTable_plain (operation : Operation) (records : List Record) :
    recordTable operation true records =
      (operationLines operation records).map fun line => .ok (line ++ "\n") := by
  have htitles : (Table.fitting Record.titles 3 true).titleRow false =
      .ok ("\t".intercalate Record.titles ++ "\n") :=
    (Table.titleRow_of_plain rfl false).trans (Table.row_of_plain rfl rfl)
  have hrows : (records.map fun record =>
        (Table.fitting Record.titles 3 true).dataRow record.cells) =
      (records.map fun record => "\t".intercalate record.cells).map fun line =>
        .ok (line ++ "\n") := by
    rw [List.map_map]
    exact List.map_congr_left fun record _ => Table.row_of_plain rfl rfl
  rw [recordTable, operationLines, htitles, hrows, List.map_append, List.map_cons, List.map_cons,
    String.append_assoc]
  rfl

theorem ofPieces_ok (pieces : List String) :
    Printout.ofPieces (pieces.map .ok) = ⟨String.join pieces, none⟩ := by
  induction pieces with
  | nil => rfl
  | cons piece pieces ih =>
    rw [List.map_cons, Printout.ofPieces, ih, String.join_cons]

/-- **The plain tables of a profile**, as they are printed. -/
theorem ofPieces_profileTables (profile : Profile) :
    Printout.ofPieces ((profileTables true profile).map (·.mapError .table)) =
      ⟨onLines (profileLines profile), none⟩ := by
  rw [profileLines, profileTables, recordTable_plain, recordTable_plain, ← List.map_append,
    List.map_map, onLines, ← ofPieces_ok, List.map_map]
  rfl

example : onLines (operationLines .insert [⟨1, 2, 3, 4, 9, some ⟨5, 6, 7, 8⟩⟩]) =
    "Insert Stats:\nMessages Sent\tMessage Bytes Sent\tLamport Clock\tLocal AES Operations\t" ++
      "Wall Clock Time (ms)\tReal Time\tUser Time\tSystem Time\tMemory (KiB)\n" ++
      "1\t2\t3\t4\t9\t5\t6\t7\t8\n\n" := by
  decide +kernel

theorem value_question {disk : Disk} {path : Path} {text : String}
    (hread : disk.read path = .ok text.toUTF8) (question : Question) :
    ((question.perform path).run disk).value =
      match (question.answer path text).outcome with
      | .error failure => { failure? := some failure }
      | .ok pieces => .ofPieces pieces := by
  have htext : (Disk.readText path).run disk = ⟨.ok text, disk, []⟩ := by
    show Script.Outcome.mk (Disk.decode path (disk.read path)) disk [] = _
    rw [(Disk.decode_eq_ok path).mpr hread]
  unfold Question.perform Script.ofJournaled
  simp only [Script.run_bind, htext, Script.run_noteAll]
  cases (question.answer path text).outcome <;> rfl

/-- **The ending is that of a run that asks for the plain tables of a log**: the arguments say so,
at any level of notes, and the file that they name holds the text. -/
def AnswersPlain (text : String) (ending : Ending) : Prop :=
  ∃ arguments switches path level disk worker,
    Invocation.read arguments = .ok ⟨switches, .ask (.statsTable true) path⟩ ∧
    switches.level = .ok level ∧ disk.read path = .ok text.toUTF8 ∧
    ((run worker arguments).run disk).value = ending

/-- A disk with one file, that holds the text. -/
def diskOf (text : String) : Disk := ⟨[(["l"], .file Disk.Node.fileMode text.toUTF8)], {}⟩

theorem exists_answersPlain (text : String) : ∃ ending, AnswersPlain text ending :=
  ⟨_, ["stats-table", "--tsv", "l"], {}, ⟨"l"⟩, .warn, diskOf text, ⟨7, 8⟩, by decide +kernel, rfl,
    rfl, rfl⟩

theorem ending_of_answersPlain {text : String} {ending : Ending} {profile : Profile}
    (h : AnswersPlain text ending) (hprofile : Profile.read text = .ok profile) :
    ending = ⟨0, onLines (profileLines profile), ""⟩ := by
  obtain ⟨arguments, switches, path, level, disk, worker, hasked, hlevel, hread, rfl⟩ := h
  have hanswer : (Question.answer path text (.statsTable true)).outcome =
      .ok ((profileTables true profile).map (·.mapError .table)) := by
    rw [Question.answer, hprofile]
    rfl
  rw [run, hasked]
  dsimp only
  rw [Invocation.perform, hlevel]
  dsimp only
  rw [Script.run_bind, Script.run_heardAt]
  show Ending.ofPrintout ((Question.perform path (.statsTable true)).run disk).value = _
  rw [value_question hread, hanswer]
  dsimp only
  rw [ofPieces_profileTables]
  rfl

/-- **The tables that are printed** are those of the profile, and have no escape sequence. -/
theorem tablesOf_profileLines {text : String} {profile : Profile}
    (h : Profile.read text = .ok profile) :
    TablesOf profile (onLines (profileLines profile)) ∧
      '\x1b' ∉ (onLines (profileLines profile)).toList := by
  obtain ⟨hinsert, hextract⟩ := Profile.usage_ne_none h
  have hshown := List.forall_mem_append.mpr
    ⟨isShown_tableLines (by decide +kernel : IsShown "Insert Stats:".toList) hinsert,
      isShown_tableLines (by decide +kernel : IsShown "Extract Min Stats:".toList) hextract⟩
  have hlines := toList_onLines (profileLines profile)
  rw [map_toList_profileLines] at hlines
  refine ⟨⟨_, _, hlines, ?_, RunLog.forall₂_isRow hinsert, RunLog.forall₂_isRow hextract⟩, ?_⟩
  · rw [hlines]
    refine Text.hasLines_flatMap fun line hline => ⟨fun hfeed => ?_, fun hreturn => ?_⟩
    · exact (hshown line hline _ hfeed).1 rfl
    · exact (hshown line hline _ (List.mem_of_getLast? hreturn)).2.1 rfl
  · rw [hlines]
    intro hescape
    obtain ⟨line, hline, hmem⟩ := List.mem_flatMap.mp hescape
    rcases List.mem_append.mp hmem with hmem | hmem
    · exact (hshown line hline _ hmem).2.2 rfl
    · exact absurd hmem (by decide)

/-- **The plain tables of a log lose nothing.** A run that asks for them prints the tables of the
profile without any escape sequence; the profile is read back from what is printed, so logs with
different profiles are never answered with the same text. -/
theorem tables_lossless {text : String} {ending : Ending} {profile : Profile}
    (h : AnswersPlain text ending) (hprofile : Profile.read text = .ok profile) :
    ending.code = 0 ∧ TablesOf profile ending.output ∧ '\x1b' ∉ ending.output.toList ∧
      Profile.ofTables? ending.output.toList = some profile ∧
      ∀ (other : String) (otherEnding : Ending) (otherProfile : Profile),
        AnswersPlain other otherEnding → Profile.read other = .ok otherProfile →
          otherProfile ≠ profile → otherEnding.output ≠ ending.output := by
  obtain rfl := ending_of_answersPlain h hprofile
  obtain ⟨htables, hescape⟩ := tablesOf_profileLines hprofile
  have hback := Profile.ofTables?_of_tablesOf htables
  refine ⟨rfl, htables, hescape, hback, ?_⟩
  intro other otherEnding otherProfile hother hread hne heq
  obtain rfl := ending_of_answersPlain hother hread
  have hotherBack := Profile.ofTables?_of_tablesOf (tablesOf_profileLines hread).1
  dsimp only at heq
  rw [heq, hback] at hotherBack
  exact hne (Option.some.inj hotherBack).symm

/-- The tables of a log of one run, and those of an empty log. -/
theorem tables_lossless_firstRunLog : ∃ ending other,
    AnswersPlain RunLog.firstRunLog ending ∧ AnswersPlain "" other ∧ ending.code = 0 ∧
      TablesOf ⟨[⟨1, 2, 3, 4, 9, some ⟨5, 6, 7, 8⟩⟩], []⟩ ending.output ∧
      Profile.ofTables? ending.output.toList =
        some ⟨[⟨1, 2, 3, 4, 9, some ⟨5, 6, 7, 8⟩⟩], []⟩ ∧
      other.output ≠ ending.output := by
  obtain ⟨ending, hending⟩ := exists_answersPlain RunLog.firstRunLog
  obtain ⟨other, hother⟩ := exists_answersPlain ""
  obtain ⟨hcode, htables, -, hback, hothers⟩ :=
    tables_lossless hending RunLog.read_profile_firstRunLog
  exact ⟨ending, other, hending, hother, hcode, htables, hback,
    hothers "" other ⟨[], []⟩ hother (by decide +kernel) (by decide)⟩

end CommandLine

end BenchLedger
