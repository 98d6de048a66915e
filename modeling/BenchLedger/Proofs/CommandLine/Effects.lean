import BenchLedger.CommandLine.Run
import BenchLedger.Proofs.Disk.Effect
import BenchLedger.Proofs.Ledger.Failure
import BenchLedger.Proofs.Table.Rows

/-! # What a run prints and changes

All rows of a table have as many cells as there are columns, so an answer that is begun is printed
as a whole (`allFine_answer`), and a failure comes before it. Questions change nothing; a sample
changes at most the file that its path leads to (`ends_append`). So a run that fails prints nothing
and changes nothing (`harmless_of_ends`). -/

namespace BenchLedger

/-! ### Tables -/

namespace Table

theorem isOk_row (table : Table) (paint : String → String) {cells : List String}
    (h : cells.length = table.widths.length + 1) : (table.row paint cells).isOk = true := by
  rw [row_eq h]
  rfl

theorem isOk_titleRow {titles : List String} (h : titles ≠ []) (gap : ℕ) (plain color : Bool) :
    ((fitting titles gap plain).titleRow color).isOk = true := by
  have haccepts : (fitting titles gap plain).Accepts (.titles color) := length_titles h gap plain
  obtain ⟨text, htext⟩ := exists_result haccepts
  exact congrArg Except.isOk htext

end Table

namespace CommandLine

open Disk (Path Worker Script)

variable {exposed : Disk.Request → Prop} {disk after : Disk} {worker : Worker} {path : Path}
  {key : Ledger.Key} {sample : Binary64} {printout : Printout}

/-! ### Answers -/

/-- No piece fails. -/
def AllFine {ε : Type} (pieces : List (Except ε String)) : Prop :=
  ∀ piece ∈ pieces, piece.isOk = true

theorem failure?_ofPieces {pieces : List (Except Failure String)} (h : AllFine pieces) :
    (Printout.ofPieces pieces).failure? = none := by
  induction pieces with
  | nil => rfl
  | cons piece pieces ih =>
    obtain ⟨hpiece, hpieces⟩ := List.forall_mem_cons.mp h
    cases piece with
    | error failure => cases hpiece
    | ok text => exact ih hpieces

theorem allFine_countLines (numbers : List UInt64) : AllFine (countLines numbers) := by
  intro piece hpiece
  obtain ⟨n, -, rfl⟩ := List.mem_map.mp hpiece
  rfl

theorem allFine_recordTable (operation : RunLog.Operation) (plain : Bool)
    (records : List RunLog.Record) : AllFine (recordTable operation plain records) := by
  have htitles := Table.isOk_titleRow (by decide : RunLog.Record.titles ≠ []) 3 plain false
  have hrows : AllFine (records.map fun record =>
      (Table.fitting RunLog.Record.titles 3 plain).dataRow record.cells) := by
    intro piece hpiece
    obtain ⟨record, -, rfl⟩ := List.mem_map.mp hpiece
    exact Table.isOk_row _ id rfl
  intro piece hpiece
  rcases List.mem_cons.mp hpiece with rfl | hpiece
  · rfl
  rcases List.mem_cons.mp hpiece with rfl | hpiece
  · exact htitles
  rcases List.mem_append.mp hpiece with hpiece | hpiece
  · exact hrows piece hpiece
  · obtain rfl := List.mem_singleton.mp hpiece
    rfl

theorem allFine_profileTables (plain : Bool) (profile : RunLog.Profile) :
    AllFine (profileTables plain profile) :=
  List.forall_mem_append.mpr
    ⟨allFine_recordTable .insert plain _, allFine_recordTable .extractMin plain _⟩

/-- **An answer that is begun is printed as a whole.** -/
theorem allFine_answer {question : Question} {text : String} {pieces : List (Except Failure String)}
    (h : (question.answer path text).outcome = .ok pieces) : AllFine pieces := by
  cases question with
  | heap =>
    obtain ⟨log, -, hpieces⟩ := Journaled.outcome_bind_eq_ok.mp h
    cases hpieces
    exact allFine_countLines _
  | statsTable plain =>
    obtain ⟨profile, -, hpieces⟩ := Journaled.outcome_bind_eq_ok.mp h
    cases hpieces
    intro piece hpiece
    obtain ⟨row, hrow, rfl⟩ := List.mem_map.mp hpiece
    have hfine := allFine_profileTables plain profile row hrow
    cases row with
    | error fault => cases hfine
    | ok text => rfl
  | binarySearch =>
    obtain ⟨records, -, hworst⟩ := Journaled.outcome_bind_eq_ok.mp h
    obtain ⟨worst, -, hpieces⟩ := Journaled.outcome_bind_eq_ok.mp hworst
    cases hpieces
    exact allFine_countLines _
  | parties =>
    obtain ⟨log, -, hpieces⟩ := Journaled.outcome_bind_eq_ok.mp h
    cases hpieces
    exact allFine_countLines _

/-- What fails prints nothing. -/
def Printout.Silent (printout : Printout) : Prop := printout.failure? ≠ none → printout.text = ""

theorem silent_ofPieces {pieces : List (Except Failure String)} (h : AllFine pieces) :
    (Printout.ofPieces pieces).Silent := fun hfailure => absurd (failure?_ofPieces h) hfailure

/-! ### Commands -/

/-- **A question changes nothing**, and if there is no answer, nothing is printed. -/
theorem ends_question {question : Question}
    (h : (question.perform path).Ends exposed disk after printout) :
    after = disk ∧ printout.Silent := by
  unfold Question.perform at h
  obtain ⟨text, middle, hread, hrest⟩ := Script.ends_bind.mp h
  obtain rfl := (Disk.ends_readText hread).1
  cases text with
  | error fault =>
    obtain ⟨rfl, rfl⟩ := Script.ends_pure.mp hrest
    exact ⟨rfl, fun _ => rfl⟩
  | ok text =>
    obtain ⟨_, noted, hnote, hnoted⟩ := Script.ends_bind.mp hrest
    obtain rfl := Script.ends_noteAll hnote
    obtain ⟨answer, answered, hanswer, hend⟩ := Script.ends_bind.mp hnoted
    obtain ⟨rfl, rfl⟩ := Script.ends_ofJournaled hanswer
    cases hpieces : (question.answer path text).outcome with
    | error failure =>
      rw [hpieces] at hend
      obtain ⟨rfl, rfl⟩ := Script.ends_pure.mp hend
      exact ⟨rfl, fun _ => rfl⟩
    | ok pieces =>
      rw [hpieces] at hend
      obtain ⟨rfl, rfl⟩ := Script.ends_pure.mp hend
      exact ⟨rfl, silent_ofPieces (allFine_answer hpieces)⟩

/-- **What a run may do**, if `ledger?` is the ledger that it posts to: if it fails, nothing at all;
else it may print, or change the contents of the one file that the path of the ledger leads to. -/
structure Harmless (disk : Disk) (worker : Worker) (ledger? : Option Path) (failed : Prop)
    (output : String) (after : Disk) : Prop where
  of_failed : failed → output = "" ∧ after = disk
  of_none : ledger? = none → after = disk
  of_some : ∀ path ∈ ledger?, output = "" ∧
    (after = disk ∨ ∃ location mode old new,
      disk.seek true path = .ok (.found location (.file mode old)) ∧
        after = disk.put location (.file mode new)) ∧
    ∀ scratch ∈ disk.temporary? worker path, after.NoEntry scratch

theorem exists_read_of_load {ledger : Ledger}
    (h : (Ledger.load path).Ends exposed disk after (.ok ledger)) :
    ∃ bytes, disk.read path = .ok bytes := by
  unfold Ledger.load at h
  obtain ⟨text, middle, hread, hrest⟩ := Script.ends_bind.mp h
  cases text with
  | error fault => cases (Script.ends_pure.mp hrest).2
  | ok text => exact (Disk.ends_readText hread).2 text rfl

theorem ends_update_ok {posting : Ledger.Posting}
    (h : (Ledger.update worker path key sample).Ends exposed disk after (.ok posting)) :
    (∃ bytes, disk.read path = .ok bytes) ∧
      ∃ ledger : Ledger,
        (Disk.replace worker path ledger.text.toUTF8).Ends exposed disk after (.ok ()) := by
  unfold Ledger.update at h
  obtain ⟨found, middle, hload, hrest⟩ := Script.ends_bind.mp h
  obtain rfl := Ledger.ends_load hload
  cases found with
  | error fault => cases (Script.ends_pure.mp hrest).2
  | ok ledger =>
    obtain ⟨outcome, saved, hsave, hsaved⟩ := Script.ends_bind.mp hrest
    cases outcome with
    | error fault => cases (Script.ends_pure.mp hsaved).2
    | ok _ =>
      obtain ⟨_, noted, hnote, hend⟩ := Script.ends_bind.mp hsaved
      have hafter : after = saved :=
        (Script.ends_pure.mp hend).1.trans (Script.ends_noteAll hnote)
      exact ⟨exists_read_of_load hload, _, hafter ▸ Ledger.ends_save_ok hsave⟩

/-- **A sample changes at most the file that its path leads to.** -/
theorem ends_append (hsound : disk.Sound) (hclean : disk.Untouched worker path)
    (h : (Command.perform worker (.append path key sample)).Ends Disk.Request.butRemoval disk after
      printout) :
    Harmless disk worker (some path) (printout.failure? ≠ none) printout.text after := by
  obtain ⟨posted, middle, hupdate, hend⟩ := Script.ends_bind.mp h
  cases posted with
  | error fault =>
    obtain ⟨rfl, rfl⟩ := Script.ends_pure.mp hend
    have hrestored := Ledger.Fails.restored (Or.inr (Or.inr ⟨key, sample, fault, hupdate⟩)) hclean
    obtain rfl := hrestored.eq fun _ _ hrisk => hrisk
    refine ⟨fun _ => ⟨rfl, rfl⟩, nofun, ?_⟩
    rintro _ ⟨⟩
    exact ⟨rfl, Or.inl rfl, hclean⟩
  | ok posting =>
    obtain ⟨rfl, rfl⟩ := Script.ends_pure.mp hend
    obtain ⟨⟨bytes, hread⟩, ledger, hreplace⟩ := ends_update_ok hupdate
    obtain ⟨location, mode, hrenewed, hgone⟩ :=
      Disk.renewed_of_effected hsound hclean ((Disk.keeps_replace hclean _).ends hreplace)
    -- The ledger was read from a file, so that is what the path leads to, and what was replaced.
    obtain ⟨location', mode', hlocate, -⟩ := Disk.read_ok hread
    have hseek := Disk.seek_of_locate hlocate nofun
    have hdestination : disk.destination? path = some location' := by
      simp [Disk.destination?, hseek]
    obtain rfl : location = location' :=
      Option.some.inj (hrenewed.destination.symm.trans hdestination)
    refine ⟨fun hfailure => absurd rfl hfailure, nofun, ?_⟩
    rintro _ ⟨⟩
    have hmode : mode = mode' := by
      rw [hrenewed.mode_eq, Disk.node?_of_seek hsound hseek]
      rfl
    exact ⟨rfl, Or.inr ⟨location, mode, bytes, _, hmode ▸ hseek, hrenewed.after_eq⟩, hgone⟩

/-- The ledger that a command posts to. -/
def Command.ledger? : Command → Option Path
  | append ledger _ _ => some ledger
  | _ => none

/-- The ledger that a run posts to. -/
def ledger? (arguments : List String) : Option Path :=
  match Invocation.read arguments with
  | .ok invocation => invocation.command.ledger?
  | .error _ => none

theorem ends_command {command : Command} (hsound : disk.Sound)
    (hclean : ∀ path ∈ command.ledger?, disk.Untouched worker path)
    (h : (command.perform worker).Ends Disk.Request.butRemoval disk after printout) :
    Harmless disk worker command.ledger? (printout.failure? ≠ none) printout.text after := by
  cases command with
  | version =>
    obtain ⟨rfl, rfl⟩ := Script.ends_pure.mp h
    exact ⟨fun hfailure => absurd rfl hfailure, fun _ => rfl, nofun⟩
  | ask question log =>
    obtain ⟨rfl, hsilent⟩ := ends_question h
    exact ⟨fun hfailure => ⟨hsilent hfailure, rfl⟩, fun _ => rfl, nofun⟩
  | append path key sample => exact ends_append hsound (hclean path rfl) h

theorem harmless_of_eq {ledger? : Option Path} {failed : Prop} {output : String}
    (hclean : ∀ path ∈ ledger?, disk.Untouched worker path)
    (h : failed ∨ ledger? ≠ none → output = "") :
    Harmless disk worker ledger? failed output disk where
  of_failed hfailed := ⟨h (Or.inl hfailed), rfl⟩
  of_none _ := rfl
  of_some path hpath :=
    ⟨h (Or.inr (Option.ne_none_iff_exists'.mpr ⟨path, hpath⟩)), Or.inl rfl, hclean path hpath⟩

/-- **A run that fails has no output and no effect**, whatever its arguments are and whatever fails,
as long as a temporary file can be removed. Only a run that posts a sample changes anything, and
that is the one file that the path of its ledger leads to; it prints nothing and leaves no temporary
file. -/
theorem harmless_of_ends {arguments : List String} {ending : Ending} (hsound : disk.Sound)
    (hclean : ∀ path ∈ ledger? arguments, disk.Untouched worker path)
    (h : (run worker arguments).Ends Disk.Request.butRemoval disk after ending) :
    Harmless disk worker (ledger? arguments) (ending.code ≠ 0) ending.output after := by
  unfold ledger? at hclean ⊢
  unfold run at h
  cases hread : Invocation.read arguments with
  | error halt =>
    rw [hread] at h
    obtain ⟨rfl, rfl⟩ := Script.ends_done.mp h
    refine harmless_of_eq nofun fun hfailed => ?_
    cases halt with
    | help => exact absurd rfl (hfailed.resolve_right fun hledger => hledger rfl)
    | misuse => rfl
  | ok invocation =>
    rw [hread] at h hclean
    dsimp only at h hclean ⊢
    unfold Invocation.perform at h
    cases hlevel : invocation.switches.level with
    | error conflict =>
      rw [hlevel] at h
      obtain ⟨rfl, rfl⟩ := Script.ends_done.mp h
      exact harmless_of_eq hclean fun _ => rfl
    | ok level =>
      rw [hlevel] at h
      obtain ⟨printout, middle, hperform, hend⟩ := Script.ends_bind.mp h
      obtain ⟨rfl, rfl⟩ := Script.ends_pure.mp hend
      have hcommand := ends_command hsound hclean (Script.ends_heardAt.mp hperform)
      unfold Ending.ofPrintout
      cases hfailure : printout.failure? with
      | none => exact ⟨fun hcode => absurd rfl hcode, hcommand.of_none, hcommand.of_some⟩
      | some failure =>
        have hfailed := hcommand.of_failed (by rw [hfailure]; exact Option.some_ne_none _)
        exact ⟨fun _ => hfailed, hcommand.of_none, hcommand.of_some⟩

/-- A disk with a ledger behind a link, and a log that lacks a setting. -/
def postDisk : Disk :=
  ⟨[(["d"], .directory Disk.Node.directoryMode),
    (["r", "d"], .file 0o600 "DS\n".toUTF8),
    (["l"], .link "d/r"), (["h"], .file Disk.Node.fileMode "heapsize: 8\n".toUTF8)], {}⟩

/-- Runs on this disk. -/
def postRun (arguments : List String) : Script.Outcome Ending := (run ⟨7, 8⟩ arguments).run postDisk

/-- A log that lacks a setting gives no answer. -/
def failedRun : Script.Outcome Ending := postRun ["heap", "h"]

/-- A sample is posted to the file behind the link. -/
def postedRun : Script.Outcome Ending := postRun ["append", "l", "a", "op", "1", "8", "-2"]

theorem code_failedRun : failedRun.value.code = 1 := by decide +kernel

theorem read_postedRun : postedRun.disk.read ⟨"l"⟩ =
    .ok "DS OP is_optimized heapsize y pm y-err\na op 1 8 -2.0 ± 0.0\n".toUTF8 := by
  decide +kernel

/-- The one prints nothing and changes nothing, the other changes one file, to the text with the
sample. -/
theorem harmless_of_ends_postDisk :
    failedRun.value.output = "" ∧ failedRun.disk = postDisk ∧
      postedRun.value.output = "" ∧ postedRun.disk.NoEntry ⟨"/d/r.tmp~7-8"⟩ ∧
      postedRun.disk = postDisk.put ["r", "d"]
        (.file 0o600 "DS OP is_optimized heapsize y pm y-err\na op 1 8 -2.0 ± 0.0\n".toUTF8) := by
  have hsound : postDisk.Sound := trivial
  have hasked : ledger? ["heap", "h"] = none := by decide +kernel
  have hposted : ledger? ["append", "l", "a", "op", "1", "8", "-2"] = some ⟨"l"⟩ := by
    decide +kernel
  have hclean : ∀ path ∈ ledger? ["append", "l", "a", "op", "1", "8", "-2"],
      postDisk.Untouched ⟨7, 8⟩ path := by
    rw [hposted]
    rintro _ ⟨⟩
    decide +kernel
  have hscratch : postDisk.temporary? ⟨7, 8⟩ ⟨"l"⟩ = some ⟨"/d/r.tmp~7-8"⟩ := by decide +kernel
  have hseek : postDisk.seek true ⟨"l"⟩ = .ok (.found ["r", "d"] (.file 0o600 "DS\n".toUTF8)) := rfl
  have hold : postDisk.read ⟨"l"⟩ = .ok "DS\n".toUTF8 := rfl
  have hfailed := harmless_of_ends hsound (by rw [hasked]; exact nofun)
    (Script.ends_run _ (run ⟨7, 8⟩ ["heap", "h"]) postDisk)
  have hharmless := harmless_of_ends hsound hclean
    (Script.ends_run _ (run ⟨7, 8⟩ ["append", "l", "a", "op", "1", "8", "-2"]) postDisk)
  obtain ⟨hsilent, hsame⟩ := hfailed.of_failed (code_failedRun ▸ Nat.one_ne_zero)
  obtain ⟨houtput, hchange, hgone⟩ := hharmless.of_some ⟨"l"⟩ hposted
  refine ⟨hsilent, hsame, houtput, hgone _ hscratch, ?_⟩
  have hread := read_postedRun
  rcases hchange with hkept | ⟨location, mode, old, new, hfile, hchange⟩
  · rw [postedRun, postRun, hkept, hold] at hread
    exact absurd hread (by decide +kernel)
  · rw [hseek] at hfile
    cases hfile
    have hnew : postedRun.disk = postDisk.put ["r", "d"] (.file 0o600 new) := hchange
    have hthere : postedRun.disk.seek true ⟨"l"⟩ = .ok (.found ["r", "d"] (.file 0o600 new)) := by
      rw [hnew]
      rfl
    rw [Disk.read_of_seek hthere, Disk.reading] at hread
    split_ifs at hread
    rw [hnew, Except.ok.inj hread]

end CommandLine

end BenchLedger
