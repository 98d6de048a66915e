import BenchLedger.CommandLine.Run
import BenchLedger.Proofs.Binary64.RoundTrip
import BenchLedger.Proofs.Text.OneLine

/-! # Notes of one line

A note takes one line, whatever stands in the files and the arguments it is about: texts from
outside are quoted, labels of parties are a letter and digits, and the rest are numbers and words of
this library. First this is seen of the notes of readers (`oneLine_answer`), then of those of
scripts (`tellsLines_perform`). -/

namespace BenchLedger

open Text

/-- **A number in a sentence is one line.** -/
theorem Binary64.oneLine_text (x : Binary64) : OneLine (String.ofList (x.text .prose)) := by
  have hsize : ∀ size : Magnitude, '\n' ∉ (if size.isFinite then size.shortest.text .prose
      else "inf".toList) := by
    intro size h
    split_ifs at h
    · rcases Decimal.mem_text h with hdigit | hmark
      · exact absurd hdigit (by decide)
      · exact absurd hmark (by decide)
    · exact absurd h (by decide)
  refine oneLine_ofList ?_
  cases x with
  | nan => decide
  | signed negative size =>
    rw [Binary64.text, List.mem_append, not_or]
    refine ⟨?_, hsize size⟩
    split_ifs
    · decide
    · decide

/-! ### Notes of readers -/

namespace Journaled

variable {ε δ α β : Type} {first : Journaled ε α} {next : α → Journaled ε β}

/-- All notes take one line. -/
def OneLine (journaled : Journaled ε α) : Prop := ∀ note ∈ journaled.notes, Text.OneLine note.text

theorem oneLine_pure (value : α) : (pure value : Journaled ε α).OneLine := nofun

theorem oneLine_ofExcept (outcome : Except ε α) : (ofExcept outcome).OneLine := nofun

theorem oneLine_note {level : Level} {text : String} (h : Text.OneLine text) :
    (note level text : Journaled ε Unit).OneLine := List.forall_mem_singleton.mpr h

theorem OneLine.mapFault (h : first.OneLine) (f : ε → δ) : (first.mapFault f).OneLine := h

theorem OneLine.bind (h : first.OneLine) (hnext : ∀ value, (next value).OneLine) :
    (first >>= next).OneLine := by
  show (first.bind next).OneLine
  unfold Journaled.bind
  cases first.outcome with
  | error fault => exact h
  | ok value => exact List.forall_mem_append.mpr ⟨h, hnext value⟩

theorem oneLine_foldlM {step : α → β → Journaled ε α} {items : List β}
    (h : ∀ value, ∀ item ∈ items, (step value item).OneLine) (value : α) :
    (items.foldlM step value).OneLine := by
  induction items generalizing value with
  | nil => exact oneLine_pure value
  | cons item items ih =>
    rw [List.foldlM_cons]
    exact (h value item List.mem_cons_self).bind
      (ih fun value item hitem => h value item (List.mem_cons_of_mem _ hitem))

end Journaled

namespace RunLog

open Journaled

theorem oneLine_sectionRecords (operation : Operation) (text : List Char) :
    (sectionRecords operation text).OneLine := by
  have hquoted := oneLine_quoted operation.title
  unfold sectionRecords
  cases section? operation text with
  | none =>
    refine (oneLine_note ?_).bind fun _ => oneLine_pure _
    exact ((by decide : OneLine "no ").append hquoted).append (by decide)
  | some body =>
    refine (oneLine_ofExcept _).bind fun records => (oneLine_note ?_).bind fun _ => oneLine_pure _
    exact ((hquoted.append (by decide)).append (oneLine_repr _)).append (by decide)

theorem HeapLog.oneLine_journaled (text : String) : (HeapLog.journaled text).OneLine :=
  (oneLine_ofExcept _).bind fun _ => (oneLine_sectionRecords .insert _).bind fun _ =>
    (oneLine_sectionRecords .extractMin _).bind fun _ => oneLine_pure _

theorem Trials.oneLine_journaled (text : String) : (Trials.journaled text).OneLine := by
  refine (oneLine_ofExcept _).bind fun records => (oneLine_note ?_).bind fun _ => oneLine_pure _
  exact ((by decide : OneLine "found ").append (oneLine_repr _)).append (by decide)

theorem oneLine_label {line : List Char} {label : String}
    (h : Line.ofText line = .heading (some label)) : OneLine label := by
  have hlabel : Line.headingLabel? line = some label := by
    unfold Line.ofText at h
    split_ifs at h
    · exact Line.heading.inj h
    · split at h <;> cases h
  obtain ⟨word, hword, rfl⟩ := Option.map_eq_some_iff.mp hlabel
  have hdigits := (Option.filter_eq_some_iff.mp hword).2
  refine oneLine_ofList fun hfeed => ?_
  unfold Line.isLabel at hdigits
  split at hdigits
  · next digits =>
    have hall := (Bool.and_eq_true_iff.mp hdigits).2
    rcases List.mem_cons.mp hfeed with hP | hfeed
    · exact absurd hP (by decide)
    · exact absurd (List.all_eq_true.mp hall _ hfeed) (by decide)
  · cases hdigits

theorem oneLine_step (state : PartyScan) (line : List Char) :
    (state.step (.ofText line)).OneLine := by
  cases hline : Line.ofText line with
  | setting what value => exact (oneLine_ofExcept _).bind fun _ => oneLine_pure _
  | heading party =>
    cases party with
    | none => exact oneLine_pure _
    | some label =>
      refine (oneLine_note ?_).bind fun _ => oneLine_pure _
      exact (by decide : OneLine "entering section of party ").append (oneLine_label hline)
  | reading metric value =>
    unfold PartyScan.step
    cases state.scope with
    | none => exact oneLine_pure _
    | some label => exact (oneLine_ofExcept _).bind fun _ => oneLine_pure _
  | other => exact oneLine_pure _

theorem PartyLog.oneLine_journaled (text : String) : (PartyLog.journaled text).OneLine := by
  refine (oneLine_foldlM (fun state line _ => oneLine_step state line) _).bind fun state =>
    (oneLine_ofExcept _).bind fun heapsize => (oneLine_ofExcept _).bind fun isOptimized =>
      (oneLine_note ?_).bind fun _ => oneLine_pure _
  have hlabels : ∀ label ∈ state.roster.map fun party => quoted party.1, OneLine label := by
    intro label hlabel
    obtain ⟨party, -, rfl⟩ := List.mem_map.mp hlabel
    exact oneLine_quoted party.1
  exact ((by decide : OneLine "parties found: [").append
    (oneLine_intercalate (by decide) hlabels)).append (by decide)

end RunLog

namespace CommandLine

open Journaled

/-- **All notes on a log take one line.** -/
theorem oneLine_answer (question : Question) (path : Disk.Path) (text : String) :
    (question.answer path text).OneLine := by
  cases question with
  | heap => exact ((RunLog.HeapLog.oneLine_journaled text).mapFault _).bind fun _ => oneLine_pure _
  | statsTable plain => exact (oneLine_ofExcept _).bind fun _ => oneLine_pure _
  | binarySearch =>
    exact ((RunLog.Trials.oneLine_journaled text).mapFault _).bind fun _ =>
      (oneLine_ofExcept _).bind fun _ => oneLine_pure _
  | parties =>
    exact ((RunLog.PartyLog.oneLine_journaled text).mapFault _).bind fun _ => oneLine_pure _

end CommandLine

/-! ### Notes of scripts -/

namespace Disk

variable {disk : Disk} {path : Path}

theorem oneLine_of_advance {follow : Bool} {directory : Location} {names : List String}
    {fault : Fault} (h : disk.advance follow directory names = .error fault) :
    OneLine fault.message := by
  induction names generalizing directory with
  | nil => cases h
  | cons name names ih =>
    rw [advance] at h
    split at h
    · exact ih h
    split at h
    · exact ih h
    split at h
    · cases h
      decide
    -- The name is that of an entry, or of none.
    dsimp only at h
    split at h
    · split_ifs at h
      cases h
      decide
    · split_ifs at h
      exact ih h
    · split_ifs at h
      cases h
      decide
    · split_ifs at h

theorem oneLine_of_walk {follow : Bool} {links : ℕ} {directory : Location} {names : List String}
    {fault : Fault} (h : disk.walk follow links directory names = .error fault) :
    OneLine fault.message := by
  induction links generalizing directory names with
  | zero =>
    rw [walk] at h
    split at h
    · next hadvance =>
      cases h
      exact oneLine_of_advance hadvance
    · cases h
    · cases h
    · cases h
      decide
  | succ links ih =>
    rw [walk] at h
    split at h
    · next hadvance =>
      cases h
      exact oneLine_of_advance hadvance
    · cases h
    · cases h
    · exact ih h

theorem oneLine_of_locate {follow : Bool} {fault : Fault}
    (h : disk.locate follow path = .error fault) : OneLine fault.message := by
  unfold locate seek at h
  split_ifs at h
  · cases h
    decide
  · cases h
    decide
  · cases h
    decide
  · exact oneLine_of_walk h

theorem oneLine_of_remove {fault : Fault} (h : disk.remove path = .error fault) :
    OneLine fault.message := by
  unfold remove at h
  split at h
  · next hlocate =>
    cases h
    exact oneLine_of_locate hlocate
  · cases h
    decide
  · cases h
    decide
  · cases h

namespace Script

variable {α β : Type}

/-- All that a script tells takes one line each. -/
def TellsLines (script : Script α) : Prop :=
  ∀ disk, ∀ note ∈ (script.run disk).notes, OneLine note.text

theorem tellsLines_pure (value : α) : (pure value : Script α).TellsLines := fun _ => nofun

theorem tellsLines_request {request : Request} (h : request.notes = []) :
    (Script.request request).TellsLines := by
  intro disk
  show ∀ note ∈ request.notes ++ [], _
  rw [h]
  exact nofun

theorem TellsLines.bind {script : Script α} {next : α → Script β} (h : script.TellsLines)
    (hnext : ∀ value, (next value).TellsLines) : (script >>= next).TellsLines := by
  intro disk
  rw [run_bind]
  exact List.forall_mem_append.mpr ⟨h disk, hnext _ _⟩

theorem tellsLines_noteAll {notes : List Note} (h : ∀ note ∈ notes, OneLine note.text) :
    (noteAll notes).TellsLines := by
  intro disk
  rwa [run_noteAll]

theorem tellsLines_ofJournaled {ε : Type} {journaled : Journaled ε α} (h : journaled.OneLine) :
    (ofJournaled journaled).TellsLines := (tellsLines_noteAll h).bind fun _ => tellsLines_pure _

end Script

open Script

theorem tellsLines_readText (path : Path) : (readText path).TellsLines :=
  (tellsLines_request rfl).bind fun _ => tellsLines_pure _

theorem tellsLines_target (path : Path) : (target path).TellsLines := by
  refine (tellsLines_request rfl).bind fun reply => ?_
  split <;> exact tellsLines_pure _

theorem tellsLines_takePlace (scratch target : Path) : (takePlace scratch target).TellsLines := by
  refine (tellsLines_request rfl).bind fun reply => ?_
  split <;> exact tellsLines_pure _

theorem tellsLines_attempt (scratch target : Path) (bytes : ByteArray) :
    (attempt scratch target bytes).TellsLines := by
  refine (tellsLines_request rfl).bind fun written => ?_
  split
  · exact tellsLines_pure _
  · refine (tellsLines_request rfl).bind fun mode => ?_
    split
    · exact tellsLines_takePlace _ _
    · exact tellsLines_pure _
    · refine (tellsLines_request rfl).bind fun set => ?_
      split
      · exact tellsLines_pure _
      · exact tellsLines_takePlace _ _

theorem tellsLines_discard (scratch : Path) : (discard scratch).TellsLines := by
  intro disk
  -- The rule for requests does not do here: of any fault whatever it would not hold.
  rw [discard, run_request_bind]
  dsimp only [Request.perform]
  cases hremove : disk.remove scratch with
  | ok removed => exact nofun
  | error fault =>
    have hline : OneLine ("error deleting temporary file " ++ scratch.quoted ++ ": " ++
        fault.message) :=
      (((by decide : OneLine "error deleting temporary file ").append (oneLine_quoted _)).append
        (by decide)).append (oneLine_of_remove hremove)
    dsimp only [Request.settle]
    split
    · next heq => cases heq
    · exact nofun
    · next heq =>
      cases heq
      exact List.forall_mem_singleton.mpr hline

theorem tellsLines_replace (worker : Worker) (path : Path) (bytes : ByteArray) :
    (replace worker path bytes).TellsLines := by
  refine (tellsLines_target path).bind fun found => ?_
  split
  · exact tellsLines_pure _
  · split
    · exact tellsLines_pure _
    · refine (tellsLines_attempt _ _ _).bind fun outcome => ?_
      split
      · exact tellsLines_pure _
      · exact (tellsLines_discard _).bind fun _ => tellsLines_pure _

end Disk

namespace Ledger

open Disk (Path Worker Script)
open Disk.Script

theorem oneLine_loadNotes (path : Path) (ledger : Ledger) :
    ∀ note ∈ loadNotes path ledger, OneLine note.text := by
  have hpath := oneLine_quoted path.text
  refine List.forall_mem_cons.mpr ⟨?_, fun note hnote => ?_⟩
  · exact (((by decide : OneLine "loaded ").append (oneLine_repr _)).append (by decide)).append
      hpath
  · obtain ⟨row, -, rfl⟩ := List.mem_map.mp hnote
    exact ((((by decide : OneLine "duplicate key ").append (oneLine_quoted _)).append
      (by decide)).append hpath).append (by decide)

theorem tellsLines_load (path : Path) : (load path).TellsLines := by
  refine (Disk.tellsLines_readText path).bind fun text => ?_
  split
  · exact tellsLines_pure _
  · split
    · exact tellsLines_pure _
    · exact (tellsLines_noteAll (oneLine_loadNotes _ _)).bind fun _ => tellsLines_pure _

theorem tellsLines_save (worker : Worker) (path : Path) (ledger : Ledger) :
    (save worker path ledger).TellsLines := by
  refine (Disk.tellsLines_replace _ _ _).bind fun outcome => ?_
  split <;> exact tellsLines_pure _

theorem oneLine_updateNote (path : Path) (posting : Posting) (key : Key) (sample : Binary64) :
    OneLine (updateNote path posting key sample).text := by
  have hname : OneLine posting.name := by cases posting <;> decide
  exact (((((hname.append (by decide)).append (oneLine_quoted _)).append (by decide)).append
    (oneLine_quoted _)).append (by decide)).append sample.oneLine_text

theorem tellsLines_update (worker : Worker) (path : Path) (key : Key) (sample : Binary64) :
    (update worker path key sample).TellsLines := by
  refine (tellsLines_load path).bind fun found => ?_
  split
  · exact tellsLines_pure _
  · refine (tellsLines_save worker path _).bind fun outcome => ?_
    split
    · exact tellsLines_pure _
    · exact (tellsLines_noteAll (List.forall_mem_singleton.mpr
        (oneLine_updateNote _ _ _ _))).bind fun _ => tellsLines_pure _

end Ledger

namespace CommandLine

open Disk (Path Worker Script)
open Disk.Script

theorem oneLine_logNote (path : Path) (text : String) : OneLine (logNote path text).text :=
  (((by decide : OneLine "read ").append (oneLine_repr _)).append (by decide)).append
    (oneLine_quoted _)

theorem tellsLines_question (path : Path) (question : Question) :
    (question.perform path).TellsLines := by
  refine (Disk.tellsLines_readText path).bind fun text => ?_
  split
  · exact tellsLines_pure _
  · refine (tellsLines_noteAll (List.forall_mem_singleton.mpr (oneLine_logNote _ _))).bind
      fun _ => (tellsLines_ofJournaled (oneLine_answer _ _ _)).bind fun outcome => ?_
    split <;> exact tellsLines_pure _

/-- **All that a command tells takes one line each.** -/
theorem tellsLines_perform (worker : Worker) (command : Command) :
    (command.perform worker).TellsLines := by
  cases command with
  | version => exact tellsLines_pure _
  | ask question path => exact tellsLines_question path question
  | append path key sample =>
    refine (Ledger.tellsLines_update worker path key sample).bind fun posted => ?_
    split <;> exact tellsLines_pure _

end CommandLine

end BenchLedger
