import BenchLedger.Ledger.Store
import BenchLedger.RunLog.Parties
import BenchLedger.RunLog.Profile
import BenchLedger.RunLog.Trials
import BenchLedger.Table

/-! # Commands

A command either asks a question about a log, and prints numbers, one on a line, or tables; or it
posts a sample to a ledger, and prints nothing.

* `Printout.ofPieces`: what stands printed after some pieces, of which one may fail.
* `Question.answer`: what is printed for the text of a log.
* `Command.perform`: the script of a command. -/

namespace BenchLedger.CommandLine

open Disk (Path Worker Script)

/-- What is asked about a log. -/
inductive Question where
  /-- The settings, and the first record of both heap operations. -/
  | heap
  /-- All records with usage, as tables, laid out for reading or plain. -/
  | statsTable (plain : Bool)
  /-- The worst of the binary search trials. -/
  | binarySearch
  /-- The settings, and the worst of the parties. -/
  | parties
  deriving DecidableEq, Repr

/-- What the program does. -/
inductive Command where
  /-- Name the version. -/
  | version
  | ask (question : Question) (log : Path)
  | append (ledger : Path) (key : Ledger.Key) (sample : Binary64)
  deriving DecidableEq, Repr

/-- The stages of answering questions. -/
inductive Stage where
  | extractHeap
  | extractProfile
  | extractTrials
  | summarizeTrials
  | extractParties
  deriving DecidableEq, Repr

/-- The stage in words. -/
def Stage.words : Stage → String
  | extractHeap => "extracting heap stats from"
  | extractProfile => "extracting stats tables from"
  | extractTrials => "extracting binary search trials from"
  | summarizeTrials => "summarizing binary search trials from"
  | extractParties => "extracting party stats from"

/-- Why a command fails. -/
inductive Failure where
  | reading (fault : Disk.ReadFault)
  | log (stage : Stage) (path : Path) (fault : RunLog.Fault)
  | table (fault : Table.Fault)
  | ledger (fault : Ledger.StoreFault)
  deriving DecidableEq, Repr

/-- What stands printed in the end. -/
structure Printout where
  text : String := ""
  /-- What kept the rest from being printed. -/
  failure? : Option Failure := none
  deriving DecidableEq, Repr

/-- Pieces are printed one after the other, up to the first that fails. What was printed before it
stays printed. -/
def Printout.ofPieces : List (Except Failure String) → Printout
  | [] => {}
  | .error failure :: _ => { failure? := some failure }
  | .ok piece :: pieces =>
    let rest := ofPieces pieces
    { rest with text := piece ++ rest.text }

/-! ### Answers -/

/-- Items, each on a line. -/
def onLines (items : List String) : String := String.join (items.map (· ++ "\n"))

/-- Numbers, each on a line. -/
def countLines (numbers : List UInt64) : List (Except Failure String) :=
  numbers.map fun n => .ok (onLines [Count.text n])

/-- A heading, a table of records, and an empty line. -/
def recordTable (operation : RunLog.Operation) (plain : Bool) (records : List RunLog.Record) :
    List (Except Table.Fault String) :=
  let table := Table.fitting RunLog.Record.titles 3 plain
  .ok (operation.title ++ ":\n") :: table.titleRow false ::
    (records.map fun record => table.dataRow record.cells) ++ [.ok "\n"]

/-- Both tables of a profile. -/
def profileTables (plain : Bool) (profile : RunLog.Profile) : List (Except Table.Fault String) :=
  recordTable .insert plain profile.insert ++ recordTable .extractMin plain profile.extractMin

/-- What is printed about a heap log. -/
def heapLines (log : RunLog.HeapLog) : List (Except Failure String) :=
  countLines [log.settings.heapsize, log.settings.isOptimized,
    log.insertSummary.wallClockMs, log.insertSummary.messageBytesSent,
    log.extractMinSummary.wallClockMs, log.extractMinSummary.messageBytesSent]

/-- What is printed about binary search trials. -/
def trialLines (worst : RunLog.Trials.Worst) : List (Except Failure String) :=
  countLines [worst.messageBytesSent, worst.wallClockMs]

/-- What is printed about the log of several parties. -/
def partyLines (log : RunLog.PartyLog) : List (Except Failure String) :=
  countLines [log.settings.heapsize, log.settings.isOptimized, log.worst.wallClockMs,
    log.worst.messageBytesSent]

/-- What is printed for a question about the text of a log; the path is for messages. -/
def Question.answer (path : Path) (text : String) :
    Question → Journaled Failure (List (Except Failure String))
  | heap => do
    let log ← (RunLog.HeapLog.journaled text).mapFault (.log .extractHeap path)
    return heapLines log
  | statsTable plain => do
    let profile ←
      .ofExcept ((RunLog.Profile.read text).mapError (.log .extractProfile path))
    return (profileTables plain profile).map (·.mapError .table)
  | binarySearch => do
    let records ← (RunLog.Trials.journaled text).mapFault (.log .extractTrials path)
    let worst ← .ofExcept ((RunLog.Trials.worst records).mapError (.log .summarizeTrials path))
    return trialLines worst
  | parties => do
    let log ← (RunLog.PartyLog.journaled text).mapFault (.log .extractParties path)
    return partyLines log

/-! ### Scripts -/

/-- What is told of a log that was read. -/
def logNote (path : Path) (text : String) : Note :=
  ⟨.info, "read " ++ text.utf8ByteSize.repr ++ " bytes from " ++ path.quoted⟩

/-- The answer to a question about the log in a file. -/
def Question.perform (path : Path) (question : Question) : Script Printout := do
  match ← Disk.readText path with
  | .error fault => return { failure? := some (.reading fault) }
  | .ok text => do
    Script.noteAll [logNote path text]
    match ← Script.ofJournaled (question.answer path text) with
    | .error failure => return { failure? := some failure }
    | .ok pieces => return .ofPieces pieces

/-- The name and version of the program. -/
def versionText : String := "prac-bench version 0.1.0"

/-- What a command prints. -/
def Command.perform (worker : Worker) : Command → Script Printout
  | version => return .ofPieces [.ok (onLines [versionText])]
  | ask question path => question.perform path
  | append path key sample => do
    match ← Ledger.update worker path key sample with
    | .error fault => return { failure? := some (.ledger fault) }
    | .ok _ => return {}

end BenchLedger.CommandLine
