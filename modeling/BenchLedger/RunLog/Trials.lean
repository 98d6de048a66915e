import BenchLedger.Journal
import BenchLedger.RunLog.Record
import BenchLedger.Text.Lines

/-! # Binary search trials

A binary search is tried several times; each trial has a heading with its counters directly below.
Of all trials the greatest message volume and the longest time are kept, which may come from two
trials. -/

namespace BenchLedger.RunLog

open Text

namespace Trials

/-- A heading with the counters directly below it. -/
def entry : Template := .literal "BINARY SEARCH =====\n".toList :: counters

/-- The records of all trials in a log, in order, and a note on their number. -/
def journaled (text : String) : Journaled Fault (List Record) := do
  let records ← .ofExcept
    ((entry.scan (unixNewlines text.toList)).mapM (Record.ofOccurrence false))
  Journaled.note .debug ("found " ++ records.length.repr ++ " binary search trial(s)")
  return records

/-- The records of all trials in a log, in order. -/
def read (text : String) : Except Fault (List Record) := (journaled text).outcome

/-- The worst numbers of all trials. -/
structure Worst where
  messageBytesSent : UInt64
  wallClockMs : UInt64
  deriving DecidableEq, Repr, Inhabited

/-- The worst numbers of some trials; there has to be one. -/
def worst (records : List Record) : Except Fault Worst :=
  match greatest (fun r => some r.messageBytesSent) records,
    greatest (fun r => some r.wallClockMs) records with
  | some bytes, some time => .ok ⟨bytes, time⟩
  | _, _ => .error .noTrials

end Trials

end BenchLedger.RunLog
