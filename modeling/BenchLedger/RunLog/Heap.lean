import BenchLedger.Journal
import BenchLedger.RunLog.Record
import BenchLedger.RunLog.Settings
import BenchLedger.Text.Lines

/-! # Logs of heap runs

A heap run prints a section on the insertions and one on the extractions of the minimum. A section
follows its heading and reaches up to two line feeds in a row, or to the end of the log. All
counters in the first section of each kind are read; an absent section has none.

* `section?`: the body of the first section under a heading.
* `HeapLog.read`: the settings and the records of both sections. -/

namespace BenchLedger.RunLog

open Text

/-- The kinds of sections in a heap log. -/
inductive Operation where
  | insert
  | extractMin
  deriving DecidableEq, Repr

namespace Operation

/-- The name in the heading of a section. -/
def title : Operation → String
  | insert => "Insert Stats"
  | extractMin => "Extract Min Stats"

/-- The heading of a section, with the end of its line. -/
def heading (operation : Operation) : List Char :=
  "===== ".toList ++ operation.title.toList ++ " =====\n".toList

end Operation

/-- Two line feeds in a row: an empty line after the end of a line. -/
def emptyLine : List Char := ['\n', '\n']

/-- The body of the first section of a kind. -/
def section? (operation : Operation) (text : List Char) : Option (List Char) :=
  (cut? operation.heading text).map fun parts => upTo emptyLine parts.2

/-- The records in the first section of a kind. -/
def sectionRecords (operation : Operation) (text : List Char) : Journaled Fault (List Record) :=
  match section? operation text with
  | none => do
    Journaled.note .debug ("no " ++ quoted operation.title ++ " section")
    return []
  | some body => do
    let records ← .ofExcept ((counters.scan body).mapM (Record.ofOccurrence false))
    Journaled.note .debug
      (quoted operation.title ++ " section: " ++ records.length.repr ++ " record(s)")
    return records

/-- What is kept of the runs of one operation. -/
structure Summary where
  wallClockMs : UInt64
  messageBytesSent : UInt64
  deriving DecidableEq, Repr, Inhabited

/-- The numbers of the first record, zero without one. -/
def Summary.ofRecords : List Record → Summary
  | [] => ⟨0, 0⟩
  | record :: _ => ⟨record.wallClockMs, record.messageBytesSent⟩

/-- What the log of a heap run says. -/
structure HeapLog where
  settings : Settings
  insert : List Record
  extractMin : List Record
  deriving DecidableEq, Repr, Inhabited

namespace HeapLog

/-- The heap log that a text spells, and notes on its sections. -/
def journaled (text : String) : Journaled Fault HeapLog := do
  let text := unixNewlines text.toList
  let settings ← .ofExcept (Settings.read text)
  let insert ← sectionRecords .insert text
  let extractMin ← sectionRecords .extractMin text
  return ⟨settings, insert, extractMin⟩

/-- The heap log that a text spells. -/
def read (text : String) : Except Fault HeapLog := (journaled text).outcome

/-- The summary of the insertions. -/
def insertSummary (log : HeapLog) : Summary := Summary.ofRecords log.insert

/-- The summary of the extractions. -/
def extractMinSummary (log : HeapLog) : Summary := Summary.ofRecords log.extractMin

end HeapLog

end BenchLedger.RunLog
