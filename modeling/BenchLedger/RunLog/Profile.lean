import BenchLedger.RunLog.Heap

/-! # Profiles of many runs

The logs of several runs may stand in one text. The profile lists, for each kind of section, the
record of every heading that the counters and the lines on time and memory directly follow. Other
headings are passed over, so only a number that cannot be read is a fault. -/

namespace BenchLedger.RunLog

open Text

/-- The records with usage of all runs. -/
structure Profile where
  insert : List Record := []
  extractMin : List Record := []
  deriving DecidableEq, Repr, Inhabited

namespace Profile

/-- A heading with a complete record directly below it. -/
def entry (operation : Operation) : Template := .literal operation.heading :: counters ++ usage

/-- The records of one kind. -/
def records (operation : Operation) (text : List Char) : Except Fault (List Record) :=
  ((entry operation).scan text).mapM (Record.ofOccurrence true)

/-- The profile of all runs in a text. -/
def read (text : String) : Except Fault Profile := do
  let text := unixNewlines text.toList
  let insert ← records .insert text
  let extractMin ← records .extractMin text
  return ⟨insert, extractMin⟩

end Profile

end BenchLedger.RunLog
