import BenchLedger.Disk.Replace
import BenchLedger.Ledger.Printer
import BenchLedger.Ledger.Reader

/-! # Ledgers in files

A ledger is kept as its text in a file. A sample is posted by reading the whole file, posting in
memory and replacing the whole file, so two posts at once to one file must be kept apart by the
callers.

* `Ledger.load`, `Ledger.save`: from a file and back.
* `Ledger.update`: one sample posted to a file. -/

namespace BenchLedger.Ledger

open Disk (Path Worker Script)

/-- Why the ledger in a file cannot be had or replaced. -/
inductive StoreFault where
  | reading (fault : Disk.ReadFault)
  | parsing (path : Path) (fault : RowFault)
  | writing (path : Path) (fault : Disk.ReplaceFault)
  deriving DecidableEq, Repr

/-- The fault in words: what was being done, then what went wrong. -/
def StoreFault.chain : StoreFault → List String
  | reading fault => [fault.message]
  | parsing path fault => ["parsing results file " ++ path.quoted, fault.message]
  | writing path fault => ["writing results file " ++ path.quoted, fault.message]

/-- The name of what became of a sample. -/
def Posting.name : Posting → String
  | updated => "Updated"
  | appended => "Appended"

/-- A row that no sample reaches is likely a mistake. -/
def repeatNote (path : Path) (row : Row) : Note :=
  ⟨.warn, "duplicate key " ++ Text.quoted row.key.text ++ " in " ++ path.quoted ++
    ", only the first row is updated"⟩

/-- What is told of a ledger that was read: its size, then each row that repeats a key. -/
def loadNotes (path : Path) (ledger : Ledger) : List Note :=
  ⟨.debug, "loaded " ++ ledger.rows.length.repr ++ " row(s) from " ++ path.quoted⟩ ::
    ledger.repeats.map (repeatNote path)

/-- The ledger in a file. -/
def load (path : Path) : Script (Except StoreFault Ledger) := do
  match ← Disk.readText path with
  | .error fault => return .error (.reading fault)
  | .ok text =>
    match read text with
    | .error fault => return .error (.parsing path fault)
    | .ok ledger => do
      Script.noteAll (loadNotes path ledger)
      return .ok ledger

/-- The file gets the text of a ledger. -/
def save (worker : Worker) (path : Path) (ledger : Ledger) : Script (Except StoreFault Unit) := do
  match ← Disk.replace worker path ledger.text.toUTF8 with
  | .error fault => return .error (.writing path fault)
  | .ok _ => return .ok ()

/-- What is told of a sample that was posted. -/
def updateNote (path : Path) (posting : Posting) (key : Key) (sample : Binary64) : Note :=
  ⟨.info, posting.name ++ " row " ++ Text.quoted key.text ++ " in " ++ path.quoted ++
    " with sample " ++ String.ofList (sample.text .prose)⟩

/-- A sample is posted to the ledger in a file. -/
def update (worker : Worker) (path : Path) (key : Key) (sample : Binary64) :
    Script (Except StoreFault Posting) := do
  match ← load path with
  | .error fault => return .error fault
  | .ok ledger =>
    let posted := ledger.post key sample
    match ← save worker path posted.2 with
    | .error fault => return .error fault
    | .ok _ => do
      Script.noteAll [updateNote path posted.1 key sample]
      return .ok posted.1

end BenchLedger.Ledger
