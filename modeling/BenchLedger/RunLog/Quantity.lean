import BenchLedger.Count
import BenchLedger.Text.Quoted
import BenchLedger.Text.Template

/-! # Numbers in a log

The quantities that logs state, and what can be wrong with a text that stands for one. Of several
numbers the greatest counts. -/

namespace BenchLedger.RunLog

/-- The numbers that logs state. -/
inductive Quantity where
  | heapsize
  | isOptimized
  | messagesSent
  | messageBytesSent
  | lamportClock
  | aesOperations
  | wallClockMs
  | realNs
  | userNs
  | systemNs
  | memoryKib
  deriving DecidableEq, Repr

/-- The name of a number in messages. -/
def Quantity.label : Quantity → String
  | heapsize => "heapsize"
  | isOptimized => "is_optimized"
  | messagesSent => "messages sent"
  | messageBytesSent => "message bytes sent"
  | lamportClock => "Lamport clock (latencies)"
  | aesOperations => "local AES operations"
  | wallClockMs => "milliseconds wall clock time"
  | realNs => "real nanoseconds"
  | userNs => "user nanoseconds"
  | systemNs => "system nanoseconds"
  | memoryKib => "Mem KiB"

/-- Why a log cannot be read. -/
inductive Fault where
  /-- A required number is absent. -/
  | missing (what : Quantity)
  /-- The text that stands for a number is none. -/
  | badNumber (what : Quantity) (text : String) (why : CountFault)
  /-- There is no binary search in the log. -/
  | noTrials
  deriving DecidableEq, Repr

/-- The fault in words. -/
def Fault.message : Fault → String
  | missing what => "required " ++ Text.quoted what.label ++ " missing from log"
  | badNumber what text why =>
    "invalid number " ++ Text.quoted text ++ " for " ++ Text.quoted what.label ++ ": " ++
      why.message
  | noTrials => "log contains no " ++ Text.quoted "BINARY SEARCH" ++ " sections"

/-- The value of a quantity, as a text states it. -/
def readQuantity (what : Quantity) (text : List Char) : Except Fault UInt64 :=
  match Count.read text with
  | .ok value => .ok value
  | .error why => .error (.badNumber what (String.ofList text) why)

/-- The value of a quantity in the group at `index`, which may not be there or take no part. -/
def readGroup (groups : Text.Groups) (index : Nat) (what : Quantity) : Except Fault UInt64 :=
  match groups[index]? with
  | some (some text) => readQuantity what text
  | _ => .error (.missing what)

/-- The greatest value that a field takes among the items that have it. -/
def greatest {α β : Type} [Max β] (field : α → Option β) (items : List α) : Option β :=
  (items.filterMap field).max?

end BenchLedger.RunLog
