import BenchLedger.RunLog.Quantity

/-! # Records

A run reports five counters, each on a line of its own, and may add two lines on the time and memory
it took. `counters` and `usage` are the layouts of these lines; `Record.ofGroups` reads a record
off the groups of a place where they fit, starting at any of them. -/

namespace BenchLedger.RunLog

open Text

/-- The time and memory that a run took. -/
structure Usage where
  realNs : UInt64
  userNs : UInt64
  systemNs : UInt64
  memoryKib : UInt64
  deriving DecidableEq, Repr, Inhabited

/-- What a run reports. -/
structure Record where
  messagesSent : UInt64
  messageBytesSent : UInt64
  lamportClock : UInt64
  aesOperations : UInt64
  wallClockMs : UInt64
  usage : Option Usage
  deriving DecidableEq, Repr, Inhabited

/-- The lines of the five counters; the last line need not end here. -/
def counters : Template :=
  [.number, .literal " messages sent\n".toList,
   .number, .literal " message bytes sent\n".toList,
   .number, .literal " Lamport clock (latencies)\n".toList,
   .number, .literal " local AES operations\n".toList,
   .number, .literal " milliseconds wall clock time".toList]

/-- The lines on time and memory, from the end of the last counter line on. -/
def usage : Template :=
  [.literal "\n\x7b".toList, .number, .literal ";".toList, .number, .literal ";".toList, .number,
   .literal "\x7d nanoseconds \x7breal;user;system\x7d\nMem: ".toList, .number,
   .literal " KiB".toList]

namespace Record

/-- The usage in four groups from `first` on. -/
def usageOfGroups (groups : Groups) (first : Nat) : Except Fault Usage := do
  let realNs ← readGroup groups first .realNs
  let userNs ← readGroup groups (first + 1) .userNs
  let systemNs ← readGroup groups (first + 2) .systemNs
  let memoryKib ← readGroup groups (first + 3) .memoryKib
  return ⟨realNs, userNs, systemNs, memoryKib⟩

/-- The record in five groups from `first` on, and with usage in the four after them. -/
def ofGroups (groups : Groups) (first : Nat) (withUsage : Bool) :
    Except Fault Record := do
  let messagesSent ← readGroup groups first .messagesSent
  let messageBytesSent ← readGroup groups (first + 1) .messageBytesSent
  let lamportClock ← readGroup groups (first + 2) .lamportClock
  let aesOperations ← readGroup groups (first + 3) .aesOperations
  let wallClockMs ← readGroup groups (first + 4) .wallClockMs
  let usage ← if withUsage then (usageOfGroups groups (first + 5)).map some else .ok none
  return ⟨messagesSent, messageBytesSent, lamportClock, aesOperations, wallClockMs, usage⟩

/-- The record of a place where the counters, and with usage also the lines on it, fit. -/
def ofOccurrence (withUsage : Bool) (o : Occurrence) : Except Fault Record :=
  ofGroups o.groups 1 withUsage

/-- The nine cells of a record in a table; those of the usage are empty if there is none. -/
def cells (record : Record) : List String :=
  let usageCell (field : Usage → UInt64) : String :=
    match record.usage with
    | some usage => Count.text (field usage)
    | none => ""
  [Count.text record.messagesSent, Count.text record.messageBytesSent,
   Count.text record.lamportClock, Count.text record.aesOperations,
   Count.text record.wallClockMs, usageCell Usage.realNs, usageCell Usage.userNs,
   usageCell Usage.systemNs, usageCell Usage.memoryKib]

/-- The titles of the nine cells. -/
def titles : List String :=
  ["Messages Sent", "Message Bytes Sent", "Lamport Clock", "Local AES Operations",
   "Wall Clock Time (ms)", "Real Time", "User Time", "System Time", "Memory (KiB)"]

end Record

end BenchLedger.RunLog
