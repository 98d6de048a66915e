import BenchLedger.Journal
import BenchLedger.RunLog.Settings
import BenchLedger.Text.Lines
import BenchLedger.Text.Words

/-! # Logs of runs with several parties

Each party prints sections of its own, without a fixed layout, so the log is read line by line. A
line either states a setting, or is a heading, or belongs to the party of the last heading. Of
several lines on one number the last counts.

* `Line.ofText`: what a line is.
* `PartyLog.read`: the settings and the report of each party.
* `PartyLog.worst`: the slowest party and the one that sent most. -/

namespace BenchLedger.RunLog

open Text

/-- The numbers that a party reports. -/
inductive Metric where
  | wallClockMs
  | messagesSent
  | messageBytesSent
  deriving DecidableEq, Repr

namespace Metric

/-- The quantity that a metric measures. -/
def quantity : Metric → Quantity
  | wallClockMs => .wallClockMs
  | messagesSent => .messagesSent
  | messageBytesSent => .messageBytesSent

/-- The metric that a line is about: the first whose name occurs in it. -/
def ofLine? (line : List Char) : Option Metric :=
  [wallClockMs, messagesSent, messageBytesSent].find? fun metric =>
    contains metric.quantity.label.toList line

end Metric

/-- A line of a log of several parties. -/
inductive Line where
  /-- A setting, with the text that states its value. -/
  | setting (what : Quantity) (value : List Char)
  /-- A heading: the label of the party it opens a section of, or none. -/
  | heading (party : Option String)
  /-- A line on a metric, with the text that states its value. -/
  | reading (metric : Metric) (value : List Char)
  /-- Anything else. -/
  | other
  deriving DecidableEq, Repr

namespace Line

/-- A party's label: the letter `P` and digits. -/
def isLabel : List Char → Bool
  | 'P' :: digits => digits ≠ [] && digits.all Char.isDigit
  | _ => false

/-- The text between the first colon and the next, or the end, without white space around it. -/
def valueAfterColon (line : List Char) : List Char :=
  trim (((line.dropWhile (· ≠ ':')).drop 1).takeWhile (· ≠ ':'))

/-- The first word. -/
def firstWord (line : List Char) : List Char := (words line).headD []

/-- The label in a heading: its second word, if it is one. -/
def headingLabel? (line : List Char) : Option String :=
  ((words line)[1]?.filter isLabel).map String.ofList

/-- What a line is. -/
def ofText (line : List Char) : Line :=
  if (after? "heapsize:".toList line).isSome then .setting .heapsize (valueAfterColon line)
  else if (after? "is_optimized:".toList line).isSome then
    .setting .isOptimized (valueAfterColon line)
  else if (after? "===== P".toList line).isSome then .heading (headingLabel? line)
  else match Metric.ofLine? line with
    | some metric => .reading metric (firstWord line)
    | none => .other

end Line

/-- What a party reported, as far as it did. -/
structure Report where
  messagesSent : Option UInt64 := none
  messageBytesSent : Option UInt64 := none
  wallClockMs : Option UInt64 := none
  deriving DecidableEq, Repr, Inhabited

/-- The report with a metric set. -/
def Report.set (report : Report) (value : UInt64) : Metric → Report
  | .wallClockMs => { report with wallClockMs := some value }
  | .messagesSent => { report with messagesSent := some value }
  | .messageBytesSent => { report with messageBytesSent := some value }

/-- The reports of the parties, in increasing order of their labels. -/
abbrev Roster := List (String × Report)

/-- The roster after a change to one party's report; a party not yet there starts with an empty
one. -/
def Roster.update (label : String) (change : Report → Report) : Roster → Roster
  | [] => [(label, change {})]
  | (l, report) :: roster =>
    if l = label then (l, change report) :: roster
    else if label < l then (label, change {}) :: (l, report) :: roster
    else (l, report) :: Roster.update label change roster

/-- What is known after some lines. -/
structure PartyScan where
  heapsize : Option UInt64 := none
  isOptimized : Option UInt64 := none
  roster : Roster := []
  /-- The party whose section this is. -/
  scope : Option String := none
  deriving DecidableEq, Repr, Inhabited

namespace PartyScan

/-- What is known after one more line. -/
def step (state : PartyScan) : Line → Journaled Fault PartyScan
  | .setting what value => do
    let n ← .ofExcept (readQuantity what value)
    return if what = .heapsize then { state with heapsize := some n }
      else { state with isOptimized := some n }
  | .heading none => return { state with scope := none }
  | .heading (some label) => do
    Journaled.note .debug ("entering section of party " ++ label)
    return { state with scope := some label, roster := state.roster.update label id }
  | .reading metric value =>
    match state.scope with
    | none => return state
    | some label => do
      let n ← .ofExcept (readQuantity metric.quantity value)
      return { state with roster := state.roster.update label (·.set n metric) }
  | .other => return state

/-- A setting that the log has to state. -/
def required (what : Quantity) : Option UInt64 → Except Fault UInt64
  | some n => .ok n
  | none => .error (.missing what)

end PartyScan

/-- What the log of several parties says. -/
structure PartyLog where
  settings : Settings
  roster : Roster
  deriving DecidableEq, Repr, Inhabited

namespace PartyLog

/-- The log that a text spells, and notes on the sections found. -/
def journaled (text : String) : Journaled Fault PartyLog := do
  let state ← (lines text.toList).foldlM (fun state line => state.step (.ofText line))
    ({} : PartyScan)
  let heapsize ← .ofExcept (PartyScan.required .heapsize state.heapsize)
  let isOptimized ← .ofExcept (PartyScan.required .isOptimized state.isOptimized)
  let labels := state.roster.map fun party => quoted party.1
  Journaled.note .debug ("parties found: [" ++ ", ".intercalate labels ++ "]")
  return ⟨⟨heapsize, isOptimized⟩, state.roster⟩

/-- The log that a text spells. -/
def read (text : String) : Except Fault PartyLog := (journaled text).outcome

/-- The longest time and the greatest message volume, zero where no party reported it. -/
structure Worst where
  wallClockMs : UInt64
  messageBytesSent : UInt64
  deriving DecidableEq, Repr, Inhabited

/-- The worst numbers of the parties, which may come from two of them. -/
def worst (log : PartyLog) : Worst where
  wallClockMs := (greatest (·.2.wallClockMs) log.roster).getD 0
  messageBytesSent := (greatest (·.2.messageBytesSent) log.roster).getD 0

end PartyLog

end BenchLedger.RunLog
