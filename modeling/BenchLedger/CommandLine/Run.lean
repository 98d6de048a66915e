import BenchLedger.CommandLine.Arguments

/-! # Runs of the program

A run ends with a code, which is zero if all went well, with a text for whoever uses the answer, and
with a complaint if something went wrong. What was printed before a failure is printed. Notes are
left on the way, as many as the switches ask for. Printing itself is taken never to fail: an output
that is closed, or has no room, is not told here.

* `Failure.complaint`: what is said of a failure.
* `run`: the script of a run. -/

namespace BenchLedger.CommandLine

open Disk (Worker Script)

/-- How a run ends. -/
structure Ending where
  code : Nat
  output : String := ""
  complaint : String := ""
  deriving DecidableEq, Repr

/-- What is told on how to use the program. -/
def manual : String := onLines
  ["prac-bench [-v | -d | -q] COMMAND",
   "",
   "  version                     the version",
   "  heap LOG                    settings and first runs, one number on a line",
   "  stats-table [--tsv] LOG     tables of all runs",
   "  binary-search LOG           worst message bytes and time of all trials",
   "  parties LOG                 settings, worst time and message bytes of the parties",
   "  append FILE DATASET OPERATION IS_OPTIMIZED HEAPSIZE SAMPLE",
   "                              averages a sample into a results file"]

/-- A failure in words: what was being done, then what went wrong. -/
def Failure.chain : Failure → List String
  | reading fault => [fault.message]
  | log stage path fault => [stage.words ++ " " ++ path.quoted, fault.message]
  | table fault => [fault.message]
  | ledger fault => fault.chain

/-- The file that was not found, if that is the failure. -/
def Failure.absent? : Failure → Option Disk.Path
  | reading (.notFound path) | ledger (.reading (.notFound path)) => some path
  | _ => none

/-- What went wrong, and the cause of it. -/
def blame : List String → String
  | [] => ""
  | [fault] => "Error: " ++ fault ++ "\n"
  | fault :: causes => "Error: " ++ fault ++ "\n\nCaused by:\n" ++
      onLines (causes.map ("    " ++ ·))

/-- What is said of a failure. An absent file is no more than named. -/
def Failure.complaint (failure : Failure) : String :=
  match failure.absent? with
  | some path => blame ["file " ++ path.quoted ++ " not found."]
  | none => blame failure.chain

/-- The ending of a command. -/
def Ending.ofPrintout (printout : Printout) : Ending :=
  match printout.failure? with
  | none => ⟨0, printout.text, ""⟩
  | some failure => ⟨1, printout.text, failure.complaint⟩

/-- The ending without a command. -/
def Ending.ofHalt : Halt → Ending
  | .help => ⟨0, manual, ""⟩
  | .misuse => ⟨2, "", manual⟩

/-- The script of an invocation. -/
def Invocation.perform (worker : Worker) (invocation : Invocation) : Script Ending :=
  match invocation.switches.level with
  | .error conflict => .done ⟨1, "", blame [conflict.message]⟩
  | .ok level => do
    return Ending.ofPrintout (← (invocation.command.perform worker).heardAt level)

/-- The script of a run with some arguments. -/
def run (worker : Worker) (arguments : List String) : Script Ending :=
  match Invocation.read arguments with
  | .error halt => .done (.ofHalt halt)
  | .ok invocation => invocation.perform worker

end BenchLedger.CommandLine
