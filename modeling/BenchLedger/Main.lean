import BenchLedger.CommandLine.Run

/-! # The program

Scripts are carried out on the disk of the machine. Permission bits cannot be asked for there, so a
new file keeps those it was made with. -/

namespace BenchLedger.Console

open Disk (Fault Path Request Script Worker)

/-- The fault of a number that the machine gives, which may be negated. -/
def faultOfCode (code : UInt32) (text : String) : Fault :=
  match (if code < 0x80000000 then code else 0 - code).toNat with
  | 2 => .notFound
  | 20 => .notDirectory
  | 21 => .isDirectory
  | 36 => .nameTooLong
  | 40 => .linkLoop
  | number => .other number text

/-- The fault behind an error of the machine. -/
def fault : IO.Error → Fault
  | .noFileOrDirectory .. => .notFound
  | .invalidArgument _ code text | .permissionDenied _ code text
  | .resourceExhausted _ code text | .inappropriateType _ code text | .noSuchThing _ code text
  | .alreadyExists _ code text | .otherError code text | .resourceBusy code text
  | .resourceVanished code text | .unsupportedOperation code text | .hardwareFault code text
  | .unsatisfiedConstraints code text | .illegalOperation code text | .protocolError code text
  | .timeExpired code text | .interrupted _ code text => faultOfCode code text
  | .unexpectedEof => .other 0 "unexpected end of file"
  | .userError text => .other 0 text

/-- What an action on a path gives, or its fault. -/
def attempt {α : Type} (path : Path) (action : String → IO α) : IO (Except Fault α) := do
  if '\x00' ∈ path.text.toList then return .error .nulInPath
  try
    return .ok (← action path.text)
  catch error =>
    return .error (fault error)

/-- The reply of the machine to a request. Notes go to the error stream. -/
def reply : (request : Request) → IO request.Reply
  | .tell note => IO.eprintln ("LOG " ++ note.text)
  | .read path => attempt path fun text => IO.FS.readBinFile text
  | .resolve path => attempt path fun text => return ⟨(← IO.FS.realPath text).toString⟩
  | .write path bytes => attempt path fun text => IO.FS.writeBinFile text bytes
  | .readMode path => attempt path fun text => do
      let _ ← IO.FS.realPath text
      return 0
  | .setMode _ _ => return .ok ()
  | .rename source target => attempt source fun text => IO.FS.rename text target.text
  | .remove path => attempt path fun text => IO.FS.removeFile text

/-- A script carried out on the machine. -/
def carryOut {α : Type} : Script α → IO α
  | .done value => return value
  | .ask request next => do
    let answer ← reply request
    carryOut (next answer)

/-- The process and the thread that run this. -/
def worker : IO Worker := do
  let thread ← IO.getTID
  let process ← attempt ⟨"/proc/self"⟩ fun text => return (← IO.FS.realPath text).toString
  let number := match process with
    | .ok text => ((Path.split? ⟨text⟩).bind fun parts => (String.ofList parts.2).toNat?).getD 0
    | .error _ => 0
  return ⟨number, thread.toNat⟩

end BenchLedger.Console

/-- The program: what it prints and its exit code follow from its arguments and the disk. -/
def main (arguments : List String) : IO UInt32 := do
  let ending ← BenchLedger.Console.carryOut
    (BenchLedger.CommandLine.run (← BenchLedger.Console.worker) arguments)
  IO.print ending.output
  IO.eprint ending.complaint
  return ending.code.toUInt32
