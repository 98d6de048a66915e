import BenchLedger.Disk.Script

/-! # Reading and replacing whole files

A file is replaced as a whole: the new contents go to a temporary file beside it, which then takes
its place. A reader finds the old contents or the new, never a part. If the path leads through links
to a file, that file is replaced and the links stay. If a step fails, the temporary file is removed.

* `readText`: the text of a file.
* `replace`: the replacement. -/

namespace BenchLedger.Disk

/-- Why the text of a file cannot be had. -/
inductive ReadFault where
  | notFound (path : Path)
  | unreadable (path : Path) (fault : Fault)
  | notText (path : Path)
  deriving DecidableEq, Repr

/-- The fault in words. -/
def ReadFault.message : ReadFault → String
  | notFound path => "file " ++ path.quoted ++ " not found"
  | unreadable path fault => "reading file " ++ path.quoted ++ ": " ++ fault.message
  | notText path =>
    "reading file " ++ path.quoted ++ ": stream did not contain valid UTF-8"

/-- The text of some bytes. -/
def decode (path : Path) : Except Fault ByteArray → Except ReadFault String
  | .error .notFound => .error (.notFound path)
  | .error fault => .error (.unreadable path fault)
  | .ok bytes =>
    match String.fromUTF8? bytes with
    | some text => .ok text
    | none => .error (.notText path)

/-- The text of a file. -/
def readText (path : Path) : Script (Except ReadFault String) := do
  return decode path (← Script.request (.read path))

/-- What a replacement does at a time. -/
inductive Activity where
  | resolving
  | writing
  | readingMode
  | copyingMode
  | moving
  deriving DecidableEq, Repr

/-- The activity in words. -/
def Activity.words : Activity → String
  | resolving => "resolving"
  | writing => "writing temporary file"
  | readingMode => "getting metadata on"
  | copyingMode => "copying permissions to"
  | moving => "renaming to"

/-- Why a file is not replaced. -/
inductive ReplaceFault where
  /-- The path names no file. -/
  | noFileName
  | failed (activity : Activity) (path : Path) (fault : Fault)
  deriving DecidableEq, Repr

/-- The fault in words. -/
def ReplaceFault.message : ReplaceFault → String
  | noFileName => "path is missing file name part"
  | failed activity path fault =>
    "IO error while " ++ activity.words ++ " " ++ path.quoted ++ ": " ++ fault.message

/-- The path of the file to be replaced: without links, or the path itself if it leads nowhere. -/
def target (path : Path) : Script (Except ReplaceFault Path) := do
  match ← Script.request (.resolve path) with
  | .ok resolved => return .ok resolved
  | .error .notFound => return .ok path
  | .error fault => return .error (.failed .resolving path fault)

/-- The temporary file takes the place of the target. -/
def takePlace (scratch target : Path) : Script (Except ReplaceFault Unit) := do
  match ← Script.request (.rename scratch target) with
  | .ok _ => return .ok ()
  | .error fault => return .error (.failed .moving target fault)

/-- The temporary file is written, gets the permission bits of the target if that exists, and takes
its place. -/
def attempt (scratch target : Path) (bytes : ByteArray) : Script (Except ReplaceFault Unit) := do
  match ← Script.request (.write scratch bytes) with
  | .error fault => return .error (.failed .writing scratch fault)
  | .ok _ =>
    match ← Script.request (.readMode target) with
    | .error .notFound => takePlace scratch target
    | .error fault => return .error (.failed .readingMode target fault)
    | .ok mode =>
      match ← Script.request (.setMode scratch mode) with
      | .error fault => return .error (.failed .copyingMode scratch fault)
      | .ok _ => takePlace scratch target

/-- The temporary file is removed, if it is there. -/
def discard (scratch : Path) : Script Unit := do
  match ← Script.request (.remove scratch) with
  | .ok _ => return ()
  | .error .notFound => return ()
  | .error fault =>
    Script.note .info
      ("error deleting temporary file " ++ scratch.quoted ++ ": " ++ fault.message)

/-- The file that a path leads to gets new contents. -/
def replace (worker : Worker) (path : Path) (bytes : ByteArray) :
    Script (Except ReplaceFault Unit) := do
  match ← target path with
  | .error fault => return .error fault
  | .ok target =>
    match target.scratch? worker with
    | none => return .error .noFileName
    | some scratch =>
      match ← attempt scratch target bytes with
      | .ok _ => return .ok ()
      | .error fault => do
        discard scratch
        return .error fault

end BenchLedger.Disk
