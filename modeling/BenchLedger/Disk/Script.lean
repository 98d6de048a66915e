import BenchLedger.Disk.Operation
import BenchLedger.Journal

/-! # Scripts

A script is a program that works on a disk by requests, one after the other, each depending on the
replies to those before. It can leave notes. As a script is a tree of requests, one can follow it
step by step, and carry it out on a disk of this library or on a real one.

* `Request.perform`: the reply to a request, and the disk after it.
* `Script.run`: the value, the disk and the notes at the end.
* `Script.heardAt`: the same script, with fewer notes. -/

namespace BenchLedger.Disk

/-- A single step of a script. -/
inductive Request where
  /-- Leave a note. -/
  | tell (note : Note)
  /-- The bytes of a file. -/
  | read (path : Path)
  /-- The path without links. -/
  | resolve (path : Path)
  /-- Write a file, new or not. -/
  | write (path : Path) (bytes : ByteArray)
  /-- The permission bits. -/
  | readMode (path : Path)
  /-- Set the permission bits. -/
  | setMode (path : Path) (mode : Mode)
  /-- Move a file over another path. -/
  | rename (source target : Path)
  /-- Remove a file. -/
  | remove (path : Path)

namespace Request

/-- The type of the reply to a request. -/
@[reducible] def Reply : Request → Type
  | tell _ => Unit
  | read _ => Except Fault ByteArray
  | resolve _ => Except Fault Path
  | readMode _ => Except Fault Mode
  | write _ _ | setMode _ _ | rename _ _ | remove _ => Except Fault Unit

/-- The reply and the disk after an operation that changes the disk, or fails. -/
def settle (disk : Disk) : Except Fault Disk → Except Fault Unit × Disk
  | .ok changed => (.ok (), changed)
  | .error fault => (.error fault, disk)

/-- The reply to a request, and the disk after it. -/
def perform (disk : Disk) : (request : Request) → request.Reply × Disk
  | tell _ => ((), disk)
  | read path => (disk.read path, disk)
  | resolve path => (disk.resolve path, disk)
  | write path bytes => settle disk (disk.write path bytes)
  | readMode path => (disk.mode path, disk)
  | setMode path mode => settle disk (disk.setMode path mode)
  | rename source target => settle disk (disk.rename source target)
  | remove path => settle disk (disk.remove path)

/-- The notes that a request leaves. -/
def notes : Request → List Note
  | tell note => [note]
  | _ => []

end Request

/-- A program that works on a disk by requests. -/
inductive Script (α : Type) where
  /-- No more requests, and the result. -/
  | done (value : α)
  /-- A request, and what to do with the reply. -/
  | ask (request : Request) (next : request.Reply → Script α)

namespace Script

variable {α β : Type}

/-- What follows the result of a script. -/
protected def bind (next : α → Script β) : Script α → Script β
  | done value => next value
  | ask request more => ask request fun reply => (more reply).bind next

instance : Monad Script where
  pure := done
  bind script next := script.bind next

/-- The script of one request. -/
def request (r : Request) : Script r.Reply := ask r done

/-- Leave a note. -/
def note (level : Level) (text : String) : Script Unit := request (.tell ⟨level, text⟩)

/-- Leave notes. -/
def noteAll : List Note → Script Unit
  | [] => done ()
  | note :: notes => ask (.tell note) fun _ => noteAll notes

/-- Leave the notes of an outcome, and give it. -/
def ofJournaled {ε : Type} (journaled : Journaled ε α) : Script (Except ε α) := do
  noteAll journaled.notes
  return journaled.outcome

/-- The script without the notes that a listener at the given level does not hear. -/
def heardAt (level : Level) : Script α → Script α
  | done value => done value
  | ask (.tell note) next =>
    if level.hears note.level then ask (.tell note) fun reply => (next reply).heardAt level
    else (next ()).heardAt level
  | ask request next => ask request fun reply => (next reply).heardAt level

/-- The end of a script. -/
structure Outcome (α : Type) where
  value : α
  disk : Disk
  notes : List Note

/-- A script carried out on a disk. -/
def run (disk : Disk) : Script α → Outcome α
  | done value => ⟨value, disk, []⟩
  | ask request next =>
    let after := request.perform disk
    let outcome := (next after.1).run after.2
    { outcome with notes := request.notes ++ outcome.notes }

/-- What follows a request gets its reply, and the disk after it. -/
theorem run_request_bind (disk : Disk) (r : Request) (next : r.Reply → Script β) :
    (request r >>= next).run disk =
      let outcome := (next (r.perform disk).1).run (r.perform disk).2
      { outcome with notes := r.notes ++ outcome.notes } := rfl

/-- A script that goes on after another starts from its disk, and adds to its notes. -/
theorem run_bind (disk : Disk) (script : Script α) (next : α → Script β) :
    (script >>= next).run disk =
      let first := script.run disk
      let second := (next first.value).run first.disk
      ⟨second.value, second.disk, first.notes ++ second.notes⟩ := by
  show (script.bind next).run disk = _
  induction script generalizing disk with
  | done value => simp [Script.bind, run]
  | ask request more ih => simp [Script.bind, run, ih]

theorem run_noteAll (disk : Disk) (notes : List Note) :
    (noteAll notes).run disk = ⟨(), disk, notes⟩ := by
  induction notes with
  | nil => rfl
  | cons note notes ih => simp [noteAll, run, Request.perform, Request.notes, ih]

/-- A listener changes nothing but the notes. -/
theorem run_heardAt (level : Level) (disk : Disk) (script : Script α) :
    (script.heardAt level).run disk =
      { script.run disk with notes := (script.run disk).notes.filter (level.hears ·.level) } := by
  induction script generalizing disk with
  | done value => simp [heardAt, run]
  | ask request next ih =>
    cases request with
    | tell note =>
      by_cases h : level.hears note.level <;>
        simp [heardAt, run, h, ih, Request.notes, Request.perform]
    | _ => simp [heardAt, run, ih, Request.notes]

end Script

end BenchLedger.Disk
