import BenchLedger.Disk.Script

/-! # Courses of a script

On a real disk a request can fail for a reason that the disk does not show: there is no room left,
or a right is missing. It then has no effect, except that a write can leave a part of the file.
Which requests are exposed to such faults is told by a predicate, as more can be said where some are
not.

Others may look at the disk between two requests, and while a file is being written. A course is a
list of all they can see before the last disk.

* `Request.Yields`: the replies to a request, and the disks after it.
* `Request.Halfway`: the disks while a request is under way.
* `Script.Course`: what can be seen while a script is carried out, and how it ends. -/

namespace BenchLedger.Disk

namespace Request

/-- The reply that a fault from outside the disk gives. Notes are always left. -/
def refusal? (fault : Fault) : (request : Request) → Option request.Reply
  | tell _ => none
  | read _ => some (.error fault)
  | resolve _ => some (.error fault)
  | readMode _ => some (.error fault)
  | write _ _ => some (.error fault)
  | setMode _ _ => some (.error fault)
  | rename _ _ => some (.error fault)
  | remove _ => some (.error fault)

/-- All requests but removals. -/
def butRemoval : Request → Prop
  | remove _ => False
  | _ => True

/-- A disk on which a part of a file is written. -/
def Halfway (disk : Disk) (request : Request) (seen : Disk) : Prop :=
  ∃ path bytes count, request = .write path bytes ∧
    disk.write path (bytes.extract 0 count) = .ok seen

/-- What can come of a request, if some requests are exposed to faults from outside. -/
inductive Yields (exposed : Request → Prop) (disk : Disk) :
    (request : Request) → request.Reply → Disk → Prop where
  /-- It is performed. -/
  | performed (request : Request) :
    Yields exposed disk request (request.perform disk).1 (request.perform disk).2
  /-- It fails and has no effect. -/
  | refused (request : Request) (code : Nat) (text : String) (reply : request.Reply)
    (risk : exposed request) (refusal : request.refusal? (.other code text) = some reply) :
    Yields exposed disk request reply disk
  /-- A write fails and leaves a part of the file. -/
  | cut (path : Path) (bytes : ByteArray) (code : Nat) (text : String) (after : Disk)
    (risk : exposed (.write path bytes)) (halfway : Halfway disk (.write path bytes) after) :
    Yields exposed disk (.write path bytes) (.error (.other code text)) after

end Request

/-- What can be seen while a script is carried out, before the last disk, then the last disk and the
result. -/
inductive Script.Course {α : Type} (exposed : Request → Prop) :
    Disk → Script α → List Disk → Disk → α → Prop where
  | done (disk : Disk) (value : α) : Course exposed disk (.done value) [] disk value
  | ask {disk : Disk} {request : Request} {next : request.Reply → Script α}
    {reply : request.Reply} {halfway : List Disk} {middle : Disk} {seen : List Disk} {after : Disk}
    {value : α} (within : ∀ half ∈ halfway, request.Halfway disk half)
    (step : request.Yields exposed disk reply middle)
    (rest : Course exposed middle (next reply) seen after value) :
    Course exposed disk (.ask request next) (disk :: halfway ++ seen) after value

end BenchLedger.Disk
