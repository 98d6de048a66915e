import BenchLedger.Disk.Path

/-! # Disks

A disk is a tree of directories with files and symbolic links, given as the list of its entries. An
entry is found at its location: the names from its own up to the one below the root.

* `Disk.put`, `Disk.erase`: changes of one entry, seen through `Disk.node?`.
* `Disk.walk`: where names lead from a directory, through links.
* `Disk.seek`, `Disk.locate`: what a path leads to, from the working directory. -/

namespace BenchLedger

namespace Disk

/-- The names on the way from an entry up to the root, its own first. -/
abbrev Location := List String

/-- Permission bits. -/
abbrev Mode := Nat

/-- What an entry is. -/
inductive Node where
  | file (mode : Mode) (bytes : ByteArray)
  | directory (mode : Mode)
  | link (target : String)

/-- The bits of a new file. -/
def Node.fileMode : Mode := 0o644

/-- The bits of a new directory. -/
def Node.directoryMode : Mode := 0o755

/-- Why an operation on a disk fails. -/
inductive Fault where
  | notFound
  | notDirectory
  | isDirectory
  | nameTooLong
  | linkLoop
  /-- A path with a NUL character is never looked up. -/
  | nulInPath
  /-- The permission bits of a file do not allow it. -/
  | denied
  | other (code : Nat) (text : String)
  deriving DecidableEq, Repr

/-- The fault in words. -/
def Fault.message : Fault → String
  | notFound => "No such file or directory (os error 2)"
  | notDirectory => "Not a directory (os error 20)"
  | isDirectory => "Is a directory (os error 21)"
  | nameTooLong => "File name too long (os error 36)"
  | linkLoop => "Too many levels of symbolic links (os error 40)"
  | nulInPath => "file name contained an unexpected NUL byte"
  | denied => "Permission denied (os error 13)"
  | other code text => text ++ " (os error " ++ code.repr ++ ")"

/-- Who works on a disk. The entries are theirs. -/
structure User where
  /-- The directory that paths start from. -/
  working : Location := []
  /-- Permission bits are no bar. -/
  privileged : Bool := false

/-- Who starts from a directory, without privileges. -/
instance : Coe Location User := ⟨fun working => { working }⟩

end Disk

/-- The entries of a disk, and who works on it. The root has no entry. Permission bits count for
files only: all directories can be searched and changed, as far as the disk tells. -/
structure Disk where
  entries : List (Disk.Location × Disk.Node) := []
  user : Disk.User := {}

namespace Disk

/-- The working directory. -/
abbrev working (disk : Disk) : Location := disk.user.working

/-- A file with some permission bits can be read by its owner. -/
def mayRead (disk : Disk) (mode : Mode) : Bool := disk.user.privileged || mode.testBit 8

/-- A file with some permission bits can be written by its owner. -/
def mayWrite (disk : Disk) (mode : Mode) : Bool := disk.user.privileged || mode.testBit 7

/-- The first node at a location. -/
def firstAt (location : Location) : List (Location × Node) → Option Node
  | [] => none
  | entry :: entries => if entry.1 = location then some entry.2 else firstAt location entries

/-- What is at a location. -/
def node? (disk : Disk) (location : Location) : Option Node :=
  if location = [] then some (.directory Node.directoryMode) else firstAt location disk.entries

/-- The entries with a node at a location, in the place of the one before or else at the end. -/
def putInto (location : Location) (node : Node) :
    List (Location × Node) → List (Location × Node)
  | [] => [(location, node)]
  | entry :: entries =>
    if entry.1 = location then (location, node) :: entries
    else entry :: putInto location node entries

/-- The disk with a node at a location. -/
def put (disk : Disk) (location : Location) (node : Node) : Disk :=
  { disk with entries := putInto location node disk.entries }

/-- The disk without the entry at a location. -/
def erase (disk : Disk) (location : Location) : Disk :=
  { disk with entries := disk.entries.filter fun entry => entry.1 ≠ location }

/-- What is put at a location is there. -/
theorem node?_put (disk : Disk) {location : Location} (h : location ≠ []) (node : Node) :
    (disk.put location node).node? location = some node := by
  simp only [node?, put, if_neg h]
  induction disk.entries with
  | nil => simp [putInto, firstAt]
  | cons entry entries ih =>
    by_cases he : entry.1 = location
    · simp [putInto, firstAt, he]
    · simp [putInto, firstAt, he, ih]

/-- All else is as before. -/
theorem node?_put_of_ne (disk : Disk) {location other : Location} (h : location ≠ other)
    (node : Node) : (disk.put location node).node? other = disk.node? other := by
  simp only [node?, put]
  split
  · rfl
  · induction disk.entries with
    | nil => simp [putInto, firstAt, h]
    | cons entry entries ih =>
      by_cases he : entry.1 = location
      · simp [putInto, firstAt, he, h]
      · simp [putInto, firstAt, he, ih]

/-- What is erased is gone. -/
theorem node?_erase (disk : Disk) {location : Location} (h : location ≠ []) :
    (disk.erase location).node? location = none := by
  simp only [node?, erase, if_neg h]
  induction disk.entries with
  | nil => rfl
  | cons entry entries ih =>
    by_cases he : entry.1 = location
    · rw [List.filter_cons_of_neg (by simp [he]), ih]
    · rw [List.filter_cons_of_pos (by simp [he]), firstAt, if_neg he, ih]

/-- All else is as before. -/
theorem node?_erase_of_ne (disk : Disk) {location other : Location} (h : location ≠ other) :
    (disk.erase location).node? other = disk.node? other := by
  simp only [node?, erase]
  split
  · rfl
  · induction disk.entries with
    | nil => rfl
    | cons entry entries ih =>
      by_cases he : entry.1 = location
      · rw [List.filter_cons_of_neg (by simp [he]), ih, firstAt, if_neg (by rw [he]; exact h)]
      · rw [List.filter_cons_of_pos (by simp [he]), firstAt, firstAt, ih]

/-! ### Finding entries -/

/-- The longest name, in bytes. -/
def maxName : Nat := 255

/-- The length in bytes from which on a path is too long to be looked up at once. -/
def maxPath : Nat := 4096

/-- The number of links that a path may lead through. -/
def maxLinks : Nat := 40

/-- Where names lead before they pass a link. -/
inductive Stop where
  /-- To an entry. -/
  | found (location : Location) (node : Node)
  /-- To no entry, but to a directory for one. -/
  | vacant (location : Location)
  /-- To a link in the given directory, with names left. -/
  | link (directory : Location) (target : String) (names : List String)

/-- Where names lead from a directory, up to the first link. The last name stands for the link
itself if `follow` is false. -/
def advance (disk : Disk) (follow : Bool) (directory : Location) :
    List String → Except Fault Stop
  | [] => .ok (.found directory ((disk.node? directory).getD (.directory Node.directoryMode)))
  | name :: names =>
    if name = "." then advance disk follow directory names
    else if name = ".." then advance disk follow directory.tail names
    else if maxName < name.utf8ByteSize then .error .nameTooLong
    else
      let location := name :: directory
      match disk.node? location with
      | none => if names = [] then .ok (.vacant location) else .error .notFound
      | some (.directory mode) =>
        if names = [] then .ok (.found location (.directory mode))
        else advance disk follow location names
      | some (.file mode bytes) =>
        if names = [] then .ok (.found location (.file mode bytes)) else .error .notDirectory
      | some (.link target) =>
        if names = [] ∧ follow = false then .ok (.found location (.link target))
        else .ok (.link directory target names)

/-- The names in a path. A slash at the end asks for a directory, as a point after it would. -/
def Path.names (text : List Char) : List String :=
  let names := (Path.pieces text).filter (· ≠ [])
  (if names ≠ [] ∧ text.getLast? = some '/' then names ++ [['.']] else names).map String.ofList

/-- The directory that a path starts from. -/
def origin (directory : Location) (text : List Char) : Location :=
  if text.head? = some '/' then [] else directory

/-- An entry, or a place for one. -/
inductive Place where
  | found (location : Location) (node : Node)
  | vacant (location : Location)

/-- Where names lead from a directory, through at most the given number of links. -/
def walk (disk : Disk) (follow : Bool) (links : Nat) (directory : Location) (names : List String) :
    Except Fault Place :=
  match disk.advance follow directory names with
  | .error fault => .error fault
  | .ok (.found location node) => .ok (.found location node)
  | .ok (.vacant location) => .ok (.vacant location)
  | .ok (.link directory target names) =>
    match links with
    | 0 => .error .linkLoop
    | links + 1 =>
      walk disk follow links (origin directory target.toList)
        (Path.names target.toList ++ names)

/-- What a path of any length leads to from the working directory, or the link itself that it names
if `follow` is false. -/
def seek (disk : Disk) (follow : Bool) (path : Path) : Except Fault Place :=
  if '\x00' ∈ path.text.toList then .error .nulInPath
  else if path.text = "" then .error .notFound
  else disk.walk follow maxLinks (origin disk.working path.text.toList)
    (Path.names path.text.toList)

/-- What a path leads to, if it is not too long to be looked up. -/
def locate (disk : Disk) (follow : Bool) (path : Path) : Except Fault Place :=
  if '\x00' ∉ path.text.toList ∧ maxPath ≤ path.text.utf8ByteSize then .error .nameTooLong
  else disk.seek follow path

/-- The path of a location, from the root. -/
def Location.path (location : Location) : Path := ⟨"/" ++ "/".intercalate location.reverse⟩

end Disk

end BenchLedger
