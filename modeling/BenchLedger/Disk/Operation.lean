import BenchLedger.Disk.Basic

/-! # Operations on a disk

Each operation either has its whole effect or fails and has none. -/

namespace BenchLedger.Disk

/-- The bytes of a file. -/
def read (disk : Disk) (path : Path) : Except Fault ByteArray :=
  match disk.locate true path with
  | .error fault => .error fault
  | .ok (.vacant _) => .error .notFound
  | .ok (.found _ (.file mode bytes)) => if disk.mayRead mode then .ok bytes else .error .denied
  | .ok (.found _ _) => .error .isDirectory

/-- The path without links of what a path leads to. The path is followed name by name, so it may be
of any length; its result may not. -/
def resolve (disk : Disk) (path : Path) : Except Fault Path :=
  match disk.seek true path with
  | .error fault => .error fault
  | .ok (.vacant _) => .error .notFound
  | .ok (.found location _) =>
    if maxPath ≤ (Location.path location).text.utf8ByteSize then .error .nameTooLong
    else .ok (Location.path location)

/-- The disk after a file is written; a new file gets the usual permission bits. -/
def write (disk : Disk) (path : Path) (bytes : ByteArray) : Except Fault Disk :=
  match disk.locate true path with
  | .error fault => .error fault
  | .ok (.vacant location) => .ok (disk.put location (.file Node.fileMode bytes))
  | .ok (.found location (.file mode _)) =>
    if disk.mayWrite mode then .ok (disk.put location (.file mode bytes)) else .error .denied
  | .ok (.found _ _) => .error .isDirectory

/-- The permission bits of what a path leads to. -/
def mode (disk : Disk) (path : Path) : Except Fault Mode :=
  match disk.locate true path with
  | .error fault => .error fault
  | .ok (.found _ (.file mode _)) => .ok mode
  | .ok (.found _ (.directory mode)) => .ok mode
  | .ok _ => .error .notFound

/-- The disk after the permission bits of what a path leads to are set. -/
def setMode (disk : Disk) (path : Path) (mode : Mode) : Except Fault Disk :=
  match disk.locate true path with
  | .error fault => .error fault
  | .ok (.found location (.file _ bytes)) => .ok (disk.put location (.file mode bytes))
  | .ok (.found location (.directory _)) => .ok (disk.put location (.directory mode))
  | .ok _ => .error .notFound

/-- The path without slashes at its end. -/
def Path.bare (path : Path) : Path :=
  ⟨String.ofList (path.text.toList.reverse.dropWhile (· = '/')).reverse⟩

/-- The disk after a file or link is moved. What the new path names is replaced, also a link, but no
directory is. A new path with a slash at its end would be one of a directory. -/
def rename (disk : Disk) (source target : Path) : Except Fault Disk :=
  match disk.locate false source with
  | .error fault => .error fault
  | .ok (.vacant _) => .error .notFound
  | .ok (.found _ (.directory _)) => .error .isDirectory
  | .ok (.found old node) =>
    match disk.locate false target.bare with
    | .error fault => .error fault
    | .ok place =>
      if target.bare ≠ target then .error .notDirectory
      else match place with
        | .vacant new => .ok ((disk.erase old).put new node)
        | .found _ (.directory _) => .error .isDirectory
        | .found new _ => .ok ((disk.erase old).put new node)

/-- The disk after a file or link is removed. -/
def remove (disk : Disk) (path : Path) : Except Fault Disk :=
  match disk.locate false path with
  | .error fault => .error fault
  | .ok (.vacant _) => .error .notFound
  | .ok (.found _ (.directory _)) => .error .isDirectory
  | .ok (.found location _) => .ok (disk.erase location)

/-- The disk with an entry under a directory, where the names lead. Links on the way are followed,
and directories are made where there is nothing. -/
def install (disk : Disk) (node : Node) (directory : Location) : List String → Disk
  | [] => disk
  | [name] => disk.put (name :: directory) node
  | name :: names =>
    match disk.walk true maxLinks directory [name] with
    | .error _ => disk
    | .ok (.found location _) => install disk node location names
    | .ok (.vacant location) =>
      install (disk.put location (.directory Node.directoryMode)) node location names

end BenchLedger.Disk
