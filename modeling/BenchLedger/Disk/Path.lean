import BenchLedger.Text.Quoted

/-! # Paths

A path is a text whose pieces are divided by slashes. Pieces that are empty or a single point are
idle: they lead nowhere, except for the first piece, which says where the path starts. All names are
Unicode texts, so a name as it is shown is the name itself; bytes that are no text name nothing
here.

* `Path.split?`: the way to a file and its name.
* `Path.scratch?`: the path of a temporary file beside another file. -/

namespace BenchLedger.Disk

/-- A path, as it was written. -/
structure Path where
  text : String
  deriving DecidableEq, Repr, Inhabited

/-- Who writes: a process, and a thread in it. -/
structure Worker where
  process : Nat
  thread : Nat
  deriving DecidableEq, Repr

/-- What a worker adds to a file's name for its temporary file. -/
def Worker.suffix (worker : Worker) : List Char :=
  ".tmp~".toList ++ Nat.toDigits 10 worker.process ++ '-' :: Nat.toDigits 10 worker.thread

namespace Path

/-- The pieces of a text between slashes. -/
def pieces : List Char → List (List Char)
  | [] => [[]]
  | c :: text =>
    if c = '/' then [] :: pieces text
    else match pieces text with
      | [] => [[c]]
      | piece :: rest => (c :: piece) :: rest

/-- Pieces with slashes between them. -/
def join : List (List Char) → List Char
  | [] => []
  | [piece] => piece
  | piece :: rest => piece ++ '/' :: join rest

theorem pieces_ne_nil (text : List Char) : pieces text ≠ [] := by
  cases text with
  | nil => simp [pieces]
  | cons c text =>
    rw [pieces]
    split
    · simp
    · split <;> simp

/-- **The pieces of a text, joined, are the text.** -/
theorem join_pieces (text : List Char) : join (pieces text) = text := by
  induction text with
  | nil => rfl
  | cons c text ih =>
    obtain ⟨piece, rest, hp⟩ := List.exists_cons_of_ne_nil (pieces_ne_nil text)
    rw [hp] at ih
    by_cases h : c = '/'
    · subst h
      simp only [pieces, if_true, hp, join, List.nil_append, ih]
    · simp only [pieces, if_neg h, hp]
      cases rest with
      | nil => simpa [join] using ih
      | cons next rest => simpa [join] using ih

/-- A piece that leads nowhere. -/
def isIdle (piece : List Char) : Bool := piece = [] || piece = ['.']

/-- The pieces without the idle ones at their end, but with the first. -/
def settle : List (List Char) → List (List Char)
  | [] => []
  | first :: rest => first :: (rest.reverse.dropWhile isIdle).reverse

/-- A piece that names a file. -/
def isName (piece : List Char) : Bool := !isIdle piece && piece ≠ ['.', '.']

/-- The pieces that lead to a file, and its name. A path that is empty, the root or a single point,
or that ends in two points, names none. -/
def split? (path : Path) : Option (List (List Char) × List Char) :=
  let way := settle (pieces path.text.toList)
  (way.getLast?.filter isName).map fun name => (settle way.dropLast, name)

/-- The path of the temporary file of a worker beside the file that a path names. -/
def scratch? (worker : Worker) (path : Path) : Option Path :=
  path.split?.map fun parts => ⟨String.ofList (join (parts.1 ++ [parts.2 ++ worker.suffix]))⟩

/-- The path in quotes. -/
def quoted (path : Path) : String := Text.quoted path.text

end Path

end BenchLedger.Disk
