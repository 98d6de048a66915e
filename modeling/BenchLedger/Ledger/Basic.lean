import BenchLedger.Binary64.Arithmetic

/-! # The ledger of results

One row for each experiment, known by its key: data set, operation, whether the optimised variant
ran, and heap size. A row holds a running mean of the samples, and how far the last sample lay from
it.

* `Ledger.post`: a sample goes into the first row of its key; without such a row it starts one at
  the end.
* `Ledger.repeats`: the rows that no sample reaches, because an earlier row has their key. -/

namespace BenchLedger

namespace Ledger

/-- What a row is about. Keys are compared letter by letter: `1` and `01` are two heap sizes. -/
structure Key where
  dataset : String
  operation : String
  isOptimized : String
  heapsize : String
  deriving DecidableEq, Repr, Inhabited

/-- A row: the mean of the samples so far, a mark, and the distance of the last sample. -/
structure Row where
  key : Key
  mean : Binary64
  mark : String
  spread : Binary64
  deriving DecidableEq, Repr, Inhabited

/-- The mark that new rows get. -/
def plusMinus : String := "±"

namespace Row

/-- The row of a first sample. -/
def start (key : Key) (sample : Binary64) : Row := ⟨key, sample, plusMinus, .zero⟩

/-- The row after one more sample: the mean moves halfway towards it, and the spread is the distance
from the new mean. -/
def absorb (row : Row) (sample : Binary64) : Row :=
  let mean := row.mean.mean sample
  { row with mean := mean, spread := mean.distance sample }

end Row

/-- What became of a sample. -/
inductive Posting where
  /-- The row of its key absorbed it. -/
  | updated
  /-- It started a row. -/
  | appended
  deriving DecidableEq, Repr

/-- The rows after a sample. -/
def absorbInto (key : Key) (sample : Binary64) : List Row → List Row
  | [] => [Row.start key sample]
  | row :: rows =>
    if row.key = key then row.absorb sample :: rows else row :: absorbInto key sample rows

/-- The rows whose key is among the earlier ones. -/
def repeatsAfter (earlier : List Key) : List Row → List Row
  | [] => []
  | row :: rows =>
    if row.key ∈ earlier then row :: repeatsAfter earlier rows
    else repeatsAfter (row.key :: earlier) rows

end Ledger

/-- The rows of all experiments, in the order in which they were started. -/
structure Ledger where
  rows : List Ledger.Row := []
  deriving DecidableEq, Repr, Inhabited

namespace Ledger

/-- The first row of a key. -/
def find? (ledger : Ledger) (key : Key) : Option Row := ledger.rows.find? fun row => row.key = key

/-- The ledger after a sample, and what became of the sample. -/
def post (ledger : Ledger) (key : Key) (sample : Binary64) : Posting × Ledger :=
  (if (ledger.find? key).isSome then .updated else .appended,
    ⟨absorbInto key sample ledger.rows⟩)

/-- After a sample there is a row of its key. -/
theorem find?_post (ledger : Ledger) (key : Key) (sample : Binary64) :
    (ledger.post key sample).2.find? key =
      some (((ledger.find? key).map (·.absorb sample)).getD (Row.start key sample)) := by
  simp only [find?, post]
  induction ledger.rows with
  | nil => simp [absorbInto, Row.start]
  | cons row rows ih =>
    by_cases h : row.key = key
    · simp [absorbInto, h, Row.absorb]
    · simp [absorbInto, h, ih]

/-- The rows of other keys are as before. -/
theorem find?_post_of_ne (ledger : Ledger) {key other : Key} (h : key ≠ other)
    (sample : Binary64) : (ledger.post key sample).2.find? other = ledger.find? other := by
  simp only [find?, post]
  induction ledger.rows with
  | nil => simp [absorbInto, Row.start, h]
  | cons row rows ih =>
    by_cases hr : row.key = key
    · simp [absorbInto, hr, Row.absorb, h]
    · rw [absorbInto, if_neg hr, List.find?_cons, List.find?_cons, ih]

/-- The rows that have the key of an earlier row. -/
def repeats (ledger : Ledger) : List Row := repeatsAfter [] ledger.rows

end Ledger

end BenchLedger
