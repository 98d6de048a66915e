import BenchLedger.Proofs.Binary64.Mean
import BenchLedger.Proofs.Ledger.Update
import Mathlib.Data.Finset.Card
import Mathlib.Data.Finset.SDiff

/-! # Rows that repeat a key

A row with the key of an earlier row (`repeated`) is reached by no sample. When a ledger is loaded,
each such row gets a warning, in the order of the rows, and there are as many of them as rows beyond
one for each key (`length_repeated_add_card`).

The rows that no sample changes are these and the rows neither of whose numbers is one (`dead_iff`).
Any other row is changed by a single sample that is a number (`exists_absorb_ne`). So the warnings
name the dead rows (`load_warns_of_dead_rows`). -/

namespace BenchLedger

/-! ### A sample that moves a mean -/

namespace Binary64

variable {x : Binary64}

theorem mean_neg (h : x ≠ nan) : x.mean x.neg = if x.isFinite then zero else nan := by
  cases x with
  | nan => exact absurd rfl h
  | signed s a =>
    have hzero : half (ofUnits false 0) = zero := by decide +kernel
    have hunits : (signed s a).units + (signed (!s) a).units = 0 := by cases s <;> simp [units]
    by_cases ha : a.isFinite = true
    · simp [mean, neg, add, isFinite, ha, hunits, hzero]
    · cases s <;> simp [mean, neg, add, isFinite, ha, half]

/-- **Every number has a sample that moves the mean**, a finite one if the number is finite. -/
theorem exists_mean_ne (h : x ≠ nan) :
    ∃ sample, sample ≠ nan ∧ (x.isFinite = true → sample.isFinite = true) ∧ x.mean sample ≠ x := by
  by_cases hzero : x = zero
  · subst hzero
    exact ⟨signed false ⟨2, by decide⟩, nofun, fun _ => by decide, by decide +kernel⟩
  · refine ⟨x.neg, ?_, fun hfinite => ?_, ?_⟩
    · cases x with
      | nan => exact absurd rfl h
      | signed s a => exact nofun
    · rw [isFinite_neg, hfinite]
    · rw [mean_neg h]
      split_ifs
      · exact Ne.symm hzero
      · exact Ne.symm h

end Binary64

namespace Ledger

open Disk (Path Worker Script)

variable {disk : Disk} {path : Path} {ledger : Ledger} {row : Row} {rows : List Row} {i : ℕ}

/-- The rows that have the key of an earlier row, with their places. -/
def repeated (ledger : Ledger) : List (Row × ℕ) :=
  ledger.rows.zipIdx.filter fun placed => placed.1.key ∈ ledger.keys.take placed.2

/-- **No samples change the row at a place**, whatever their keys. -/
def Dead (ledger : Ledger) (i : ℕ) : Prop :=
  ∀ samples, (ledger.postAll samples).2.rows[i]? = ledger.rows[i]?

theorem mem_repeated {placed : Row × ℕ} : placed ∈ ledger.repeated ↔
    ledger.rows[placed.2]? = some placed.1 ∧ placed.1.key ∈ ledger.keys.take placed.2 := by
  rw [repeated, List.mem_filter, List.mem_zipIdx_iff_getElem?, decide_eq_true_eq]

/-! ### The rows that are warned of -/

theorem repeatsAfter_eq (earlier : List Key) (rows : List Row) :
    repeatsAfter earlier rows = (rows.zipIdx.filter fun placed =>
      placed.1.key ∈ earlier ∨ placed.1.key ∈ (rows.map Row.key).take placed.2).map Prod.fst := by
  induction rows generalizing earlier with
  | nil => rfl
  | cons row rows ih =>
    have hrest : ∀ met : List Key, (∀ key, key ∈ met ↔ key ∈ earlier ∨ key = row.key) →
        repeatsAfter met rows = (((rows.zipIdx 1).filter fun placed => placed.1.key ∈ earlier ∨
          placed.1.key ∈ ((row :: rows).map Row.key).take placed.2).map Prod.fst) := by
      intro met hmet
      rw [ih, List.zipIdx_succ, List.filter_map, List.map_map]
      congr 2
      funext placed
      simp [hmet, or_assoc]
    rw [List.zipIdx_cons, repeatsAfter]
    by_cases h : row.key ∈ earlier
    · have hmet : ∀ key, key ∈ earlier ↔ key ∈ earlier ∨ key = row.key := by
        intro key
        refine ⟨Or.inl, fun hkey => hkey.elim id ?_⟩
        rintro rfl
        exact h
      rw [if_pos h, List.filter_cons_of_pos (by simp [h]), List.map_cons, hrest earlier hmet]
    · rw [if_neg h, List.filter_cons_of_neg (by simp [h]),
        hrest (row.key :: earlier) fun key => by rw [List.mem_cons, or_comm]]

theorem repeats_eq (ledger : Ledger) : ledger.repeats = ledger.repeated.map Prod.fst := by
  rw [repeats, repeatsAfter_eq, repeated]
  congr 1
  refine List.filter_congr fun placed _ => decide_eq_decide.mpr ?_
  simp [keys]

theorem length_repeatsAfter_add_card (earlier : List Key) (rows : List Row) :
    (repeatsAfter earlier rows).length +
      ((rows.map Row.key).toFinset \ earlier.toFinset).card = rows.length := by
  induction rows generalizing earlier with
  | nil => simp [repeatsAfter]
  | cons row rows ih =>
    rw [List.map_cons, List.toFinset_cons, repeatsAfter, List.length_cons]
    by_cases h : row.key ∈ earlier
    · rw [if_pos h, Finset.insert_sdiff_of_mem _ (List.mem_toFinset.mpr h), List.length_cons,
        Nat.add_right_comm, ih]
    · have hnew : row.key ∉ earlier.toFinset := mt List.mem_toFinset.mp h
      have hmet := ih (row.key :: earlier)
      rw [List.toFinset_cons, Finset.sdiff_insert] at hmet
      rw [if_neg h, Finset.insert_sdiff_of_notMem _ hnew,
        ← Finset.card_erase_add_one (Finset.mem_insert_self _ _), Finset.erase_insert_eq_erase,
        ← Nat.add_assoc, hmet]

/-- **Each row repeats a key or is the first of one.** -/
theorem length_repeated_add_card (ledger : Ledger) :
    ledger.repeated.length + ledger.keys.toFinset.card = ledger.rows.length := by
  have h := length_repeatsAfter_add_card [] ledger.rows
  rwa [← repeats, repeats_eq, List.length_map, List.toFinset_nil, Finset.sdiff_empty] at h

theorem run_load {text : String} (hread : disk.read path = .ok text.toUTF8)
    (hparse : read text = .ok ledger) :
    (load path).run disk = ⟨.ok ledger, disk, loadNotes path ledger⟩ := by
  have htext : (Disk.readText path).run disk = ⟨.ok text, disk, []⟩ := by
    show Script.Outcome.mk (Disk.decode path (disk.read path)) disk [] = _
    rw [(Disk.decode_eq_ok path).mpr hread]
  rw [load, Script.run_bind, htext]
  dsimp only
  rw [hparse]
  dsimp only
  rw [Script.run_bind, Script.run_noteAll]
  simp [Script.run, pure]

theorem warnings_loadNotes (path : Path) (ledger : Ledger) :
    (loadNotes path ledger).filter (·.level = .warn) =
      ledger.repeated.map fun placed => repeatNote path placed.1 := by
  rw [loadNotes, List.filter_cons_of_neg (by simp), repeats_eq, List.map_map,
    List.filter_eq_self.mpr]
  · rfl
  · intro note hnote
    obtain ⟨placed, -, rfl⟩ := List.mem_map.mp hnote
    rfl

/-! ### Rows that stay as they are -/

/-- **A sample does not reach a row that repeats a key**, which goes on repeating it. -/
theorem repeated_post {placed : Row × ℕ} (h : placed ∈ ledger.repeated) (key : Key)
    (sample : Binary64) : placed ∈ (ledger.post key sample).2.repeated := by
  rw [mem_repeated] at h ⊢
  obtain ⟨hrow, hkey⟩ := h
  constructor
  · have hpost := getElem?_absorbInto key sample hrow
    rwa [if_neg fun hfirst => hfirst.2 (hfirst.1 ▸ hkey)] at hpost
  · rw [keys_post]
    split_ifs
    · exact hkey
    · rw [List.take_append]
      exact List.mem_append_left _ hkey

theorem dead_of_invariant (Keeps : Ledger → Prop)
    (hrow : ∀ ledger, Keeps ledger → ledger.rows[i]? = some row)
    (hstep : ∀ ledger key sample, Keeps ledger → Keeps (ledger.post key sample).2)
    (h : Keeps ledger) : ledger.Dead i := by
  have hrun : ∀ samples (ledger : Ledger), Keeps ledger → Keeps (ledger.postAll samples).2 := by
    intro samples
    induction samples with
    | nil => exact fun ledger h => h
    | cons next samples ih => exact fun ledger h => ih _ (hstep ledger next.1 next.2 h)
  exact fun samples => (hrow _ (hrun samples ledger h)).trans (hrow ledger h).symm

theorem dead_of_repeated {placed : Row × ℕ} (h : placed ∈ ledger.repeated) :
    ledger.Dead placed.2 :=
  dead_of_invariant (fun ledger => placed ∈ ledger.repeated) (fun _ h => (mem_repeated.mp h).1)
    (fun _ key sample h => repeated_post h key sample) h

theorem absorb_eq_self (hmean : row.mean = .nan) (hspread : row.spread = .nan)
    (sample : Binary64) : row.absorb sample = row := by
  obtain ⟨key, mean, mark, spread⟩ := row
  obtain rfl : mean = .nan := hmean
  obtain rfl : spread = .nan := hspread
  rfl

theorem dead_of_nan (hrow : ledger.rows[i]? = some row) (hmean : row.mean = .nan)
    (hspread : row.spread = .nan) : ledger.Dead i := by
  refine dead_of_invariant (fun ledger => ledger.rows[i]? = some row) (fun _ hrow => hrow)
    (fun ledger key sample hrow => ?_) hrow
  have hpost := getElem?_absorbInto key sample hrow
  rwa [absorb_eq_self hmean hspread, ite_self] at hpost

/-! ### Rows that a sample changes -/

/-- **A row with a number in it has a sample that changes it**, a finite one if the mean is
finite. -/
theorem exists_absorb_ne (h : row.mean ≠ .nan ∨ row.spread ≠ .nan) : ∃ sample, sample ≠ .nan ∧
    (row.mean.isFinite = true → sample.isFinite = true) ∧ row.absorb sample ≠ row := by
  by_cases hmean : row.mean = .nan
  · -- Then the spread is one, and is none after any sample.
    have hspread := h.resolve_left fun hne => hne hmean
    refine ⟨.zero, nofun, fun _ => by decide, fun hsame => hspread ?_⟩
    have hnew : (row.absorb .zero).spread = .nan := by
      unfold Row.absorb
      rw [hmean]
      rfl
    rwa [hsame] at hnew
  · obtain ⟨sample, hsample, hfinite, hmoved⟩ := Binary64.exists_mean_ne hmean
    exact ⟨sample, hsample, hfinite, fun hsame => hmoved (congrArg Row.mean hsame)⟩

theorem getElem?_post_first (hrow : ledger.rows[i]? = some row)
    (hfirst : row.key ∉ ledger.keys.take i) (sample : Binary64) :
    (ledger.post row.key sample).2.rows[i]? = some (row.absorb sample) := by
  have hpost := getElem?_absorbInto row.key sample hrow
  rwa [if_pos ⟨rfl, hfirst⟩] at hpost

/-- **The dead rows** are those that repeat a key and those without a number. -/
theorem dead_iff (hrow : ledger.rows[i]? = some row) : ledger.Dead i ↔
    (row, i) ∈ ledger.repeated ∨ row.mean = .nan ∧ row.spread = .nan := by
  constructor
  · intro hdead
    by_contra hnot
    rw [not_or, mem_repeated, not_and, not_and_or] at hnot
    obtain ⟨sample, -, -, hmoved⟩ := exists_absorb_ne hnot.2
    have hpost := hdead [(row.key, sample)]
    rw [hrow] at hpost
    exact hmoved (Option.some.inj ((getElem?_post_first hrow (hnot.1 hrow) sample).symm.trans
      hpost))
  · rintro (hrepeated | ⟨hmean, hspread⟩)
    · exact dead_of_repeated hrepeated
    · exact dead_of_nan hrow hmean hspread

/-- **The warnings name the dead rows.** A file that holds a ledger is loaded with one warning for
each row that has the key of an earlier row, in the order of the rows; these are all rows but one
for each key. No samples ever change such a row. Any other row, unless neither of its numbers is
one, is changed by a single sample of its key that is a number, and finite if the mean of the row
is. -/
theorem load_warns_of_dead_rows {text : String} (hread : disk.read path = .ok text.toUTF8)
    (hparse : read text = .ok ledger) :
    ((load path).run disk).value = .ok ledger ∧
    ((load path).run disk).notes.filter (·.level = .warn) =
      (ledger.repeated.map fun placed => repeatNote path placed.1) ∧
    (((load path).run disk).notes.filter (·.level = .warn)).length + ledger.keys.toFinset.card =
      ledger.rows.length ∧
    ∀ i row, ledger.rows[i]? = some row →
      (ledger.Dead i ↔ (row, i) ∈ ledger.repeated ∨ row.mean = .nan ∧ row.spread = .nan) ∧
      ((row, i) ∉ ledger.repeated → row.mean ≠ .nan ∨ row.spread ≠ .nan →
        ∃ sample, sample ≠ .nan ∧ (row.mean.isFinite = true → sample.isFinite = true) ∧
          (ledger.post row.key sample).2.rows[i]? ≠ some row) := by
  rw [run_load hread hparse, warnings_loadNotes, List.length_map]
  refine ⟨rfl, rfl, length_repeated_add_card ledger, fun i row hrow => ⟨dead_iff hrow, ?_⟩⟩
  intro hnot hnumber
  have hfirst : row.key ∉ ledger.keys.take i := fun hkey => hnot (mem_repeated.mpr ⟨hrow, hkey⟩)
  obtain ⟨sample, hsample, hfinite, hmoved⟩ := exists_absorb_ne hnumber
  refine ⟨sample, hsample, hfinite, fun hsame => hmoved ?_⟩
  rw [getElem?_post_first hrow hfirst] at hsame
  exact Option.some.inj hsame

def keyOf (dataset : String) : Key := ⟨dataset, "op", "1", "8"⟩

/-- Rows of two keys, of which the first of the second key has no mean. -/
def mixedText : String :=
  "h\na op 1 8 1.0 ± 0.0\nb op 1 8 NaN ± 0.0\na op 1 8 2.0 +- 0.5\n" ++
    "b op 1 8 NaN ± NaN\na op 1 8 inf ± 0.0"

def mixedLedger : Ledger :=
  ⟨[Row.start (keyOf "a") (numberOf "1.0"), Row.start (keyOf "b") .nan,
    ⟨keyOf "a", numberOf "2.0", "+-", numberOf "0.5"⟩, ⟨keyOf "b", .nan, "±", .nan⟩,
    Row.start (keyOf "a") (.signed false .infinity)]⟩

theorem load_warns_of_dead_rows_mixedText :
    (((load ⟨"r"⟩).run (diskOf mixedText)).notes.filter (·.level = .warn)).map Note.text =
      ["duplicate key \"a op 1 8\" in \"r\", only the first row is updated",
        "duplicate key \"b op 1 8\" in \"r\", only the first row is updated",
        "duplicate key \"a op 1 8\" in \"r\", only the first row is updated"] ∧
      mixedLedger.Dead 2 ∧ ∃ sample, sample ≠ .nan ∧
        (mixedLedger.post (keyOf "b") sample).2.rows[1]? ≠ some (Row.start (keyOf "b") .nan) := by
  have hread : (diskOf mixedText).read ⟨"r"⟩ = .ok mixedText.toUTF8 := by decide +kernel
  have hparse : read mixedText = .ok mixedLedger := by decide +kernel
  obtain ⟨-, hwarnings, -, hrows⟩ := load_warns_of_dead_rows hread hparse
  have hdead := (hrows 2 ⟨keyOf "a", numberOf "2.0", "+-", numberOf "0.5"⟩ rfl).1
  obtain ⟨sample, hsample, -, hmoved⟩ := (hrows 1 (Row.start (keyOf "b") .nan) rfl).2
    (by decide +kernel) (Or.inr (by decide +kernel))
  refine ⟨?_, hdead.mpr (Or.inl (by decide +kernel)), sample, hsample, hmoved⟩
  rw [hwarnings]
  decide +kernel

end Ledger

end BenchLedger
