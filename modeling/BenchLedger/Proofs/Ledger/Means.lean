import BenchLedger.Proofs.Binary64.Mean
import BenchLedger.Proofs.Ledger.Aggregation

/-! # Means stay within the data

The mean of a row starts from a number and takes in the samples of the key one by one. After a run
it is finite, and lies between the least and the greatest of these data, just if none of the sums
that it was halved from left the range (`within_iff_sumsInRange`). Such a sum can leave the range
though the mean would not (`not_within_greatest`), and then the mean is infinite for good
(`Binary64.isFinite_mean_of_not`). -/

namespace BenchLedger.Ledger

/-! ### Data and means -/

/-- What the mean of the row at a place is made of: the mean that it had at first, if it was there,
and the samples of its key. -/
def dataOf (ledger : Ledger) (samples : List (Key × Binary64)) (i : ℕ) (key : Key) :
    List Binary64 :=
  (ledger.rows[i]?.map Row.mean).toList ++ samplesOf key samples

/-- **The row keeps within some data**: its numbers are finite, and its mean lies between the least
and the greatest of the data. -/
structure Row.Within (row : Row) (data : List Binary64) : Prop where
  mean_finite : row.mean.isFinite = true
  spread_finite : row.spread.isFinite = true
  least : ∃ x ∈ data, x.units ≤ row.mean.units
  greatest : ∃ x ∈ data, row.mean.units ≤ x.units

/-- **All rows of a key keep within their data**, and the spread of the row that the samples of the
key went into is not negative. -/
structure Within (ledger : Ledger) (samples : List (Key × Binary64)) (final : Ledger) (key : Key) :
    Prop where
  rows : ∀ (i : ℕ) (row : Row), final.rows[i]? = some row → row.key = key →
    row.Within (dataOf ledger samples i key)
  spread_nonneg : samplesOf key samples ≠ [] → ∀ row ∈ final.find? key, 0 ≤ row.spread.units

/-- **No sum leaves the range**: each sample of the key adds up with the mean that it meets, if it
meets one, to a number that does not round to an infinite one. -/
def SumsInRange (key : Key) : Ledger → List (Key × Binary64) → Prop
  | _, [] => True
  | ledger, (posted, sample) :: samples =>
    (posted = key → ∀ row ∈ ledger.find? key, row.mean.SumInRange sample) ∧
      SumsInRange key (ledger.post posted sample).2 samples

/-! ### One row and one sample -/

variable {row : Row} {data more : List Binary64} {key posted : Key} {sample : Binary64}

theorem Row.Within.mono (h : row.Within data) (hmore : data ⊆ more) : row.Within more := by
  obtain ⟨least, hleast, hle⟩ := h.least
  obtain ⟨greatest, hgreatest, hge⟩ := h.greatest
  exact ⟨h.mean_finite, h.spread_finite, ⟨least, hmore hleast, hle⟩,
      ⟨greatest, hmore hgreatest, hge⟩⟩

theorem Row.within_start (key : Key) (hsample : sample.isFinite = true) (hmem : sample ∈ data) :
    (Row.start key sample).Within data :=
  ⟨hsample, (by decide : Binary64.zero.isFinite = true), ⟨sample, hmem, le_rfl⟩,
    ⟨sample, hmem, le_rfl⟩⟩

/-- **A sample that stays in range** keeps the row within its data and the sample. -/
theorem Row.Within.absorb (h : row.Within data) (hsample : sample.isFinite = true)
    (hrange : row.mean.SumInRange sample) (hmem : sample ∈ data) :
    (row.absorb sample).Within data := by
  obtain ⟨hlow, hhigh⟩ := Binary64.mean_between h.mean_finite hsample hrange
  refine ⟨(Binary64.isFinite_mean_iff h.mean_finite hsample).mpr hrange,
    Binary64.isFinite_distance_mean h.mean_finite hsample hrange, ?_, ?_⟩
  · rcases min_le_iff.mp hlow with hmean | hnew
    · obtain ⟨least, hleast, hle⟩ := h.least
      exact ⟨least, hleast, hle.trans hmean⟩
    · exact ⟨sample, hmem, hnew⟩
  · rcases le_max_iff.mp hhigh with hmean | hnew
    · obtain ⟨greatest, hgreatest, hge⟩ := h.greatest
      exact ⟨greatest, hgreatest, hmean.trans hge⟩
    · exact ⟨sample, hmem, hnew⟩

/-! ### One more sample -/

theorem find?_eq_of_first {rows : List Row} {i : ℕ} (hrow : rows[i]? = some row)
    (hfirst : row.key ∉ (rows.map Row.key).take i) : find? ⟨rows⟩ row.key = some row := by
  unfold find?
  induction rows generalizing i with
  | nil => simp at hrow
  | cons first rows ih =>
    cases i with
    | zero =>
      obtain rfl : first = row := by simpa using hrow
      simp
    | succ i =>
      rw [List.map_cons, List.take_succ_cons, List.mem_cons, not_or] at hfirst
      rw [List.getElem?_cons_succ] at hrow
      rw [List.find?_cons_of_neg (by simpa using Ne.symm hfirst.1)]
      exact ih hrow hfirst.2

theorem eq_start_of_absorbInto {rows : List Row} {i : ℕ} (hnone : rows[i]? = none)
    (hrow : (absorbInto posted sample rows)[i]? = some row) : row = Row.start posted sample := by
  induction rows generalizing i with
  | nil =>
    cases i with
    | zero => simpa [absorbInto, eq_comm] using hrow
    | succ i => simp [absorbInto] at hrow
  | cons first rows ih =>
    cases i with
    | zero => simp at hnone
    | succ i =>
      rw [List.getElem?_cons_succ] at hnone
      rw [absorbInto] at hrow
      split_ifs at hrow
      · rw [List.getElem?_cons_succ, hnone] at hrow
        cases hrow
      · exact ih hnone hrow

section Step

variable {ledger current : Ledger} {samples : List (Key × Binary64)}

theorem dataOf_subset (ledger : Ledger) (samples : List (Key × Binary64)) (i : ℕ) (key : Key)
    (next : Key × Binary64) :
    ledger.dataOf samples i key ⊆ ledger.dataOf (samples ++ [next]) i key := by
  unfold dataOf
  rw [samplesOf_append, ← List.append_assoc]
  exact List.subset_append_left _ _

theorem mem_dataOf (ledger : Ledger) (samples : List (Key × Binary64)) (i : ℕ) (key : Key)
    (sample : Binary64) : sample ∈ ledger.dataOf (samples ++ [(key, sample)]) i key := by
  unfold dataOf
  rw [samplesOf_append, if_pos rfl]
  exact List.mem_append_right _ (List.mem_append_right _ (List.mem_singleton_self _))

/-- **One more sample**, in range, keeps all rows of a key within their data. -/
theorem Within.snoc (h : Within ledger samples current key) (hsample : sample.isFinite = true)
    (hrange : posted = key → ∀ row ∈ current.find? key, row.mean.SumInRange sample) :
    Within ledger (samples ++ [(posted, sample)]) (current.post posted sample).2 key := by
  refine ⟨fun i row hrow hkey => ?_, fun hsome row hrow => ?_⟩
  · change (absorbInto posted sample current.rows)[i]? = some row at hrow
    cases hbefore : current.rows[i]? with
    | none =>
      obtain rfl := eq_start_of_absorbInto hbefore hrow
      obtain rfl : posted = key := hkey
      exact Row.within_start _ hsample (mem_dataOf ledger samples i posted sample)
    | some before =>
      rw [getElem?_absorbInto posted sample hbefore, Option.some_inj] at hrow
      have hgrow := dataOf_subset ledger samples i key (posted, sample)
      by_cases hfirst : before.key = posted ∧ posted ∉ (current.rows.map Row.key).take i
      · -- The row is the one that the sample goes into.
        rw [if_pos hfirst] at hrow
        obtain ⟨rfl, hfirst⟩ := hfirst
        obtain rfl := hrow
        obtain rfl : before.key = key := hkey
        exact ((h.rows i before hbefore rfl).mono hgrow).absorb hsample
          (hrange rfl before (find?_eq_of_first hbefore hfirst)) (mem_dataOf ..)
      · rw [if_neg hfirst] at hrow
        obtain rfl := hrow
        exact (h.rows i before hbefore hkey).mono hgrow
  · by_cases hposted : posted = key
    · subst hposted
      rw [find?_post, Option.mem_some_iff] at hrow
      obtain rfl := hrow
      cases current.find? posted with
      | none => exact (by decide +kernel : 0 ≤ Binary64.zero.units)
      | some before => exact Binary64.units_distance_nonneg _ _
    · rw [find?_post_of_ne current hposted] at hrow
      rw [samplesOf_append, if_neg hposted, List.append_nil] at hsome
      exact h.spread_nonneg hsome row hrow

end Step

/-! ### The whole run -/

theorem sumsInRange_append (ledger : Ledger) (samples : List (Key × Binary64)) :
    SumsInRange key ledger (samples ++ [(posted, sample)]) ↔ SumsInRange key ledger samples ∧
      (posted = key →
        ∀ row ∈ (ledger.postAll samples).2.find? key, row.mean.SumInRange sample) := by
  induction samples generalizing ledger with
  | nil => simp [SumsInRange, postAll]
  | cons next samples ih =>
    rw [List.cons_append, SumsInRange, ih, SumsInRange, and_assoc]
    rfl

theorem within_of_sumsInRange {ledger : Ledger} {samples : List (Key × Binary64)}
    (hledger : ∀ row ∈ ledger.rows, row.mean.isFinite = true ∧ row.spread.isFinite = true)
    (hsamples : ∀ posted ∈ samples, posted.2.isFinite = true)
    (hrange : SumsInRange key ledger samples) :
    Within ledger samples (ledger.postAll samples).2 key := by
  induction samples using List.reverseRecOn with
  | nil =>
    refine ⟨fun i row hrow _ => ?_, fun hsome => absurd rfl hsome⟩
    change ledger.rows[i]? = some row at hrow
    have hmem : row.mean ∈ ledger.dataOf [] i key := by simp [dataOf, hrow]
    obtain ⟨hmean, hspread⟩ := hledger row (List.mem_of_getElem? hrow)
    exact ⟨hmean, hspread, ⟨_, hmem, le_rfl⟩, ⟨_, hmem, le_rfl⟩⟩
  | append_singleton samples next ih =>
    obtain ⟨posted, sample⟩ := next
    obtain ⟨hbefore, hlast⟩ := (sumsInRange_append ledger samples).mp hrange
    obtain ⟨hsamples, hsample⟩ := List.forall_mem_append.mp hsamples
    rw [postAll_append]
    exact (ih hsamples hbefore).snoc (hsample _ (List.mem_singleton_self _)) hlast

theorem sumsInRange_of_finite {ledger : Ledger} {samples : List (Key × Binary64)}
    (hsamples : ∀ posted ∈ samples, posted.2.isFinite = true)
    (hfinite : ∀ row ∈ (ledger.postAll samples).2.find? key, row.mean.isFinite = true) :
    SumsInRange key ledger samples := by
  induction samples using List.reverseRecOn with
  | nil => trivial
  | append_singleton samples next ih =>
    obtain ⟨posted, sample⟩ := next
    obtain ⟨hsamples, hsample⟩ := List.forall_mem_append.mp hsamples
    have hsample : sample.isFinite = true := hsample _ (List.mem_singleton_self _)
    rw [postAll_append] at hfinite
    rw [sumsInRange_append]
    by_cases hposted : posted = key
    · subst hposted
      rw [find?_post] at hfinite
      have hmean : ∀ row ∈ (ledger.postAll samples).2.find? posted,
          (row.mean.mean sample).isFinite = true := by
        intro row hrow
        rw [Option.mem_def] at hrow
        rw [hrow] at hfinite
        exact hfinite _ rfl
      have hold : ∀ row ∈ (ledger.postAll samples).2.find? posted, row.mean.isFinite = true := by
        intro row hrow
        by_contra hnot
        have hnew := Binary64.isFinite_mean_of_not (Bool.not_eq_true _ ▸ hnot) hsample
        rw [hmean row hrow] at hnew
        cases hnew
      exact ⟨ih hsamples hold, fun _ row hrow =>
        (Binary64.isFinite_mean_iff (hold row hrow) hsample).mp (hmean row hrow)⟩
    · rw [find?_post_of_ne _ hposted] at hfinite
      exact ⟨ih hsamples hfinite, fun heq => absurd heq hposted⟩

/-- **Means keep within their data just if no sum leaves the range.** -/
theorem within_iff_sumsInRange {ledger : Ledger} {samples : List (Key × Binary64)}
    (hledger : ∀ row ∈ ledger.rows, row.mean.isFinite = true ∧ row.spread.isFinite = true)
    (hsamples : ∀ posted ∈ samples, posted.2.isFinite = true) (key : Key) :
    Within ledger samples (ledger.postAll samples).2 key ↔ SumsInRange key ledger samples := by
  refine ⟨fun h => sumsInRange_of_finite hsamples fun row hrow => ?_,
    within_of_sumsInRange hledger hsamples⟩
  rw [Option.mem_def] at hrow
  obtain ⟨i, hi⟩ := List.mem_iff_getElem?.mp (List.mem_of_find?_eq_some hrow)
  exact (h.rows i row hi (by simpa using List.find?_some hrow)).mean_finite

/-- The greatest finite number. -/
def greatest : Binary64 := .signed false ⟨infinityRank - 1, Nat.sub_le _ _⟩

def wideKey : Key := ⟨"a", "op", "1", "8"⟩

/-- Two rows of a key, of which the first has the lowest mean of all. -/
def wideLedger : Ledger := ⟨[⟨wideKey, greatest.neg, "±", greatest⟩, Row.start wideKey .zero]⟩

/-- A sample from the other end of the range, then a small one, with one for another key between. -/
def wideSamples : List (Key × Binary64) :=
  [(wideKey, greatest), (⟨"b", "op", "1", "8"⟩, greatest), (wideKey, .signed true ⟨1, by decide⟩)]

theorem within_iff_sumsInRange_wide :
    SumsInRange wideKey wideLedger wideSamples ∧
      Within wideLedger wideSamples (wideLedger.postAll wideSamples).2 wideKey := by
  have hledger : ∀ row ∈ wideLedger.rows,
      row.mean.isFinite = true ∧ row.spread.isFinite = true := by decide +kernel
  have hsamples : ∀ posted ∈ wideSamples, posted.2.isFinite = true := by decide +kernel
  have hrange : SumsInRange wideKey wideLedger wideSamples := by
    refine ⟨fun _ => ?_, fun h => absurd h (by decide), fun _ => ?_, trivial⟩ <;> decide +kernel
  exact ⟨hrange, (within_iff_sumsInRange hledger hsamples wideKey).mpr hrange⟩

/-- **A sum that leaves the range.** The mean of the greatest number and itself is infinite, and is
above all its data. -/
theorem not_within_greatest :
    greatest.isFinite = true ∧
      ((Ledger.postAll ⟨[Row.start wideKey greatest]⟩ [(wideKey, greatest)]).2.rows.map Row.mean =
        [.signed false .infinity]) ∧
      ¬ Within ⟨[Row.start wideKey greatest]⟩ [(wideKey, greatest)]
        (Ledger.postAll ⟨[Row.start wideKey greatest]⟩ [(wideKey, greatest)]).2 wideKey := by
  refine ⟨by decide +kernel, by decide +kernel, fun h => ?_⟩
  have hfinite := (h.rows 0 ((Row.start wideKey greatest).absorb greatest) rfl rfl).mean_finite
  exact absurd hfinite (by decide +kernel)

end BenchLedger.Ledger
