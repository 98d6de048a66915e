import BenchLedger.Ledger.Basic
import Mathlib.Data.List.Nodup
import Mathlib.Data.List.Induction
import Mathlib.Tactic.Common

/-! # Many samples in a row

Samples of many keys are posted one after the other, in any order. What becomes of a row depends on
the samples of its own key alone, and only the first row of a key is reached by them.

* `postAll`: the ledger after a list of samples, and what became of each.
* `samplesOf`, `newKeys`: the samples of a key, and the keys that start a row, by their first use.
* `Row.after`: a row after the samples of its key, in closed form.
* `postAll_aggregated`: the whole run, row by row. -/

namespace BenchLedger.Ledger

/-- The keys of the rows. -/
def keys (ledger : Ledger) : List Key := ledger.rows.map Row.key

/-- What became of samples posted one after the other, and the ledger after them. -/
def postAll (ledger : Ledger) : List (Key × Binary64) → List Posting × Ledger
  | [] => ([], ledger)
  | (key, sample) :: samples =>
    let first := ledger.post key sample
    let others := postAll first.2 samples
    (first.1 :: others.1, others.2)

/-- The samples of a key, in order. -/
def samplesOf (key : Key) (samples : List (Key × Binary64)) : List Binary64 :=
  (samples.filter fun posted => posted.1 = key).map Prod.snd

/-- The keys that the ledger has no row of, in the order of their first samples. -/
def newKeys (ledger : Ledger) (samples : List (Key × Binary64)) : List Key :=
  (samples.map Prod.fst).eraseDups.filter fun key => key ∉ ledger.keys

/-- **The row after more samples**: the mean is moved towards one after the other, and the spread is
the distance of the last from the final mean. -/
def Row.after (row : Row) (samples : List Binary64) : Row where
  key := row.key
  mean := samples.foldl Binary64.mean row.mean
  mark := row.mark
  spread :=
    match samples.getLast? with
    | none => row.spread
    | some last => (samples.foldl Binary64.mean row.mean).distance last

/-- **What a run of samples makes of a ledger.** -/
structure Aggregated (ledger : Ledger) (samples : List (Key × Binary64)) (postings : List Posting)
    (final : Ledger) : Prop where
  /-- The old rows keep their places, and the new ones follow by the first use of their keys. -/
  keys_eq : final.keys = ledger.keys ++ ledger.newKeys samples
  /-- The first old row of a key has met the samples of the key; the others are as before. -/
  old : ∀ i row, ledger.rows[i]? = some row → final.rows[i]? = some
    (if row.key ∈ ledger.keys.take i then row else row.after (samplesOf row.key samples))
  /-- A new row was started by the first sample of its key, and has met the others. -/
  new : ∀ i row, final.rows[ledger.rows.length + i]? = some row → ∃ first rest,
    samplesOf row.key samples = first :: rest ∧ row = (Row.start row.key first).after rest
  /-- Every sample is accounted for. -/
  length_eq : postings.length = samples.length
  /-- A sample starts a row just if its key is neither old nor used before. -/
  posting : ∀ i key sample, samples[i]? = some (key, sample) → postings[i]? = some
    (if key ∈ ledger.keys ∨ key ∈ (samples.take i).map Prod.fst then .updated else .appended)
  /-- Distinct keys stay distinct. -/
  nodup : ledger.keys.Nodup → final.keys.Nodup

/-! ### One sample -/

theorem Row.after_nil (row : Row) : row.after [] = row := rfl

theorem Row.absorb_after (row : Row) (samples : List Binary64) (sample : Binary64) :
    (row.after samples).absorb sample = row.after (samples ++ [sample]) := by
  simp [Row.after, Row.absorb]

theorem Row.key_after (row : Row) (samples : List Binary64) : (row.after samples).key = row.key :=
  rfl

theorem map_key_absorbInto (key : Key) (sample : Binary64) (rows : List Row) :
    (absorbInto key sample rows).map Row.key =
      if key ∈ rows.map Row.key then rows.map Row.key else rows.map Row.key ++ [key] := by
  induction rows with
  | nil => simp [absorbInto, Row.start]
  | cons row rows ih =>
    by_cases h : row.key = key
    · simp [absorbInto, h, Row.absorb]
    · have hne : ¬ key = row.key := fun e => h e.symm
      rw [absorbInto, if_neg h, List.map_cons, ih]
      by_cases hm : key ∈ rows.map Row.key
      · rw [if_pos hm, if_pos (by simp [hm]), List.map_cons]
      · rw [if_neg hm, if_neg (by simp [hm, hne]), List.map_cons, List.cons_append]

theorem getElem?_absorbInto (key : Key) (sample : Binary64) {rows : List Row} {i : ℕ} {row : Row}
    (h : rows[i]? = some row) :
    (absorbInto key sample rows)[i]? = some
      (if row.key = key ∧ key ∉ (rows.map Row.key).take i then row.absorb sample else row) := by
  induction rows generalizing i with
  | nil => simp at h
  | cons first rows ih =>
    cases i with
    | zero =>
      obtain rfl : first = row := by simpa using h
      by_cases hk : first.key = key <;> simp [absorbInto, hk]
    | succ i =>
      rw [List.getElem?_cons_succ] at h
      by_cases hk : first.key = key
      · simp [absorbInto, hk, h]
      · have hne : ¬ key = first.key := fun e => hk e.symm
        rw [absorbInto, if_neg hk, List.getElem?_cons_succ, ih h]
        simp [hne]

theorem getElem?_absorbInto_length {key : Key} {sample : Binary64} {rows : List Row}
    (h : key ∉ rows.map Row.key) :
    (absorbInto key sample rows)[rows.length]? = some (Row.start key sample) := by
  induction rows with
  | nil => rfl
  | cons row rows ih =>
    rw [List.map_cons, List.mem_cons, not_or] at h
    have hne : ¬ row.key = key := fun e => h.1 e.symm
    rw [absorbInto, if_neg hne, List.length_cons, List.getElem?_cons_succ, ih h.2]

theorem keys_post (ledger : Ledger) (key : Key) (sample : Binary64) :
    (ledger.post key sample).2.keys =
      if key ∈ ledger.keys then ledger.keys else ledger.keys ++ [key] :=
  map_key_absorbInto key sample ledger.rows

theorem post_fst (ledger : Ledger) (key : Key) (sample : Binary64) :
    (ledger.post key sample).1 = if key ∈ ledger.keys then .updated else .appended := by
  have hiff : (ledger.find? key).isSome ↔ key ∈ ledger.keys := by
    simp [find?, keys, List.find?_isSome]
  simp only [post, hiff]

/-! ### The samples so far and one more -/

theorem samplesOf_append (key : Key) (samples : List (Key × Binary64)) (next : Key × Binary64) :
    samplesOf key (samples ++ [next]) =
      samplesOf key samples ++ if next.1 = key then [next.2] else [] := by
  by_cases h : next.1 = key <;> simp [samplesOf, List.filter_append, h]

theorem samplesOf_eq_nil {key : Key} {samples : List (Key × Binary64)} :
    samplesOf key samples = [] ↔ key ∉ samples.map Prod.fst := by
  simp only [samplesOf, List.map_eq_nil_iff, List.filter_eq_nil_iff, decide_eq_true_eq,
    List.mem_map, not_exists, not_and]

theorem mem_newKeys {ledger : Ledger} {samples : List (Key × Binary64)} {key : Key} :
    key ∈ ledger.newKeys samples ↔ key ∈ samples.map Prod.fst ∧ key ∉ ledger.keys := by
  simp [newKeys, List.mem_filter, List.mem_eraseDups]

theorem mem_keys_append_newKeys {ledger : Ledger} {samples : List (Key × Binary64)} {key : Key} :
    key ∈ ledger.keys ++ ledger.newKeys samples ↔
      key ∈ ledger.keys ∨ key ∈ samples.map Prod.fst := by
  rw [List.mem_append, mem_newKeys]
  tauto

theorem newKeys_append (ledger : Ledger) (samples : List (Key × Binary64))
    (next : Key × Binary64) :
    ledger.newKeys (samples ++ [next]) = ledger.newKeys samples ++
      if next.1 ∈ ledger.keys ++ ledger.newKeys samples then [] else [next.1] := by
  have hremove : [next.1].removeAll (samples.map Prod.fst) =
      if next.1 ∈ samples.map Prod.fst then [] else [next.1] := by
    by_cases h : next.1 ∈ samples.map Prod.fst <;> simp [List.removeAll, h]
  rw [newKeys, List.map_append, List.eraseDups_append, List.filter_append, List.map_cons,
    List.map_nil, hremove]
  congr 1
  by_cases hk : next.1 ∈ ledger.keys
  · rw [if_pos (List.mem_append_left _ hk)]
    split_ifs <;> simp [hk]
  · by_cases hs : next.1 ∈ samples.map Prod.fst
    · rw [if_pos hs, if_pos (List.mem_append_right _ (mem_newKeys.mpr ⟨hs, hk⟩))]
      rfl
    · rw [if_neg hs, if_neg fun h => (mem_keys_append_newKeys.mp h).elim hk hs]
      simp [List.eraseDups_cons, hk]

theorem nodup_newKeys (ledger : Ledger) (samples : List (Key × Binary64)) :
    (ledger.newKeys samples).Nodup := by
  induction samples using List.reverseRecOn with
  | nil => simp [newKeys]
  | append_singleton samples next ih =>
    rw [newKeys_append]
    split_ifs with h
    · simpa using ih
    · have hn : next.1 ∉ ledger.newKeys samples := fun hm => h (List.mem_append_right _ hm)
      exact List.Nodup.append ih (List.nodup_singleton _) (by simpa using hn)

theorem postAll_append (ledger : Ledger) (samples : List (Key × Binary64)) (key : Key)
    (sample : Binary64) :
    ledger.postAll (samples ++ [(key, sample)]) =
      ((ledger.postAll samples).1 ++ [((ledger.postAll samples).2.post key sample).1],
        ((ledger.postAll samples).2.post key sample).2) := by
  induction samples generalizing ledger with
  | nil => rfl
  | cons next samples ih => simp only [List.cons_append, postAll, ih]

/-! ### The whole run -/

section Step
variable {ledger current : Ledger} {samples : List (Key × Binary64)} {postings : List Posting}
  (h : Aggregated ledger samples postings current) (key : Key) (sample : Binary64)
include h

theorem Aggregated.take_keys {i : ℕ} (hi : i ≤ ledger.rows.length) :
    current.keys.take i = ledger.keys.take i := by
  rw [h.keys_eq, List.take_append_of_le_length (by simpa [keys] using hi)]

theorem Aggregated.not_mem_take {i : ℕ} {row : Row}
    (hrow : current.rows[ledger.rows.length + i]? = some row) :
    row.key ∉ current.keys.take (ledger.rows.length + i) := by
  have hlen : ledger.keys.length = ledger.rows.length := by simp [keys]
  have hkey : (ledger.newKeys samples)[i]? = some row.key := by
    have hc : current.keys[ledger.rows.length + i]? = some row.key := by simp [keys, hrow]
    rwa [h.keys_eq, List.getElem?_append_right (by omega), hlen, Nat.add_sub_cancel_left] at hc
  obtain ⟨hi, hget⟩ := List.getElem?_eq_some_iff.mp hkey
  have hmem : row.key ∈ ledger.newKeys samples := hget ▸ List.getElem_mem hi
  rw [h.keys_eq, ← hlen, List.take_length_add_append, List.mem_append, not_or]
  refine ⟨(mem_newKeys.mp hmem).2, fun ht => ?_⟩
  obtain ⟨j, hj, hjget⟩ := List.mem_take_iff_getElem.mp ht
  have := (nodup_newKeys ledger samples).getElem_inj_iff.mp (hjget.trans hget.symm)
  omega

theorem Aggregated.old_step {i : ℕ} {row : Row} (hrow : ledger.rows[i]? = some row) :
    (current.post key sample).2.rows[i]? = some
      (if row.key ∈ ledger.keys.take i then row
        else row.after (samplesOf row.key (samples ++ [(key, sample)]))) := by
  obtain ⟨hi, -⟩ := List.getElem?_eq_some_iff.mp hrow
  have hcur := getElem?_absorbInto key sample (h.old i row hrow)
  have htake := h.take_keys (Nat.le_of_lt hi)
  unfold keys at htake
  rw [htake, ← keys] at hcur
  show (absorbInto key sample current.rows)[i]? = _
  rw [hcur, samplesOf_append]
  by_cases hm : row.key ∈ ledger.keys.take i
  · rw [if_pos hm, if_pos hm, if_neg fun hk => hk.2 (hk.1 ▸ hm)]
  · rw [if_neg hm, if_neg hm, Row.key_after]
    by_cases hk : row.key = key
    · rw [if_pos ⟨hk, hk ▸ hm⟩, if_pos hk.symm, Row.absorb_after]
    · rw [if_neg fun e => hk e.1, if_neg fun e => hk e.symm, List.append_nil]

theorem Aggregated.new_step {i : ℕ} {row : Row}
    (hrow : (current.post key sample).2.rows[ledger.rows.length + i]? = some row) :
    ∃ first rest, samplesOf row.key (samples ++ [(key, sample)]) = first :: rest ∧
      row = (Row.start row.key first).after rest := by
  change (absorbInto key sample current.rows)[ledger.rows.length + i]? = some row at hrow
  cases hcur : current.rows[ledger.rows.length + i]? with
  | some before =>
    have habs := getElem?_absorbInto key sample hcur
    obtain ⟨first, rest, hs, hbefore⟩ := h.new i before hcur
    have hnot := h.not_mem_take hcur
    rw [hrow, Option.some_inj] at habs
    by_cases hk : before.key = key
    · rw [if_pos ⟨hk, hk ▸ hnot⟩] at habs
      have hkey : row.key = before.key := by rw [habs]; rfl
      refine ⟨first, rest ++ [sample], ?_, ?_⟩
      · rw [hkey, samplesOf_append, hs, if_pos hk.symm, List.cons_append]
      · rw [hkey, ← Row.absorb_after, ← hbefore, habs]
    · rw [if_neg fun e => hk e.1] at habs
      subst habs
      exact ⟨first, rest, by rw [samplesOf_append, hs, if_neg fun e => hk e.symm, List.append_nil],
        hbefore⟩
  | none =>
    -- the row is beyond the current ones, so the sample has just started it
    have hge := List.getElem?_eq_none_iff.mp hcur
    obtain ⟨hlt, -⟩ := List.getElem?_eq_some_iff.mp hrow
    have hlen := congrArg List.length (map_key_absorbInto key sample current.rows)
    have hnew : key ∉ current.rows.map Row.key := by
      intro hm
      rw [if_pos hm] at hlen
      simp only [List.length_map] at hlen
      omega
    rw [if_neg hnew] at hlen
    simp only [List.length_map, List.length_append, List.length_singleton] at hlen
    have hplace : ledger.rows.length + i = current.rows.length := by omega
    rw [hplace, getElem?_absorbInto_length hnew, Option.some_inj] at hrow
    subst hrow
    have hnil : samplesOf key samples = [] := by
      rw [samplesOf_eq_nil]
      intro hm
      have hc : key ∈ current.keys := by
        rw [h.keys_eq]; exact mem_keys_append_newKeys.mpr (Or.inr hm)
      exact hnew hc
    exact ⟨sample, [], by simp [samplesOf_append, hnil, Row.start], rfl⟩

/-- **One more sample.** -/
theorem Aggregated.snoc :
    Aggregated ledger (samples ++ [(key, sample)]) (postings ++ [(current.post key sample).1])
      (current.post key sample).2 := by
  have hkeys : (current.post key sample).2.keys =
      ledger.keys ++ ledger.newKeys (samples ++ [(key, sample)]) := by
    rw [keys_post, newKeys_append, h.keys_eq]
    split_ifs
    · rw [List.append_nil]
    · rw [List.append_assoc]
  refine ⟨hkeys, fun i row => h.old_step key sample, fun i row => h.new_step key sample, ?_, ?_, ?_⟩
  · rw [List.length_append, List.length_append, h.length_eq]; rfl
  · intro i k y hget
    rcases Nat.lt_or_ge i samples.length with hi | hi
    · rw [List.getElem?_append_left hi] at hget
      rw [List.getElem?_append_left (by rw [h.length_eq]; exact hi), h.posting i k y hget,
        List.take_append_of_le_length (Nat.le_of_lt hi)]
    · obtain ⟨hlt, -⟩ := List.getElem?_eq_some_iff.mp hget
      rw [List.length_append, List.length_singleton] at hlt
      obtain rfl : i = samples.length := by omega
      rw [List.getElem?_concat_length, Option.some_inj, Prod.mk.injEq] at hget
      obtain ⟨rfl, rfl⟩ := hget
      rw [← h.length_eq, List.getElem?_concat_length, post_fst, h.length_eq,
        List.take_left, h.keys_eq]
      simp only [mem_keys_append_newKeys]
  · intro hnodup
    rw [hkeys]
    refine hnodup.append (nodup_newKeys _ _) fun k hk hn => (mem_newKeys.mp hn).2 hk

end Step

/-- **What a run of samples makes of a ledger**, row by row: no sample is lost, counted twice, or
counted for another key. -/
theorem postAll_aggregated (ledger : Ledger) (samples : List (Key × Binary64)) :
    Aggregated ledger samples (ledger.postAll samples).1 (ledger.postAll samples).2 := by
  induction samples using List.reverseRecOn with
  | nil =>
    refine ⟨by simp [postAll, newKeys], fun i row h => ?_, fun i row h => ?_, rfl, by simp, id⟩
    · simpa [postAll, samplesOf, Row.after_nil] using h
    · simp [postAll] at h
  | append_singleton samples next ih =>
    obtain ⟨key, sample⟩ := next
    rw [postAll_append]
    exact ih.snoc key sample

end BenchLedger.Ledger
