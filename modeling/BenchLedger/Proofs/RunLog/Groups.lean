import BenchLedger.Journal
import BenchLedger.Proofs.RunLog.DigitRuns

/-! # Records read off groups

A record is read off consecutive groups, from any of them on: one for each quantity of a block, in
the order of the log. The two lists of the quantities are read as one (`map_values_ofGroups`), and
reading a list gives the counts in its groups, or the fault of the first group that is not there or
is no count (`readGroups_eq_ok_iff`, `readGroups_eq_error_iff`). The fields of a record are in the
order of the quantities (`map_field?`). So each field holds the count in the group of its own
quantity, and a fault names the quantity of the group that it is about
(`Record.ofGroups_in_order`). -/

namespace BenchLedger.RunLog

variable {groups : Text.Groups} {first index : ℕ} {what : Quantity} {whats : List Quantity}
  {n : UInt64} {values : List UInt64} {fault : Fault} {withUsage : Bool} {record : Record}

/-! ### Single groups -/

/-- **The group at an index is there and is a count.** -/
def CountAt (groups : Text.Groups) (index : ℕ) (n : UInt64) : Prop :=
  ∃ text, groups[index]? = some (some text) ∧ IsCount text n

/-- **The fault of the group at an index**: it is not there or takes no part, or its text is no
count. -/
def FaultAt (groups : Text.Groups) (index : ℕ) (what : Quantity) (fault : Fault) : Prop :=
  match groups[index]? with
  | some (some text) =>
    (∀ n, ¬ IsCount text n) ∧ fault = .badNumber what (String.ofList text) (flaw text)
  | _ => fault = .missing what

theorem readGroup_eq_ok_iff : readGroup groups index what = .ok n ↔ CountAt groups index n := by
  unfold readGroup CountAt
  rcases groups[index]? with _ | _ | text
  · simp
  · simp
  · simp only [Option.some.injEq, exists_eq_left', ← read_iff_isCount, readQuantity]
    cases Count.read text <;> simp

theorem readGroup_eq_error_iff :
    readGroup groups index what = .error fault ↔ FaultAt groups index what fault := by
  unfold readGroup FaultAt
  rcases groups[index]? with _ | _ | text
  · simp [eq_comm]
  · simp [eq_comm]
  · by_cases hcount : ∃ n, IsCount text n
    · obtain ⟨n, hn⟩ := hcount
      constructor
      · intro h
        simp [readQuantity, read_iff_isCount.mpr hn] at h
      · exact fun h => absurd hn (h.1 n)
    · rw [not_exists] at hcount
      simp [readQuantity, read_of_not_isCount hcount, hcount, eq_comm]

theorem FaultAt.not_countAt (h : FaultAt groups index what fault) (n : UInt64) :
    ¬ CountAt groups index n := by
  intro hcount
  have hread := readGroup_eq_error_iff.mpr h
  rw [readGroup_eq_ok_iff.mpr hcount] at hread
  cases hread

/-! ### Consecutive groups -/

/-- The counts of quantities, read one after the other in the groups from `first` on. -/
def readGroups (groups : Text.Groups) : ℕ → List Quantity → Except Fault (List UInt64)
  | _, [] => return []
  | first, what :: whats => do
    let n ← readGroup groups first what
    let values ← readGroups groups (first + 1) whats
    return n :: values

/-- The groups from `first` on are these counts. -/
def CountsFrom (groups : Text.Groups) (first : ℕ) (values : List UInt64) : Prop :=
  ∀ i n, values[i]? = some n → CountAt groups (first + i) n

/-- **The first fault** in the groups of quantities from `first` on: all groups before it are
counts. -/
def FirstFaultFrom (groups : Text.Groups) (first : ℕ) (whats : List Quantity)
    (fault : Fault) : Prop :=
  ∃ i what, whats[i]? = some what ∧ FaultAt groups (first + i) what fault ∧
    ∀ j < i, ∃ n, CountAt groups (first + j) n

theorem countsFrom_cons : CountsFrom groups first (n :: values) ↔
    CountAt groups first n ∧ CountsFrom groups (first + 1) values := by
  unfold CountsFrom
  rw [← Nat.and_forall_add_one]
  simp only [List.getElem?_cons_zero, List.getElem?_cons_succ, Option.some.injEq, forall_eq',
    Nat.add_zero, Nat.add_assoc, Nat.add_comm 1]

theorem firstFaultFrom_cons : FirstFaultFrom groups first (what :: whats) fault ↔
    FaultAt groups first what fault ∨
      (∃ n, CountAt groups first n) ∧ FirstFaultFrom groups (first + 1) whats fault := by
  constructor
  · rintro ⟨i, bad, hbad, hfault, hbefore⟩
    cases i with
    | zero =>
      obtain rfl := Option.some.inj hbad
      exact Or.inl hfault
    | succ i =>
      obtain ⟨hfirst, hbefore⟩ := Nat.forall_lt_succ_left.mp hbefore
      refine Or.inr ⟨hfirst, i, bad, hbad, ?_, fun j hj => ?_⟩
      · rwa [Nat.add_right_comm]
      · rw [Nat.add_right_comm]
        exact hbefore j hj
  · rintro (hfault | ⟨hfirst, i, bad, hbad, hfault, hbefore⟩)
    · exact ⟨0, what, rfl, hfault, nofun⟩
    · refine ⟨i + 1, bad, hbad, ?_, Nat.forall_lt_succ_left.mpr ⟨hfirst, fun j hj => ?_⟩⟩
      · rwa [Nat.add_right_comm] at hfault
      · have hcount := hbefore j hj
        rwa [Nat.add_right_comm] at hcount

/-- **The counts read are those in the groups.** -/
theorem readGroups_eq_ok_iff : readGroups groups first whats = .ok values ↔
    values.length = whats.length ∧ CountsFrom groups first values := by
  induction whats generalizing first values with
  | nil =>
    rw [readGroups, List.length_nil, List.length_eq_zero_iff]
    constructor
    · rintro ⟨⟩
      exact ⟨rfl, nofun⟩
    · rintro ⟨rfl, -⟩
      rfl
  | cons what whats ih =>
    simp only [readGroups, bind_eq_ok, readGroup_eq_ok_iff, ih]
    constructor
    · rintro ⟨n, hn, values, ⟨hlength, hvalues⟩, ⟨⟩⟩
      exact ⟨congrArg Nat.succ hlength, countsFrom_cons.mpr ⟨hn, hvalues⟩⟩
    · rintro ⟨hlength, hvalues⟩
      obtain ⟨n, values, rfl⟩ := List.exists_cons_of_length_eq_add_one hlength
      obtain ⟨hn, hvalues⟩ := countsFrom_cons.mp hvalues
      exact ⟨n, hn, values, ⟨Nat.succ.inj hlength, hvalues⟩, rfl⟩

/-- **The fault reported is the first one.** -/
theorem readGroups_eq_error_iff : readGroups groups first whats = .error fault ↔
    FirstFaultFrom groups first whats fault := by
  induction whats generalizing first with
  | nil => simp [readGroups, FirstFaultFrom, pure, Except.pure]
  | cons what whats ih =>
    have hcount : (∃ n, CountAt groups first n) ↔ ∃ n, readGroup groups first what = .ok n :=
      exists_congr fun n => readGroup_eq_ok_iff.symm
    rw [firstFaultFrom_cons, ← ih, ← readGroup_eq_error_iff, hcount, readGroups]
    cases readGroup groups first what with
    | error other => simp [bind, Except.bind]
    | ok n =>
      cases readGroups groups (first + 1) whats <;> simp [bind, Except.bind, pure, Except.pure]

/-! ### Records -/

theorem map_values_usageOfGroups (groups : Text.Groups) (first : ℕ) :
    (Record.usageOfGroups groups first).map Usage.values =
      readGroups groups first [.realNs, .userNs, .systemNs, .memoryKib] := by
  show Usage.values <$> Record.usageOfGroups groups first = _
  simp only [Record.usageOfGroups, readGroups, map_bind, map_pure, bind_assoc, pure_bind,
    Usage.values]

/-- **The numbers of a record** are read as one list, those of the usage after the others. -/
theorem map_values_ofGroups (groups : Text.Groups) (first : ℕ) (withUsage : Bool) :
    (Record.ofGroups groups first withUsage).map Record.values =
      readGroups groups first (blockQuantities withUsage) := by
  show Record.values <$> Record.ofGroups groups first withUsage = _
  rw [Record.ofGroups, blockQuantities]
  simp only [List.cons_append, List.nil_append, readGroups, Nat.add_assoc, Nat.reduceAdd, map_bind,
    bind_assoc, pure_bind]
  -- Both sides have read the five counters; what is left is the usage.
  refine bind_congr fun a => bind_congr fun b => bind_congr fun c => bind_congr fun d =>
    bind_congr fun e => ?_
  cases withUsage with
  | false => rfl
  | true =>
    rw [if_pos rfl, if_pos rfl, ← map_values_usageOfGroups]
    cases Record.usageOfGroups groups (first + 5) <;> rfl

theorem values_injective : Function.Injective Record.values := by
  rintro ⟨a, b, c, d, e, used⟩ ⟨a', b', c', d', e', used'⟩ h
  rcases used with _ | ⟨real, user, system, memory⟩ <;>
    rcases used' with _ | ⟨real', user', system', memory'⟩ <;>
    simp_all [Record.values, Usage.values]

theorem ofGroups_eq_ok_iff : Record.ofGroups groups first withUsage = .ok record ↔
    record.usage.isSome = withUsage ∧ CountsFrom groups first record.values := by
  have hread : Record.ofGroups groups first withUsage = .ok record ↔
      readGroups groups first (blockQuantities withUsage) = .ok record.values := by
    rw [← map_values_ofGroups]
    cases Record.ofGroups groups first withUsage with
    | error fault => simp [Except.map]
    | ok other => simp [Except.map, values_injective.eq_iff]
  rw [hread, readGroups_eq_ok_iff, length_blockQuantities]
  refine and_congr_left fun _ => ⟨isSome_usage, ?_⟩
  rintro rfl
  exact length_values record

theorem ofGroups_eq_error_iff : Record.ofGroups groups first withUsage = .error fault ↔
    FirstFaultFrom groups first (blockQuantities withUsage) fault := by
  rw [← readGroups_eq_error_iff, ← map_values_ofGroups]
  cases Record.ofGroups groups first withUsage <;> simp [Except.map]

/-- **The field of a quantity** in a record, if it has one. -/
def Record.field? (record : Record) : Quantity → Option UInt64
  | .messagesSent => some record.messagesSent
  | .messageBytesSent => some record.messageBytesSent
  | .lamportClock => some record.lamportClock
  | .aesOperations => some record.aesOperations
  | .wallClockMs => some record.wallClockMs
  | .realNs => record.usage.map Usage.realNs
  | .userNs => record.usage.map Usage.userNs
  | .systemNs => record.usage.map Usage.systemNs
  | .memoryKib => record.usage.map Usage.memoryKib
  | .heapsize | .isOptimized => none

/-- The numbers of a record are its fields, in the order of the log. -/
theorem map_field? (record : Record) :
    (blockQuantities record.usage.isSome).map record.field? = record.values.map some := by
  obtain ⟨a, b, c, d, e, used⟩ := record
  cases used <;> rfl

theorem countsFrom_values_iff : CountsFrom groups first record.values ↔
    ∀ i what, (blockQuantities record.usage.isSome)[i]? = some what →
      ∃ n, CountAt groups (first + i) n ∧ record.field? what = some n := by
  have hfield : ∀ i : ℕ, (blockQuantities record.usage.isSome)[i]?.map record.field? =
      record.values[i]?.map some := by
    intro i
    rw [← List.getElem?_map, map_field?, List.getElem?_map]
  constructor
  · intro hvalues i what hwhat
    have hi := hfield i
    rw [hwhat, Option.map_some] at hi
    obtain ⟨n, hn, hfieldn⟩ := Option.map_eq_some_iff.mp hi.symm
    exact ⟨n, hvalues i n hn, hfieldn.symm⟩
  · intro hfields i n hn
    have hi := hfield i
    rw [hn, Option.map_some] at hi
    obtain ⟨what, hwhat, hfieldn⟩ := Option.map_eq_some_iff.mp hi
    obtain ⟨m, hm, hfieldm⟩ := hfields i what hwhat
    obtain rfl : n = m := Option.some.inj (hfieldn.symm.trans hfieldm)
    exact hm

/-- **Each field is read off its own group, and the first fault is reported.** From any group on,
the five groups of the counters, and with usage the four after them, are read in order. There is a
record just if all of them are there and are counts; the field of each quantity is then the count in
its group, and the usage is there just if it is asked for. Else the fault is that of the first group
that is not there or is no count, and names the quantity of that group. -/
theorem Record.ofGroups_in_order (groups : Text.Groups) (first : ℕ) (withUsage : Bool) :
    (∀ record, Record.ofGroups groups first withUsage = .ok record ↔
      record.usage.isSome = withUsage ∧
        ∀ i what, (blockQuantities withUsage)[i]? = some what →
          ∃ n, CountAt groups (first + i) n ∧ record.field? what = some n) ∧
    ((∃ record, Record.ofGroups groups first withUsage = .ok record) ↔
      ∀ i < 5 + (if withUsage then 4 else 0), ∃ n, CountAt groups (first + i) n) ∧
    ∀ fault, Record.ofGroups groups first withUsage = .error fault ↔
      FirstFaultFrom groups first (blockQuantities withUsage) fault := by
  have hok : ∀ record, Record.ofGroups groups first withUsage = .ok record ↔
      record.usage.isSome = withUsage ∧ ∀ i what, (blockQuantities withUsage)[i]? = some what →
        ∃ n, CountAt groups (first + i) n ∧ record.field? what = some n := by
    intro record
    rw [ofGroups_eq_ok_iff]
    refine and_congr_right ?_
    rintro rfl
    exact countsFrom_values_iff
  refine ⟨hok, ⟨?_, fun hall => ?_⟩, fun fault => ofGroups_eq_error_iff⟩
  · rintro ⟨record, hrecord⟩ i hi
    rw [← length_blockQuantities] at hi
    obtain ⟨n, hn, -⟩ := ((hok record).mp hrecord).2 i _ (List.getElem?_eq_getElem hi)
    exact ⟨n, hn⟩
  · cases houtcome : Record.ofGroups groups first withUsage with
    | ok record => exact ⟨record, rfl⟩
    | error fault =>
      obtain ⟨i, what, hwhat, hfault, -⟩ := ofGroups_eq_error_iff.mp houtcome
      obtain ⟨hi, -⟩ := List.getElem?_eq_some_iff.mp hwhat
      rw [length_blockQuantities] at hi
      obtain ⟨n, hn⟩ := hall i hi
      exact absurd hn (hfault.not_countAt n)

/-- A plus sign is no fault, the text of a whole block is no count, and past the last group there is
none, as for a group that takes no part. -/
example : let groups := ["1 messages sent", "1", "+2", "03", "4", "5"].map (some ·.toList)
    Record.ofGroups groups 1 false = .ok ⟨1, 2, 3, 4, 5, none⟩ ∧
      Record.ofGroups groups 0 true =
        .error (.badNumber .messagesSent "1 messages sent" .badDigit) ∧
      Record.ofGroups groups 1 true = .error (.missing .realNs) ∧
      Record.ofGroups (none :: groups) 0 false = .error (.missing .messagesSent) := by
  decide +kernel

end BenchLedger.RunLog
