import BenchLedger.Proofs.RunLog.Joined
import BenchLedger.RunLog.Parties

/-! # The worst numbers

The greatest value of a field is taken by some item and exceeded by none (`greatest_eq_some_iff`),
so it depends on the items alone, in whatever order they are (`greatest_congr`), and that of two
lists is the greater of theirs (`greatest_append`). Where no party reported a field, zero stands for
it (`peak_getD`).

So the worst numbers of trials and of parties are the true maxima, each for itself, however the
items are ordered and repeated (`worst_peaks`). -/

namespace BenchLedger.RunLog

/-! ### The greatest value -/

section Greatest

variable {α β : Type} [LE β] {field : α → Option β} {items : List α} {value : β}

/-- **The top of a field**: some item has the value, and none has a greater one. -/
structure Top (field : α → Option β) (items : List α) (value : β) : Prop where
  reached : ∃ item ∈ items, field item = some value
  bound : ∀ item ∈ items, ∀ other, field item = some other → other ≤ value

variable [Max β] [Std.IsLinearOrder β] [Std.LawfulOrderMax β]

omit [LE β] [Std.IsLinearOrder β] [Std.LawfulOrderMax β] in
theorem greatest_eq_none_iff :
    greatest field items = none ↔ ∀ item ∈ items, field item = none := by
  rw [greatest, List.max?_eq_none_iff, List.filterMap_eq_nil_iff]

theorem greatest_eq_some_iff : greatest field items = some value ↔ Top field items value := by
  rw [greatest, List.max?_eq_some_iff, List.mem_filterMap]
  constructor
  · rintro ⟨hreached, hbound⟩
    exact ⟨hreached, fun item hitem other hother =>
      hbound other (List.mem_filterMap.mpr ⟨item, hitem, hother⟩)⟩
  · rintro ⟨hreached, hbound⟩
    refine ⟨hreached, fun other hmem => ?_⟩
    obtain ⟨item, hitem, hother⟩ := List.mem_filterMap.mp hmem
    exact hbound item hitem other hother

/-- **The greatest value depends on the items alone**, not on their order nor on how often they
occur. -/
theorem greatest_congr {items' : List α} (h : ∀ item, item ∈ items ↔ item ∈ items') :
    greatest field items = greatest field items' := by
  cases hitems : greatest field items' with
  | none =>
    rw [greatest_eq_none_iff] at hitems ⊢
    exact fun item hitem => hitems item ((h item).mp hitem)
  | some value =>
    obtain ⟨⟨item, hitem, hvalue⟩, hbound⟩ := greatest_eq_some_iff.mp hitems
    exact greatest_eq_some_iff.mpr ⟨⟨item, (h item).mpr hitem, hvalue⟩,
      fun other hother => hbound other ((h other).mp hother)⟩

/-- **The greatest value of two lists** is the greater of theirs, or that of one if the other has
none. -/
theorem greatest_append (field : α → Option β) (items items' : List α) :
    greatest field (items ++ items') =
      Option.merge max (greatest field items) (greatest field items') := by
  unfold greatest
  rw [List.filterMap_append]
  cases hitems : (items.filterMap field).max? with
  | none => rw [List.max?_eq_none_iff.mp hitems, List.nil_append, Option.merge_none_left]
  | some value =>
    cases hitems' : (items'.filterMap field).max? with
    | none =>
      rw [List.max?_eq_none_iff.mp hitems', List.append_nil, hitems, Option.merge_none_right]
    | some value' => exact max?_append hitems hitems'

end Greatest

/-! ### Zero where there is no value -/

section Peak

variable {α : Type} {field : α → Option UInt64} {items : List α}

/-- **The peak of a field**: the top of it if some item has the field, and zero just if none has or
all that do have zero. -/
structure Peak (field : α → Option UInt64) (items : List α) (value : UInt64) : Prop where
  top : (∃ item ∈ items, field item ≠ none) → Top field items value
  eq_zero_iff : value = 0 ↔ ∀ item ∈ items, field item = none ∨ field item = some 0

theorem peak_getD (field : α → Option UInt64) (items : List α) :
    Peak field items ((greatest field items).getD 0) := by
  cases hgreatest : greatest field items with
  | none =>
    have hnone := greatest_eq_none_iff.mp hgreatest
    refine ⟨fun ⟨item, hitem, hsome⟩ => absurd (hnone item hitem) hsome, ?_⟩
    exact ⟨fun _ item hitem => Or.inl (hnone item hitem), fun _ => rfl⟩
  | some value =>
    have htop := greatest_eq_some_iff.mp hgreatest
    refine ⟨fun _ => htop, fun hzero item hitem => ?_, fun hall => ?_⟩
    · obtain rfl : value = 0 := hzero
      cases hvalue : field item with
      | none => exact Or.inl rfl
      | some other =>
        have hle := htop.bound item hitem other hvalue
        exact Or.inr (congrArg some (UInt64.le_zero_iff.mp hle))
    · obtain ⟨item, hitem, hvalue⟩ := htop.reached
      rcases hall item hitem with hnone | hzero
      · rw [hvalue] at hnone
        cases hnone
      · exact Option.some.inj (hvalue.symm.trans hzero)

end Peak

/-! ### Trials and parties -/

theorem worst_eq_ok_iff {records : List Record} {worst : Trials.Worst} :
    Trials.worst records = .ok worst ↔
      Top (fun r => some r.messageBytesSent) records worst.messageBytesSent ∧
        Top (fun r => some r.wallClockMs) records worst.wallClockMs := by
  rw [worst_eq_ok, greatest_eq_some_iff, greatest_eq_some_iff]

theorem worst_eq_error_iff {records : List Record} {fault : Fault} :
    Trials.worst records = .error fault ↔ records = [] ∧ fault = .noTrials := by
  constructor
  · intro h
    obtain rfl : records = [] := by
      by_contra hne
      obtain ⟨worst, hworst⟩ := exists_worst hne
      rw [hworst] at h
      cases h
    exact ⟨rfl, (Except.error.inj h).symm⟩
  · rintro ⟨rfl, rfl⟩
    rfl

theorem worst_congr {records records' : List Record} (h : ∀ r, r ∈ records ↔ r ∈ records') :
    Trials.worst records = Trials.worst records' := by
  have hgreatest : ∀ field : Record → Option UInt64,
      greatest field records = greatest field records' := fun _ => greatest_congr h
  unfold Trials.worst
  rw [hgreatest, hgreatest]

/-- What the parties reported, without their labels. -/
def PartyLog.reports (log : PartyLog) : List Report := log.roster.map Prod.snd

theorem PartyLog.worst_eq (log : PartyLog) : log.worst =
    ⟨(greatest Report.wallClockMs log.reports).getD 0,
      (greatest Report.messageBytesSent log.reports).getD 0⟩ := by
  unfold PartyLog.worst PartyLog.reports greatest
  rw [List.filterMap_map, List.filterMap_map]
  rfl

theorem PartyLog.worst_congr {log log' : PartyLog}
    (h : ∀ report, report ∈ log.reports ↔ report ∈ log'.reports) : log.worst = log'.worst := by
  have hgreatest : ∀ field : Report → Option UInt64,
      greatest field log.reports = greatest field log'.reports := fun _ => greatest_congr h
  rw [worst_eq, worst_eq, hgreatest, hgreatest]

/-- **The worst numbers are the true maxima.** Those of some trials are missing just if there are no
trials, and else each is the top of its field. Those of the parties of a log are the tops of their
fields among the parties that reported them, and zero just if none did or all reported zero. Neither
depends on the order of the items or on how often each occurs. The greatest value of two lists is
the greater of theirs, where one without a value has no part in it. -/
theorem worst_peaks {α β : Type} [LE β] [Max β] [Std.IsLinearOrder β] [Std.LawfulOrderMax β] :
    (∀ records fault, Trials.worst records = .error fault ↔ records = [] ∧ fault = .noTrials) ∧
    (∀ records worst, Trials.worst records = .ok worst ↔
      Top (fun r => some r.messageBytesSent) records worst.messageBytesSent ∧
        Top (fun r => some r.wallClockMs) records worst.wallClockMs) ∧
    (∀ log : PartyLog, Peak Report.wallClockMs log.reports log.worst.wallClockMs ∧
      Peak Report.messageBytesSent log.reports log.worst.messageBytesSent) ∧
    (∀ records records', (∀ r, r ∈ records ↔ r ∈ records') →
      Trials.worst records = Trials.worst records') ∧
    (∀ log log' : PartyLog, (∀ report, report ∈ log.reports ↔ report ∈ log'.reports) →
      log.worst = log'.worst) ∧
    ∀ (field : α → Option β) (items items' : List α), greatest field (items ++ items') =
      Option.merge max (greatest field items) (greatest field items') := by
  refine ⟨fun _ _ => worst_eq_error_iff, fun _ _ => worst_eq_ok_iff, fun log => ?_,
    fun _ _ => worst_congr, fun _ _ => PartyLog.worst_congr, greatest_append⟩
  rw [PartyLog.worst_eq]
  exact ⟨peak_getD _ _, peak_getD _ _⟩

/-- A trial of great volume, and one that took long. -/
def largeTrial : Record := ⟨4, 500, 2, 16, 10, none⟩

def longTrial : Record := ⟨4, 100, 2, 16, 90, none⟩

/-- A log of parties of which no two reported the same. -/
def unevenLog : PartyLog :=
  ⟨⟨256, 0⟩, [("P0", { wallClockMs := some 120 }), ("P1", { messageBytesSent := some 700 })]⟩

theorem worst_peaks_unevenLog :
    Trials.worst [longTrial, largeTrial, longTrial] = Trials.worst [largeTrial, longTrial] ∧
      PartyLog.worst ⟨⟨8, 1⟩, ("P7", { messageBytesSent := some 700 }) ::
        unevenLog.roster.reverse⟩ =
        unevenLog.worst ∧
      greatest id ([none, some 3] ++ [some 5]) = some (5 : UInt64) := by
  obtain ⟨-, -, -, htrials, hparties, happend⟩ := worst_peaks (α := Option UInt64) (β := UInt64)
  refine ⟨htrials _ _ fun record => ?_, hparties _ _ fun report => ?_, happend _ _ _⟩
  · simp only [List.mem_cons, List.not_mem_nil, or_false]
    rw [or_left_comm, or_self]
  · show report ∈ [_, _, _] ↔ report ∈ [_, _]
    simp only [List.mem_cons, List.not_mem_nil, or_false]
    rw [or_self_left, or_comm]

end BenchLedger.RunLog
