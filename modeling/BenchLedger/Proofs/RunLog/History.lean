import BenchLedger.RunLog.Parties
import BenchLedger.Proofs.RunLog.Numbers
import BenchLedger.Proofs.Text.Marks
import Mathlib.Data.List.Infix
import Mathlib.Data.String.Basic

/-! # What the lines of a log with several parties add up to

The meaning of such a log in terms of all its lines at once. A line states a number of a setting, or
of a metric of the party whose heading was the last before it (`statement?`); what counts is the
last statement on each subject (`lastOn?`). Reading line by line comes to the same
(`PartyLog.read_history`): after each line the scan knows the history so far (`PartyScan.Knows`,
`comes_step`, `comes_scan`). -/

namespace BenchLedger.RunLog

open Text

/-! ### The history of a log -/

/-- The setting that a line states. -/
def settingOf? (line : List Char) : Option Quantity :=
  if "heapsize:".toList <+: line then some .heapsize
  else if "is_optimized:".toList <+: line then some .isOptimized
  else none

/-- The line is a heading. -/
def isHeading (line : List Char) : Bool :=
  settingOf? line = none ∧ "===== P".toList <+: line

/-- The metric that a line is about: the first whose name stands in it. -/
def metricOf? (line : List Char) : Option Metric :=
  [.wallClockMs, .messagesSent, .messageBytesSent].find? fun metric =>
    metric.quantity.label.toList <:+: line

/-- The party whose section comes after these lines: that of the last heading. -/
def scope? (before : List (List Char)) : Option String :=
  (before.filter isHeading).getLast?.bind Line.headingLabel?

/-- The parties that headings name. -/
def headed (ls : List (List Char)) : List String :=
  (ls.filter isHeading).filterMap Line.headingLabel?

/-- What a number in the log is about. -/
inductive Subject where
  | setting (what : Quantity)
  | metric (party : String) (metric : Metric)
  deriving DecidableEq, Repr

/-- The quantity that a number on the subject is. -/
def Subject.quantity : Subject → Quantity
  | .setting what => what
  | .metric _ what => what.quantity

/-- A subject and the text that states its number. -/
abbrev Statement := Subject × List Char

/-- **What a line states**, after the lines before it. -/
def statement? (before : List (List Char)) (line : List Char) : Option Statement :=
  match settingOf? line with
  | some what => some (.setting what, Line.valueAfterColon line)
  | none =>
    if isHeading line then none
    else match scope? before, metricOf? line with
      | some party, some metric => some (.metric party metric, Line.firstWord line)
      | _, _ => none

/-- The statements of a log, in order. -/
def statements (ls : List (List Char)) : List Statement :=
  ls.zipIdx.filterMap fun line => statement? (ls.take line.2) line.1

/-- The last text that was said on a subject. -/
def lastOn? (subject : Subject) (said : List Statement) : Option (List Char) :=
  (said.filter fun s => s.1 = subject).getLast?.map Prod.snd

/-- What the statements are on, and their texts. -/
def statedBy (said : List Statement) : List Stated := said.map fun s => (s.1.quantity, s.2)

/-- **What is wrong with a log**: its first statement that is no number, or else a setting that no
line states. -/
def historyFault? (ls : List (List Char)) : Option Fault :=
  match firstFault? (statedBy (statements ls)) with
  | some fault => some fault
  | none =>
    [Quantity.heapsize, .isOptimized].findSome? fun what =>
      if lastOn? (.setting what) (statements ls) = none then some (.missing what) else none

/-- The number of a metric in a report. -/
def Report.get (report : Report) : Metric → Option UInt64
  | .wallClockMs => report.wallClockMs
  | .messagesSent => report.messagesSent
  | .messageBytesSent => report.messageBytesSent

/-- **The log is what its lines add up to**: each setting is the last number stated, the parties are
those that headings name, in increasing order, and each field of a party is the last number stated
on it. -/
structure PartyLog.Recounts (log : PartyLog) (ls : List (List Char)) : Prop where
  heapsize : (lastOn? (.setting .heapsize) (statements ls)).map Count.read =
    some (.ok log.settings.heapsize)
  isOptimized : (lastOn? (.setting .isOptimized) (statements ls)).map Count.read =
    some (.ok log.settings.isOptimized)
  increasing : (log.roster.map Prod.fst).Pairwise (· < ·)
  parties : ∀ label, label ∈ log.roster.map Prod.fst ↔ label ∈ headed ls
  reports : ∀ party ∈ log.roster, ∀ metric,
    (lastOn? (.metric party.1 metric) (statements ls)).map Count.read =
      (party.2.get metric).map .ok

/-! ### Rosters -/

/-- The report of a party so far. -/
def Roster.reportOf (roster : Roster) (label : String) : Report := (roster.lookup label).getD {}

variable {roster : Roster} {label : String} {change : Report → Report}

theorem Roster.mem_update (l : String) :
    l ∈ (roster.update label change).map Prod.fst ↔ l = label ∨ l ∈ roster.map Prod.fst := by
  induction roster with
  | nil => simp [update]
  | cons party roster ih =>
    obtain ⟨first, report⟩ := party
    rw [update]
    split_ifs with hfirst hless
    · simp [hfirst]
    · simp
    · simp only [List.map_cons, List.mem_cons, ih]
      tauto

theorem Roster.increasing_update (h : (roster.map Prod.fst).Pairwise (· < ·)) :
    ((roster.update label change).map Prod.fst).Pairwise (· < ·) := by
  induction roster with
  | nil => simp [update]
  | cons party roster ih =>
    obtain ⟨first, report⟩ := party
    rw [update]
    split_ifs with hfirst hless
    · exact h
    · rw [List.map_cons] at h ⊢
      refine List.pairwise_cons.mpr ⟨fun l hl => ?_, h⟩
      rcases List.mem_cons.mp hl with rfl | hl
      · exact hless
      · exact hless.trans (List.rel_of_pairwise_cons h hl)
    · rw [List.map_cons] at h ⊢
      refine List.pairwise_cons.mpr ⟨fun l hl => ?_, ih h.of_cons⟩
      rcases (mem_update l).mp hl with rfl | hl
      · exact lt_of_le_of_ne (not_lt.mp hless) hfirst
      · exact List.rel_of_pairwise_cons h hl

theorem Roster.reportOf_cons (first : String) (report : Report) (roster : Roster) (l : String) :
    reportOf ((first, report) :: roster) l = if l = first then report else roster.reportOf l := by
  unfold reportOf
  rw [List.lookup_cons]
  by_cases hl : l = first
  · simp [hl]
  · simp [beq_false_of_ne hl, hl]

theorem Roster.reportOf_of_not_mem (h : label ∉ roster.map Prod.fst) :
    roster.reportOf label = {} := by
  induction roster with
  | nil => rfl
  | cons party roster ih =>
    rw [List.map_cons, List.mem_cons, not_or] at h
    rw [reportOf_cons, if_neg h.1]
    exact ih h.2

/-- **Only the party's report changes.** -/
theorem Roster.reportOf_update (h : (roster.map Prod.fst).Pairwise (· < ·)) (l : String) :
    (roster.update label change).reportOf l =
      if l = label then change (roster.reportOf label) else roster.reportOf l := by
  induction roster with
  | nil =>
    rw [update, reportOf_cons]
    rfl
  | cons party roster ih =>
    obtain ⟨first, report⟩ := party
    rw [update]
    by_cases hfirst : first = label
    · subst hfirst
      rw [if_pos rfl, reportOf_cons, reportOf_cons, reportOf_cons, if_pos rfl]
      split_ifs <;> rfl
    by_cases hless : label < first
    · -- The party is new, as all labels are after its own.
      have hnew : label ∉ ((first, report) :: roster).map Prod.fst := by
        intro hmem
        rcases List.mem_cons.mp hmem with heq | hmem
        · exact hfirst heq.symm
        · exact lt_asymm hless (List.rel_of_pairwise_cons h hmem)
      rw [if_neg hfirst, if_pos hless, reportOf_of_not_mem hnew, reportOf_cons]
    · rw [if_neg hfirst, if_neg hless, reportOf_cons, reportOf_cons, reportOf_cons, ih h.of_cons,
        if_neg (Ne.symm hfirst)]
      by_cases hl : l = first
      · subst hl
        rw [if_pos rfl, if_neg hfirst, if_pos rfl]
      · simp only [if_neg hl]

theorem Roster.reportOf_of_mem (h : (roster.map Prod.fst).Pairwise (· < ·))
    {party : String × Report} (hparty : party ∈ roster) :
    roster.reportOf party.1 = party.2 := by
  induction roster with
  | nil => cases hparty
  | cons first roster ih =>
    rw [reportOf_cons]
    rcases List.mem_cons.mp hparty with rfl | hparty
    · rw [if_pos rfl]
    · have hlt : first.1 < party.1 := List.rel_of_pairwise_cons h (List.mem_map_of_mem hparty)
      rw [if_neg hlt.ne', ih h.of_cons hparty]

/-! ### One more line -/

variable {ls : List (List Char)} {line : List Char}

theorem metricOf?_eq (line : List Char) : Metric.ofLine? line = metricOf? line := by
  unfold Metric.ofLine? metricOf?
  congr 1
  funext metric
  rw [Bool.eq_iff_iff, contains_iff_infix, decide_eq_true_iff]

/-- **What a line is**, said without reference to how it is read. -/
theorem ofText_eq (line : List Char) : Line.ofText line =
    match settingOf? line with
    | some what => .setting what (Line.valueAfterColon line)
    | none =>
      if isHeading line then .heading (Line.headingLabel? line)
      else match metricOf? line with
        | some metric => .reading metric (Line.firstWord line)
        | none => .other := by
  have hmark : ∀ mark : String, ((after? mark.toList line).isSome = true) =
      (mark.toList <+: line) := by
    intro mark
    rw [isSome_after?, List.isPrefixOf_iff_prefix]
  unfold Line.ofText
  simp only [hmark, metricOf?_eq]
  by_cases hheap : "heapsize:".toList <+: line
  · have hsetting : settingOf? line = some .heapsize := if_pos hheap
    simp only [if_pos hheap, hsetting]
  by_cases hoptimized : "is_optimized:".toList <+: line
  · have hsetting : settingOf? line = some .isOptimized := by
      rw [settingOf?, if_neg hheap, if_pos hoptimized]
    simp only [if_neg hheap, if_pos hoptimized, hsetting]
  have hsetting : settingOf? line = none := by
    rw [settingOf?, if_neg hheap, if_neg hoptimized]
  by_cases hmark : "===== P".toList <+: line
  · have hheading : isHeading line = true := decide_eq_true ⟨hsetting, hmark⟩
    simp only [if_neg hheap, if_neg hoptimized, if_pos hmark, hsetting, if_pos hheading]
  · have hheading : ¬ isHeading line = true := fun h => hmark (of_decide_eq_true h).2
    cases hmetric : metricOf? line <;>
      simp only [if_neg hheap, if_neg hoptimized, if_neg hmark, hsetting, if_neg hheading]

theorem statements_snoc (ls : List (List Char)) (line : List Char) :
    statements (ls ++ [line]) = statements ls ++ (statement? ls line).toList := by
  unfold statements
  rw [List.zipIdx_append, List.filterMap_append]
  congr 1
  · refine List.filterMap_congr fun earlier hearlier => ?_
    have hlt := List.snd_lt_of_mem_zipIdx hearlier
    rw [List.take_append_of_le_length (by omega)]
  · cases h : statement? ls line <;> simp [h]

theorem scope?_snoc (ls : List (List Char)) (line : List Char) :
    scope? (ls ++ [line]) = if isHeading line then Line.headingLabel? line else scope? ls := by
  unfold scope?
  rw [List.filter_append]
  split_ifs with h
  · simp [h]
  · simp [h]

theorem headed_snoc (ls : List (List Char)) (line : List Char) :
    headed (ls ++ [line]) =
      headed ls ++ if isHeading line then (Line.headingLabel? line).toList else [] := by
  unfold headed
  rw [List.filter_append, List.filterMap_append]
  split_ifs with h
  · cases hlabel : Line.headingLabel? line <;> simp [h, hlabel]
  · simp [h]

theorem scope?_snoc_of_not (h : isHeading line = false) : scope? (ls ++ [line]) = scope? ls := by
  rw [scope?_snoc, h, if_neg Bool.false_ne_true]

theorem headed_snoc_of_not (h : isHeading line = false) : headed (ls ++ [line]) = headed ls := by
  rw [headed_snoc, h, if_neg Bool.false_ne_true, List.append_nil]

theorem lastOn?_snoc (subject : Subject) (said : List Statement) (s : Statement) :
    lastOn? subject (said ++ [s]) = if s.1 = subject then some s.2 else lastOn? subject said := by
  unfold lastOn?
  rw [List.filter_append]
  split_ifs with h
  · simp [h]
  · simp [h]

/-- **What the scan knows** after some lines. -/
structure PartyScan.Knows (state : PartyScan) (ls : List (List Char)) : Prop where
  scope : state.scope = scope? ls
  heapsize : (lastOn? (.setting .heapsize) (statements ls)).map Count.read =
    state.heapsize.map .ok
  isOptimized : (lastOn? (.setting .isOptimized) (statements ls)).map Count.read =
    state.isOptimized.map .ok
  increasing : (state.roster.map Prod.fst).Pairwise (· < ·)
  parties : ∀ label, label ∈ state.roster.map Prod.fst ↔ label ∈ headed ls
  reports : ∀ label metric,
    (lastOn? (.metric label metric) (statements ls)).map Count.read =
      ((state.roster.reportOf label).get metric).map .ok

variable {state : PartyScan}

theorem knows_nil : ({} : PartyScan).Knows [] where
  scope := rfl
  heapsize := rfl
  isOptimized := rfl
  increasing := .nil
  parties := by simp [headed]
  reports := fun label metric => by cases metric <;> rfl

theorem PartyScan.Knows.mem_of_scope (h : state.Knows ls) (hscope : state.scope = some label) :
    label ∈ state.roster.map Prod.fst := by
  rw [h.scope] at hscope
  obtain ⟨heading, hlast, hlabel⟩ := Option.bind_eq_some_iff.mp hscope
  exact (h.parties label).mpr
    (List.mem_filterMap.mpr ⟨heading, List.mem_of_getLast? hlast, hlabel⟩)

theorem PartyScan.Knows.silent (h : state.Knows ls) (hheading : isHeading line = false)
    (hsaid : statement? ls line = none) : state.Knows (ls ++ [line]) := by
  have hstatements : statements (ls ++ [line]) = statements ls := by
    rw [statements_snoc, hsaid, Option.toList_none, List.append_nil]
  refine ⟨?_, ?_, ?_, h.increasing, fun label => ?_, fun label metric => ?_⟩
  · rw [scope?_snoc_of_not hheading, h.scope]
  · rw [hstatements, h.heapsize]
  · rw [hstatements, h.isOptimized]
  · rw [headed_snoc_of_not hheading, h.parties]
  · rw [hstatements, h.reports]

theorem statement?_of_heading (hheading : isHeading line = true) (before : List (List Char)) :
    statement? before line = none := by
  have hsetting : settingOf? line = none := (of_decide_eq_true hheading).1
  rw [statement?, hsetting]
  exact if_pos hheading

theorem PartyScan.Knows.heading (h : state.Knows ls) (hheading : isHeading line = true) :
    Comes (state.step (.heading (Line.headingLabel? line))).outcome []
      (·.Knows (ls ++ [line])) := by
  have hstatements : statements (ls ++ [line]) = statements ls := by
    rw [statements_snoc, statement?_of_heading hheading, Option.toList_none, List.append_nil]
  have hscope : scope? (ls ++ [line]) = Line.headingLabel? line := by
    rw [scope?_snoc, if_pos hheading]
  have hheaded : headed (ls ++ [line]) = headed ls ++ (Line.headingLabel? line).toList := by
    rw [headed_snoc, if_pos hheading]
  rw [← hscope] at hheaded ⊢
  cases hlabel : scope? (ls ++ [line]) with
  | none =>
    refine .nil ⟨hlabel.symm, ?_, ?_, h.increasing, fun label => ?_, fun label metric => ?_⟩
    · rw [hstatements, h.heapsize]
    · rw [hstatements, h.isOptimized]
    · rw [hheaded, hlabel, Option.toList_none, List.append_nil]
      exact h.parties label
    · rw [hstatements, h.reports]
  | some party =>
    refine .nil ⟨hlabel.symm, ?_, ?_, Roster.increasing_update h.increasing, fun label => ?_,
      fun label metric => ?_⟩
    · rw [hstatements, h.heapsize]
    · rw [hstatements, h.isOptimized]
    · rw [hheaded, hlabel, Roster.mem_update, h.parties label, List.mem_append, or_comm]
      simp
    · rw [hstatements, h.reports, Roster.reportOf_update h.increasing]
      split_ifs with heq
      · rw [heq, id]
      · rfl

theorem settingOf?_eq_some {what : Quantity} (h : settingOf? line = some what) :
    what = .heapsize ∨ what = .isOptimized := by
  unfold settingOf? at h
  split_ifs at h
  · exact Or.inl (Option.some.inj h).symm
  · exact Or.inr (Option.some.inj h).symm

theorem PartyScan.Knows.setting (h : state.Knows ls) {what : Quantity}
    (hwhat : settingOf? line = some what) {n : UInt64}
    (hread : Count.read (Line.valueAfterColon line) = .ok n) :
    (if what = Quantity.heapsize then { state with heapsize := some n }
      else { state with isOptimized := some n }).Knows (ls ++ [line]) := by
  have hheading : isHeading line = false := by simp [isHeading, hwhat]
  have hstatements : statements (ls ++ [line]) =
      statements ls ++ [(.setting what, Line.valueAfterColon line)] := by
    rw [statements_snoc, statement?, hwhat]
    rfl
  have hscope : state.scope = scope? (ls ++ [line]) := by
    rw [scope?_snoc_of_not hheading, h.scope]
  have hparties : ∀ label, label ∈ state.roster.map Prod.fst ↔ label ∈ headed (ls ++ [line]) := by
    rw [headed_snoc_of_not hheading]
    exact h.parties
  have hreports : ∀ label metric,
      (lastOn? (.metric label metric) (statements (ls ++ [line]))).map Count.read =
        ((state.roster.reportOf label).get metric).map .ok := by
    intro label metric
    rw [hstatements, lastOn?_snoc, if_neg Subject.noConfusion, h.reports]
  rcases settingOf?_eq_some hwhat with rfl | rfl
  · refine ⟨hscope, ?_, ?_, h.increasing, hparties, hreports⟩
    · rw [hstatements, lastOn?_snoc, if_pos rfl, Option.map_some, hread]
      rfl
    · rw [hstatements, lastOn?_snoc, if_neg (by simp), h.isOptimized]
      rfl
  · refine ⟨hscope, ?_, ?_, h.increasing, hparties, hreports⟩
    · rw [hstatements, lastOn?_snoc, if_neg (by simp), h.heapsize]
      rfl
    · rw [hstatements, lastOn?_snoc, if_pos rfl, Option.map_some, hread]
      rfl

theorem Report.get_set (report : Report) (n : UInt64) (metric other : Metric) :
    (report.set n metric).get other = if metric = other then some n else report.get other := by
  cases metric <;> cases other <;> rfl

theorem PartyScan.Knows.reading (h : state.Knows ls) (hheading : isHeading line = false)
    (hlabel : state.scope = some label) {metric : Metric} {text : List Char} {n : UInt64}
    (hsaid : statement? ls line = some (.metric label metric, text))
    (hread : Count.read text = .ok n) :
    ({ state with roster := state.roster.update label (·.set n metric) } : PartyScan).Knows
      (ls ++ [line]) := by
  have hstatements : statements (ls ++ [line]) =
      statements ls ++ [(.metric label metric, text)] := by
    rw [statements_snoc, hsaid, Option.toList_some]
  refine ⟨?_, ?_, ?_, Roster.increasing_update h.increasing, fun l => ?_, fun l other => ?_⟩
  · rw [scope?_snoc_of_not hheading, h.scope]
  · rw [hstatements, lastOn?_snoc, if_neg Subject.noConfusion, h.heapsize]
  · rw [hstatements, lastOn?_snoc, if_neg Subject.noConfusion, h.isOptimized]
  · rw [headed_snoc_of_not hheading, Roster.mem_update]
    refine Iff.trans (or_iff_right_of_imp ?_) (h.parties l)
    rintro rfl
    exact h.mem_of_scope hlabel
  · rw [hstatements, lastOn?_snoc, Roster.reportOf_update h.increasing]
    by_cases hl : l = label
    · subst hl
      rw [if_pos rfl, Report.get_set]
      by_cases hmetric : metric = other
      · rw [if_pos (congrArg _ hmetric), if_pos hmetric, Option.map_some, hread]
        rfl
      · rw [if_neg (fun heq => hmetric (Subject.metric.inj heq).2), if_neg hmetric, h.reports]
    · rw [if_neg (fun heq => hl (Subject.metric.inj heq).1.symm), if_neg hl, h.reports]

/-- **One more line**: what it states is read, and the scan knows one line more. -/
theorem comes_step (h : state.Knows ls) (line : List Char) :
    Comes (state.step (.ofText line)).outcome (statedBy (statement? ls line).toList)
      (·.Knows (ls ++ [line])) := by
  rw [ofText_eq]
  cases hwhat : settingOf? line with
  | some what =>
    have hsaid : statement? ls line = some (.setting what, Line.valueAfterColon line) := by
      rw [statement?, hwhat]
    have hstep : (state.step (.setting what (Line.valueAfterColon line))).outcome =
        (readQuantity what (Line.valueAfterColon line)).bind fun n =>
          .ok (if what = .heapsize then { state with heapsize := some n }
            else { state with isOptimized := some n }) := by
      rw [PartyScan.step, Journaled.outcome_bind]
      rfl
    rw [hsaid, hstep]
    exact Comes.cons fun n hread => .nil (h.setting hwhat hread)
  | none =>
    dsimp only
    by_cases hheading : isHeading line = true
    · rw [if_pos hheading, statement?_of_heading hheading]
      exact h.heading hheading
    rw [if_neg hheading]
    rw [Bool.not_eq_true] at hheading
    have hsaid : statement? ls line = match state.scope, metricOf? line with
        | some party, some metric => some (.metric party metric, Line.firstWord line)
        | _, _ => none := by
      rw [statement?, hwhat, hheading, h.scope]
      rfl
    cases hmetric : metricOf? line with
    | none =>
      have hnone : statement? ls line = none := by
        rw [hsaid, hmetric]
        cases state.scope <;> rfl
      rw [hnone]
      exact .nil (h.silent hheading hnone)
    | some metric =>
      cases hlabel : state.scope with
      | none =>
        rw [hlabel] at hsaid
        have hstep : state.step (.reading metric (Line.firstWord line)) = pure state := by
          simp only [PartyScan.step, hlabel]
        rw [hsaid, hstep]
        exact .nil (h.silent hheading hsaid)
      | some label =>
        rw [hlabel, hmetric] at hsaid
        have hstep : (state.step (.reading metric (Line.firstWord line))).outcome =
            (readQuantity metric.quantity (Line.firstWord line)).bind fun n =>
              .ok { state with roster := state.roster.update label (·.set n metric) } := by
          simp only [PartyScan.step, hlabel]
          rw [Journaled.outcome_bind]
          rfl
        rw [hsaid, hstep]
        exact Comes.cons fun n hread => .nil (h.reading hheading hlabel hsaid hread)

/-- **All lines**: the outcomes one after the other, and the scan knows them all. -/
theorem comes_scan (ls : List (List Char)) :
    Comes (ls.foldlM (fun (state : PartyScan) line => state.step (.ofText line)) {}).outcome
      (statedBy (statements ls)) (PartyScan.Knows · ls) := by
  rw [Journaled.outcome_foldlM]
  induction ls using List.reverseRecOn with
  | nil => exact .nil knows_nil
  | append_singleton ls line ih =>
    -- The last line is read after the scan of all lines before it.
    rw [List.foldlM_append, statements_snoc, statedBy, List.map_append]
    refine ih.bind fun state hstate => ?_
    rw [List.foldlM_cons]
    simp only [List.foldlM_nil, bind_pure]
    exact comes_step hstate line

/-! ### The whole log -/

theorem missing_iff {said : Option (List Char)} {found : Option UInt64}
    (h : said.map Count.read = found.map .ok) : said = none ↔ found = none := by
  rw [← Option.map_eq_none_iff, h, Option.map_eq_none_iff]

theorem PartyLog.read_eq (text : String) : PartyLog.read text =
    ((lines text.toList).foldlM (fun (state : PartyScan) line => state.step (.ofText line))
      {}).outcome.bind fun state =>
        (PartyScan.required .heapsize state.heapsize).bind fun heapsize =>
          (PartyScan.required .isOptimized state.isOptimized).bind fun isOptimized =>
            .ok ⟨⟨heapsize, isOptimized⟩, state.roster⟩ := by
  unfold PartyLog.read PartyLog.journaled
  simp only [Journaled.outcome_bind]
  rfl

/-- **A log of several parties says what its lines add up to**, or its first fault is reported. -/
theorem PartyLog.read_history (text : String) :
    match historyFault? (lines text.toList) with
    | some fault => PartyLog.read text = .error fault
    | none => ∃ log, PartyLog.read text = .ok log ∧ log.Recounts (lines text.toList) := by
  have hscan := comes_scan (lines text.toList)
  rw [PartyLog.read_eq]
  generalize lines text.toList = ls at hscan ⊢
  unfold historyFault?
  unfold Comes at hscan
  cases hfault : firstFault? (statedBy (statements ls)) with
  | some fault =>
    rw [hfault] at hscan
    rw [hscan]
    rfl
  | none =>
    rw [hfault] at hscan
    obtain ⟨state, hstate, hknows⟩ := hscan
    rw [hstate]
    simp only [List.findSome?_cons, missing_iff hknows.heapsize, missing_iff hknows.isOptimized,
      List.findSome?_nil]
    cases hheapsize : state.heapsize with
    | none => simp only [if_true, Except.bind, hheapsize, PartyScan.required]
    | some heapsize =>
      cases hoptimized : state.isOptimized with
      | none => simp [Except.bind, hheapsize, hoptimized, PartyScan.required]
      | some isOptimized =>
        simp only [reduceCtorEq, if_false, Except.bind, hheapsize, hoptimized, PartyScan.required]
        refine ⟨_, rfl, ?_, ?_, hknows.increasing, hknows.parties, fun party hparty metric => ?_⟩
        · rw [hknows.heapsize, hheapsize, Option.map_some]
        · rw [hknows.isOptimized, hoptimized, Option.map_some]
        · rw [hknows.reports, Roster.reportOf_of_mem hknows.increasing hparty]

example : statements (lines
    "heapsize: 4\n===== P0 =====\n3 messages sent\n===== Peak =====\n9 messages sent".toList) =
    [(.setting .heapsize, "4".toList), (.metric "P0" .messagesSent, "3".toList)] := by
  decide +kernel

end BenchLedger.RunLog
