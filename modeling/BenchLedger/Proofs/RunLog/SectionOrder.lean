import BenchLedger.Proofs.RunLog.History
import BenchLedger.Proofs.Text.Fields

/-! # The order of the sections

A log of several parties is a preamble and sections, each with the heading of a party. What the
lines of a section state does not depend on what stands before its heading (`statements_sections`),
so the log is read as the same if sections of different parties change places, and also if a section
is split in two by a repeated heading (`read_reordered`). Two logs are read as the same if they have
the same parties and the same last text on each subject (`PartyLog.read_congr`). -/

namespace BenchLedger.RunLog

open Text

/-! ### Sections -/

/-- **A section of a party**: a heading with the label of the party, and below it lines that are no
headings and state no setting. -/
structure PartySection where
  label : String
  heading : List Char
  body : List (List Char)
  heading_marked : "===== P".toList <+: heading
  heading_label : Line.headingLabel? heading = some label
  body_plain : ∀ line ∈ body, ¬ "===== P".toList <+: line ∧ ¬ "heapsize:".toList <+: line ∧
    ¬ "is_optimized:".toList <+: line

/-- What a line in the section of a party states. -/
def statedIn? (label : String) (line : List Char) : Option Statement :=
  (metricOf? line).map fun metric => (.metric label metric, Line.firstWord line)

namespace PartySection

/-- The lines of a section. -/
def lines (part : PartySection) : List (List Char) := part.heading :: part.body

/-- What the lines of a section state. -/
def said (part : PartySection) : List Statement := part.body.filterMap (statedIn? part.label)

/-- The first part of a section, with as many of its lines, -/
def take (part : PartySection) (n : ℕ) : PartySection :=
  { part with
    body := part.body.take n
    body_plain := fun line hline => part.body_plain line (List.mem_of_mem_take hline) }

/-- and the rest, under the same heading. -/
def drop (part : PartySection) (n : ℕ) : PartySection :=
  { part with
    body := part.body.drop n
    body_plain := fun line hline => part.body_plain line (List.mem_of_mem_drop hline) }

end PartySection

/-- **The others are the same sections in another order**, in which the sections of each party
follow each other as before. -/
structure Reorders (parts others : List PartySection) : Prop where
  perm : parts.Perm others
  order : ∀ label, (parts.filter fun part => part.label = label) =
    others.filter fun part => part.label = label

theorem Reorders.swap {first second : PartySection} (h : first.label ≠ second.label)
    (before after : List PartySection) :
    Reorders (before ++ first :: second :: after) (before ++ second :: first :: after) where
  perm := (List.Perm.swap second first after).append_left before
  order label := by
    simp only [List.filter_append, List.filter_cons]
    by_cases hfirst : first.label = label
    · have hsecond : ¬ second.label = label := fun hsecond => h (hfirst.trans hsecond.symm)
      simp only [hfirst, hsecond, decide_true, decide_false, if_true, Bool.false_eq_true, if_false]
    · simp only [hfirst, decide_false, Bool.false_eq_true, if_false]

/-! ### What sections state -/

variable {ls body : List (List Char)} {line : List Char} {label : String}

theorem isHeading_of_marked (h : "===== P".toList <+: line) : isHeading line = true := by
  obtain ⟨rest, rfl⟩ := h
  exact decide_eq_true ⟨rfl, List.prefix_append _ _⟩

theorem PartySection.isHeading_heading (part : PartySection) : isHeading part.heading = true :=
  isHeading_of_marked part.heading_marked

theorem statement?_of_plain (hscope : scope? ls = some label) (hheading : isHeading line = false)
    (hsetting : settingOf? line = none) : statement? ls line = statedIn? label line := by
  rw [statement?, hsetting, hscope, hheading, statedIn?]
  cases metricOf? line <;> rfl

theorem statements_body (hscope : scope? ls = some label)
    (hbody : ∀ line ∈ body, isHeading line = false ∧ settingOf? line = none) :
    statements (ls ++ body) = statements ls ++ body.filterMap (statedIn? label) ∧
      headed (ls ++ body) = headed ls := by
  induction body generalizing ls with
  | nil =>
    rw [List.append_nil, List.filterMap_nil, List.append_nil]
    exact ⟨rfl, rfl⟩
  | cons line body ih =>
    obtain ⟨⟨hheading, hsetting⟩, hbody⟩ := List.forall_mem_cons.mp hbody
    -- The line is no heading, so the section goes on below it.
    have hnext : scope? (ls ++ [line]) = some label := by
      rw [scope?_snoc_of_not hheading, hscope]
    obtain ⟨hstatements, hheaded⟩ := ih hnext hbody
    rw [List.append_cons, hstatements, hheaded, headed_snoc_of_not hheading, statements_snoc,
      statement?_of_plain hscope hheading hsetting, List.append_assoc]
    refine ⟨congrArg (statements ls ++ ·) ?_, rfl⟩
    cases hstated : statedIn? label line <;> simp [hstated]

/-- **What a section adds to a log** does not depend on the lines before it. -/
theorem statements_section (ls : List (List Char)) (part : PartySection) :
    statements (ls ++ part.lines) = statements ls ++ part.said ∧
      headed (ls ++ part.lines) = headed ls ++ [part.label] := by
  have hheading := part.isHeading_heading
  have hscope : scope? (ls ++ [part.heading]) = some part.label := by
    rw [scope?_snoc, if_pos hheading, part.heading_label]
  have hbody : ∀ line ∈ part.body, isHeading line = false ∧ settingOf? line = none := by
    intro line hline
    obtain ⟨hmark, hheap, hoptimized⟩ := part.body_plain line hline
    exact ⟨decide_eq_false fun h => hmark h.2, by rw [settingOf?, if_neg hheap, if_neg hoptimized]⟩
  obtain ⟨hstatements, hheaded⟩ := statements_body hscope hbody
  rw [PartySection.lines, List.append_cons, hstatements, hheaded, statements_snoc,
    statement?_of_heading hheading, headed_snoc, if_pos hheading, part.heading_label,
    Option.toList_none, List.append_nil]
  exact ⟨rfl, rfl⟩

/-- **What sections add to a log.** -/
theorem statements_sections (ls : List (List Char)) (parts : List PartySection) :
    statements (ls ++ parts.flatMap PartySection.lines) =
        statements ls ++ parts.flatMap PartySection.said ∧
      headed (ls ++ parts.flatMap PartySection.lines) =
        headed ls ++ parts.map PartySection.label := by
  induction parts generalizing ls with
  | nil => simp
  | cons part parts ih =>
    obtain ⟨hstatements, hheaded⟩ := ih (ls ++ part.lines)
    obtain ⟨hpart, hlabel⟩ := statements_section ls part
    rw [List.flatMap_cons, ← List.append_assoc, hstatements, hheaded, hpart, hlabel]
    constructor
    · rw [List.flatMap_cons, List.append_assoc]
    · rw [List.map_cons, List.append_assoc, List.singleton_append]

theorem PartySection.exists_metric_of_mem_said {part : PartySection} {s : Statement}
    (h : s ∈ part.said) : ∃ metric, s.1 = .metric part.label metric := by
  obtain ⟨line, -, hline⟩ := List.mem_filterMap.mp h
  obtain ⟨metric, -, rfl⟩ := Option.map_eq_some_iff.mp hline
  exact ⟨metric, rfl⟩

theorem filter_said_metric (parts : List PartySection) (metric : Metric) :
    (parts.flatMap PartySection.said).filter (fun s => s.1 = .metric label metric) =
      ((parts.filter fun part => part.label = label).flatMap PartySection.said).filter
        fun s => s.1 = .metric label metric := by
  induction parts with
  | nil => rfl
  | cons part parts ih =>
    rw [List.flatMap_cons, List.filter_append, ih, List.filter_cons]
    by_cases hlabel : part.label = label
    · rw [if_pos (decide_eq_true hlabel), List.flatMap_cons, List.filter_append]
    · have hnone : part.said.filter (fun s => s.1 = .metric label metric) = [] := by
        refine List.filter_eq_nil_iff.mpr fun s hs heq => hlabel ?_
        obtain ⟨other, hother⟩ := PartySection.exists_metric_of_mem_said hs
        rw [hother] at heq
        exact (Subject.metric.inj (of_decide_eq_true heq)).1
      rw [if_neg (by simpa using hlabel), hnone, List.nil_append]

theorem filter_said_setting (parts : List PartySection) (what : Quantity) :
    (parts.flatMap PartySection.said).filter (fun s => s.1 = .setting what) = [] := by
  refine List.filter_eq_nil_iff.mpr fun s hs heq => ?_
  obtain ⟨part, -, hpart⟩ := List.mem_flatMap.mp hs
  obtain ⟨metric, hmetric⟩ := PartySection.exists_metric_of_mem_said hpart
  rw [hmetric] at heq
  exact Subject.noConfusion (of_decide_eq_true heq)

/-- **On each subject the same is said in the same order.** -/
theorem Reorders.filter_said {parts others : List PartySection} (h : Reorders parts others)
    (subject : Subject) :
    (parts.flatMap PartySection.said).filter (fun s => s.1 = subject) =
      (others.flatMap PartySection.said).filter fun s => s.1 = subject := by
  cases subject with
  | setting what => rw [filter_said_setting, filter_said_setting]
  | metric label metric => rw [filter_said_metric, h.order, ← filter_said_metric]

/-! ### Logs that are read as the same -/

theorem Roster.eq_map_reportOf {roster : Roster} (h : (roster.map Prod.fst).Pairwise (· < ·)) :
    roster = (roster.map Prod.fst).map fun label => (label, roster.reportOf label) := by
  rw [List.map_map]
  refine (List.map_id roster).symm.trans (List.map_congr_left fun party hparty => ?_)
  show party = (party.1, roster.reportOf party.1)
  rw [Roster.reportOf_of_mem h hparty]

theorem Report.ext_get {report other : Report}
    (h : ∀ metric, report.get metric = other.get metric) :
    report = other := by
  obtain ⟨sent, bytes, clock⟩ := report
  have hclock := h .wallClockMs
  have hsent := h .messagesSent
  have hbytes := h .messageBytesSent
  simp only [Report.get] at hclock hsent hbytes
  rw [hclock, hsent, hbytes]

theorem Roster.eq_of_reportOf {roster other : Roster}
    (hroster : (roster.map Prod.fst).Pairwise (· < ·))
    (hother : (other.map Prod.fst).Pairwise (· < ·))
    (hparties : ∀ label, label ∈ roster.map Prod.fst ↔ label ∈ other.map Prod.fst)
    (hreports : ∀ label, roster.reportOf label = other.reportOf label) : roster = other := by
  have hperm : (roster.map Prod.fst).Perm (other.map Prod.fst) :=
    (List.perm_ext_iff_of_nodup (hroster.imp ne_of_lt) (hother.imp ne_of_lt)).mpr hparties
  have hlabels := hperm.eq_of_pairwise (fun _ _ _ _ hab hba => absurd hab (lt_asymm hba))
    hroster hother
  rw [Roster.eq_map_reportOf hroster, hlabels, Roster.eq_map_reportOf hother]
  simp [hreports]

theorem option_map_ok_inj {x y : Option UInt64}
    (h : x.map (Except.ok : UInt64 → Except CountFault UInt64) = y.map .ok) : x = y :=
  Option.map_injective (fun _ _ => Except.ok.inj) h

/-- **Two scans know the same** if they have the same parties and the same last text on each
subject. -/
theorem PartyScan.Knows.congr {state after : PartyScan} {ls more : List (List Char)}
    (h : state.Knows ls) (hafter : after.Knows more)
    (hlast : ∀ subject, lastOn? subject (statements ls) = lastOn? subject (statements more))
    (hheaded : ∀ label, label ∈ headed ls ↔ label ∈ headed more) :
    state.heapsize = after.heapsize ∧ state.isOptimized = after.isOptimized ∧
      state.roster = after.roster := by
  refine ⟨option_map_ok_inj ?_, option_map_ok_inj ?_,
    Roster.eq_of_reportOf h.increasing hafter.increasing (fun label => ?_) fun label => ?_⟩
  · rw [← h.heapsize, ← hafter.heapsize, hlast]
  · rw [← h.isOptimized, ← hafter.isOptimized, hlast]
  · rw [h.parties, hafter.parties, hheaded]
  · refine Report.ext_get fun metric => option_map_ok_inj ?_
    rw [← h.reports, ← hafter.reports, hlast]

/-- **Two logs are read as the same** if they have the same first fault, the same parties and the
same last text on each subject. -/
theorem PartyLog.read_congr {text other : String}
    (hfault : firstFault? (statedBy (statements (lines text.toList))) =
      firstFault? (statedBy (statements (lines other.toList))))
    (hlast : ∀ subject, lastOn? subject (statements (lines text.toList)) =
      lastOn? subject (statements (lines other.toList)))
    (hheaded : ∀ label, label ∈ headed (lines text.toList) ↔ label ∈ headed (lines other.toList)) :
    PartyLog.read text = PartyLog.read other := by
  have hscan := comes_scan (lines text.toList)
  have hother := comes_scan (lines other.toList)
  rw [PartyLog.read_eq, PartyLog.read_eq]
  unfold Comes at hscan hother
  rw [hfault] at hscan
  cases hfirst : firstFault? (statedBy (statements (lines other.toList))) with
  | some fault =>
    rw [hfirst] at hscan hother
    rw [hscan, hother]
  | none =>
    rw [hfirst] at hscan hother
    obtain ⟨state, hstate, hknows⟩ := hscan
    obtain ⟨after, hafter, hknowsAfter⟩ := hother
    obtain ⟨hheapsize, hoptimized, hroster⟩ := hknows.congr hknowsAfter hlast hheaded
    rw [hstate, hafter]
    simp only [Except.bind, hheapsize, hoptimized, hroster]

theorem firstFault?_eq_none_iff {stated : List Stated} :
    firstFault? stated = none ↔ ∀ s ∈ stated, ∃ n, Count.read s.2 = .ok n := by
  unfold firstFault?
  rw [List.findSome?_eq_none_iff]
  refine forall₂_congr fun s _ => ?_
  cases Count.read s.2 <;> simp

theorem PartyLog.firstFault?_of_read {text : String} {log : PartyLog}
    (h : PartyLog.read text = .ok log) :
    firstFault? (statedBy (statements (lines text.toList))) = none := by
  have hscan := comes_scan (lines text.toList)
  rw [PartyLog.read_eq] at h
  unfold Comes at hscan
  cases hfirst : firstFault? (statedBy (statements (lines text.toList))) with
  | none => rfl
  | some fault =>
    rw [hfirst] at hscan
    rw [hscan] at h
    cases h

/-! ### Other orders -/

variable {text other : String} {preamble : List (List Char)} {parts others : List PartySection}

theorem PartyLog.read_of_reorders {log : PartyLog}
    (htext : HasLines text.toList (preamble ++ parts.flatMap PartySection.lines))
    (hother : HasLines other.toList (preamble ++ others.flatMap PartySection.lines))
    (h : Reorders parts others) (hread : PartyLog.read text = .ok log) :
    PartyLog.read other = .ok log := by
  -- With faults another one could come first, but there are none: the log is read.
  have hnone := PartyLog.firstFault?_of_read hread
  rw [← hread]
  symm
  obtain ⟨hparts, hheads⟩ := statements_sections preamble parts
  obtain ⟨hothers, hotherHeads⟩ := statements_sections preamble others
  have hsaid : (statedBy (statements preamble ++ parts.flatMap PartySection.said)).Perm
      (statedBy (statements preamble ++ others.flatMap PartySection.said)) :=
    ((h.perm.flatMap_right _).append_left _).map _
  apply PartyLog.read_congr
  · rw [hasLines_iff.mp htext, hparts] at hnone
    rw [hasLines_iff.mp htext, hasLines_iff.mp hother, hparts, hothers, hnone, eq_comm,
      firstFault?_eq_none_iff]
    exact fun s hs => firstFault?_eq_none_iff.mp hnone s (hsaid.mem_iff.mpr hs)
  · intro subject
    rw [hasLines_iff.mp htext, hasLines_iff.mp hother, hparts, hothers]
    unfold lastOn?
    rw [List.filter_append, List.filter_append, h.filter_said]
  · intro label
    rw [hasLines_iff.mp htext, hasLines_iff.mp hother, hheads, hotherHeads, List.mem_append,
      List.mem_append, (h.perm.map _).mem_iff]

theorem PartyLog.read_of_split {before after : List PartySection} {part : PartySection} {n : ℕ}
    (htext : HasLines text.toList
      (preamble ++ (before ++ part :: after).flatMap PartySection.lines))
    (hother : HasLines other.toList
      (preamble ++ (before ++ part.take n :: part.drop n :: after).flatMap PartySection.lines)) :
    PartyLog.read other = PartyLog.read text := by
  have hsaid : (part.take n).said ++ (part.drop n).said = part.said := by
    unfold PartySection.said PartySection.take PartySection.drop
    rw [← List.filterMap_append, List.take_append_drop]
  obtain ⟨hparts, hheads⟩ := statements_sections preamble (before ++ part :: after)
  obtain ⟨hothers, hotherHeads⟩ :=
    statements_sections preamble (before ++ part.take n :: part.drop n :: after)
  have hstatements : statements (lines other.toList) = statements (lines text.toList) := by
    rw [hasLines_iff.mp htext, hasLines_iff.mp hother, hparts, hothers]
    simp only [List.flatMap_append, List.flatMap_cons, ← hsaid, List.append_assoc]
  apply PartyLog.read_congr
  · rw [hstatements]
  · intro subject
    rw [hstatements]
  · intro label
    rw [hasLines_iff.mp htext, hasLines_iff.mp hother, hheads, hotherHeads]
    simp [PartySection.take, PartySection.drop]

/-- **The order of the sections does not matter**: a log that is read is read as the same when its
sections are in another order, in which those of each party follow each other as before. Nor does it
matter if the heading of a section is repeated anywhere within it. -/
theorem read_reordered
    (htext : HasLines text.toList (preamble ++ parts.flatMap PartySection.lines)) :
    (∀ log, PartyLog.read text = .ok log → ∀ others (other : String), Reorders parts others →
      HasLines other.toList (preamble ++ others.flatMap PartySection.lines) →
        PartyLog.read other = .ok log) ∧
    ∀ before part after, parts = before ++ part :: after → ∀ n (other : String),
      HasLines other.toList (preamble ++
        (before ++ part.take n :: part.drop n :: after).flatMap PartySection.lines) →
        PartyLog.read other = PartyLog.read text := by
  refine ⟨fun log hread others other hothers hother =>
    PartyLog.read_of_reorders htext hother hothers hread, ?_⟩
  rintro before part after rfl n other hother
  exact PartyLog.read_of_split htext hother

/-- A section of a party, with a count that a later section states anew. -/
def earlierPart : PartySection where
  label := "P0"
  heading := "===== P0 =====".toList
  body := ["4 messages sent".toList, "heap checked".toList, "70 message bytes sent".toList]
  heading_marked := by decide
  heading_label := by decide +kernel
  body_plain := by decide

/-- A later section of the same party, -/
def laterPart : PartySection where
  label := "P0"
  heading := "===== P0 once more".toList
  body := ["5 messages sent".toList]
  heading_marked := by decide
  heading_label := by decide +kernel
  body_plain := by decide

/-- and one of another party. -/
def otherPart : PartySection where
  label := "P1"
  heading := "===== P1 =====".toList
  body := ["90 message bytes sent".toList]
  heading_marked := by decide
  heading_label := by decide +kernel
  body_plain := by decide

/-- The settings of the run. -/
def settingLines : List (List Char) := ["heapsize: 8".toList, "is_optimized: 1".toList]

/-- The log with these sections. -/
def logOf (parts : List PartySection) : String :=
  String.ofList ((settingLines ++ parts.flatMap PartySection.lines).flatMap (· ++ ['\n']))

theorem hasLines_logOf (h : ∀ line ∈ settingLines ++ parts.flatMap PartySection.lines,
      '\n' ∉ line ∧ line.getLast? ≠ some '\r') :
    HasLines (logOf parts).toList (settingLines ++ parts.flatMap PartySection.lines) := by
  rw [logOf, String.toList_ofList]
  exact hasLines_flatMap h

/-- What the sections say. -/
def partyLog : PartyLog :=
  ⟨⟨8, 1⟩, [("P0", ⟨some 5, some 70, none⟩), ("P1", ⟨none, some 90, none⟩)]⟩

theorem read_reordered_twoParties :
    PartyLog.read (logOf [earlierPart, laterPart, otherPart]) = .ok partyLog ∧
      PartyLog.read (logOf [earlierPart, otherPart, laterPart]) = .ok partyLog ∧
      PartyLog.read (logOf [earlierPart.take 2, earlierPart.drop 2, laterPart, otherPart]) =
        .ok partyLog := by
  have hlines : HasLines (logOf [earlierPart, laterPart, otherPart]).toList _ :=
    hasLines_logOf (by decide +kernel)
  have hread : PartyLog.read (logOf [earlierPart, laterPart, otherPart]) = .ok partyLog := by
    rw [PartyLog.read_eq, hasLines_iff.mp hlines]
    decide +kernel
  obtain ⟨hreordered, hsplit⟩ := read_reordered hlines
  refine ⟨hread, hreordered _ hread [earlierPart, otherPart, laterPart] _
    (Reorders.swap (by decide) [earlierPart] []) (hasLines_logOf (by decide +kernel)), ?_⟩
  exact (hsplit [] earlierPart [laterPart, otherPart] rfl 2 _
    (hasLines_logOf (by decide +kernel))).trans hread

end BenchLedger.RunLog
