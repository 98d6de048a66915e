import BenchLedger.Proofs.RunLog.RunText
import BenchLedger.Proofs.RunLog.Sections
import BenchLedger.Proofs.Text.Quiet

/-! # Written logs are read back

A text of several logs is read as the profile of all its runs and as the heap log of the first
(`read_written`). No layout that is looked for fits in a part with another layout (`setApart`), so
a scan comes to the section of each run in turn, and what is looked for only once is found in the
first. -/

namespace BenchLedger.RunLog

open Text Template

variable {template : Template} {text rest : List Char} {numbers : List (List Char)}

/-! ### What is looked for stands nowhere else -/

/-- Around the section of an operation there is no other of its kind, and no heading before it. -/
def SetApart (announced : Bool) (operation : Operation) : Prop :=
  (Profile.entry operation).Quiet (Run.beforeLayout announced operation) ∧
    (Profile.entry operation).Quiet (Run.afterLayout operation) ∧
    (Profile.entry operation).Quiet [.literal "\n".toList] ∧
    Quiet [.literal operation.heading] (Run.beforeLayout announced operation)

instance (announced : Bool) (operation : Operation) : Decidable (SetApart announced operation) := by
  unfold SetApart; infer_instance

theorem setApart (announced : Bool) (operation : Operation) : SetApart announced operation := by
  have hall : ∀ announced, SetApart announced .insert ∧ SetApart announced .extractMin := by
    decide +kernel
  cases operation
  · exact (hall announced).1
  · exact (hall announced).2

theorem quiet_lines :
    (∀ announced, Settings.heapsizeTemplate.Quiet (Run.announcementLayout announced) ∧
      Settings.isOptimizedTemplate.Quiet (Run.heapsizeLayout announced)) ∧
    Quiet [.literal emptyLine] (counters ++ usage) ∧ counters.Quiet usage := by
  decide +kernel

/-! ### The profile of all runs -/

theorem Measured.ofOccurrence_full {m : Measured} {o : Occurrence} (h : o.numbers = m.runs) :
    Record.ofOccurrence true o = .ok m.full := by
  have hgroups : o.groups = (o.covered :: (m.counterRuns ++ m.usage.runs)).map some := by
    rw [Occurrence.groups, h]
    rfl
  unfold Record.ofOccurrence Record.ofGroups Record.usageOfGroups
  rw [hgroups]
  simp only [readGroup, counterRuns, Usage.runs, Usage.values, List.map_cons, List.map_nil,
    List.cons_append, List.nil_append, List.getElem?_cons_succ, List.getElem?_cons_zero,
    readQuantity_text]
  rfl

theorem Measured.ofOccurrence_short {m : Measured} {o : Occurrence}
    (h : o.numbers = m.counterRuns) :
    Record.ofOccurrence false o = .ok m.short := by
  have hgroups : o.groups = (o.covered :: m.counterRuns).map some := by
    rw [Occurrence.groups, h]
  unfold Record.ofOccurrence Record.ofGroups
  rw [hgroups]
  simp only [readGroup, counterRuns, List.map_cons, List.map_nil, List.getElem?_cons_succ,
    List.getElem?_cons_zero, readQuantity_text]
  rfl

theorem delimited_entry (operation : Operation) : (Profile.entry operation).Delimited = true := by
  cases operation <;> decide

theorem entry_ne_nil (operation : Operation) : fine (Profile.entry operation) ≠ [] := by
  cases operation <;> decide

theorem Run.scan_entry (run : Run) (operation : Operation) (rest : List Char) :
    ∃ o, o.numbers = (run.measured operation).runs ∧
      (Profile.entry operation).scan (run.text.toList ++ rest) =
        o :: (Profile.entry operation).scan rest := by
  obtain ⟨hquiet, hquietAfter, -, -⟩ := setApart run.announced operation
  obtain ⟨before, hbefore⟩ := run.reads_before operation
    (operation.heading ++ ((run.measured operation).text.toList ++ (run.after operation ++ rest)))
  obtain ⟨after, hafter⟩ := run.reads_after operation rest
  obtain ⟨covered, ho⟩ := occurrence?_of_reads (delimited_entry operation)
    ((run.measured operation).reads_entry operation (run.after operation ++ rest))
  refine ⟨⟨covered, (run.measured operation).runs, run.after operation ++ rest⟩, rfl, ?_⟩
  rw [run.toList_text operation]
  simp only [List.append_assoc]
  -- Of the three parts the scan passes over the first and the last.
  rw [scan_skip hquiet hbefore, scan_hit (entry_ne_nil operation) ho, scan_skip hquietAfter hafter]

/-- An empty line and then the next run, as often as there is one. -/
def followed (others : List Run) : List Char :=
  others.flatMap fun run => "\n".toList ++ run.text.toList

theorem followed_cons (run : Run) (others : List Run) :
    followed (run :: others) = "\n".toList ++ (run.text.toList ++ followed others) := by
  rw [followed, List.flatMap_cons, followed, List.append_assoc]

theorem scan_followed (operation : Operation) (others : List Run) :
    List.Forall₂ (fun o run => o.numbers = (run.measured operation).runs)
      ((Profile.entry operation).scan (followed others)) others := by
  induction others with
  | nil => exact .nil
  | cons run others ih =>
    obtain ⟨-, -, hquiet, -⟩ := setApart run.announced operation
    have hfeed : Reads [.literal "\n".toList] ("\n".toList ++ (run.text.toList ++ followed others))
        [] (run.text.toList ++ followed others) := .literal _ (.nil _)
    obtain ⟨o, ho, hscan⟩ := run.scan_entry operation (followed others)
    rw [followed_cons, scan_skip hquiet hfeed, hscan]
    exact .cons ho ih

theorem mapM_full {operation : Operation} {found : List Occurrence} {runs : List Run}
    (h : List.Forall₂ (fun o run => o.numbers = (run.measured operation).runs) found runs) :
    found.mapM (Record.ofOccurrence true) =
      .ok (runs.map fun run => (run.measured operation).full) := by
  induction h with
  | nil => rfl
  | cons ho _ ih =>
    rw [List.mapM_cons, Measured.ofOccurrence_full ho, ih]
    rfl

theorem records_followed (operation : Operation) (first : Run) (others : List Run) :
    Profile.records operation (first.text.toList ++ followed others) =
      .ok ((first :: others).map fun run => (run.measured operation).full) := by
  obtain ⟨o, ho, hscan⟩ := first.scan_entry operation (followed others)
  rw [Profile.records, hscan]
  exact mapM_full (.cons ho (scan_followed operation others))

/-! ### The heap log of the first run -/

theorem Run.section?_text (run : Run) (operation : Operation) (rest : List Char) :
    (section? operation (run.text.toList ++ rest)) =
      some ((run.measured operation).text.toList ++
        upTo emptyLine (run.after operation ++ rest)) := by
  obtain ⟨-, -, -, hquiet⟩ := setApart run.announced operation
  obtain ⟨before, hbefore⟩ := run.reads_before operation
    (operation.heading ++ ((run.measured operation).text.toList ++ (run.after operation ++ rest)))
  have hlines := (run.measured operation).reads_text (run.after operation ++ rest)
  rw [run.toList_text operation, section?]
  simp only [List.append_assoc]
  rw [cut?_skip hquiet hbefore, cut?_mark, Option.map_some, Option.map_some,
    upTo_skip quiet_lines.2.1 hlines]

theorem Run.upTo_after (run : Run) (operation : Operation) (others : List Run) :
    upTo emptyLine (run.after operation ++ followed others) = [] ∨
      upTo emptyLine (run.after operation ++ followed others) = ['\n'] := by
  have hmark : ∀ rest, upTo emptyLine (emptyLine ++ rest) = [] := by
    intro rest
    rw [upTo, cut?_mark]
  cases operation with
  | insert =>
    refine Or.inl ?_
    rw [after, List.append_assoc]
    exact hmark _
  | extractMin =>
    cases others with
    | nil => exact Or.inr rfl
    | cons next others =>
      refine Or.inl ?_
      have hline : run.after .extractMin ++ followed (next :: others) =
          emptyLine ++ (next.text.toList ++ followed others) := by
        rw [followed_cons, after, emptyLine_eq, List.append_assoc]
      rw [hline]
      exact hmark _

theorem Measured.scan_counters (m : Measured) {tail : List Char} (h : tail = [] ∨ tail = ['\n']) :
    ∃ o, o.numbers = m.counterRuns ∧ counters.scan (m.text.toList ++ tail) = [o] := by
  have hreads := m.reads_counters ('\n' :: (m.usage.text.toList ++ tail))
  obtain ⟨covered, ho⟩ := occurrence?_of_reads (by decide) hreads
  have husage : Reads RunLog.usage ('\n' :: m.usage.text.toList ++ tail) m.usage.runs tail :=
    m.usage.reads_usage tail
  have hskip : counters.scan ('\n' :: m.usage.text.toList ++ tail) = counters.scan tail :=
    scan_skip quiet_lines.2.2 husage
  have htail : counters.scan tail = [] := by
    rcases h with rfl | rfl
    · rfl
    · rfl
  refine ⟨⟨covered, m.counterRuns, '\n' :: (m.usage.text.toList ++ tail)⟩, rfl, ?_⟩
  rw [m.toList_text, List.append_assoc]
  exact (scan_hit (by decide) ho).trans (congrArg _ (hskip.trans htail))

theorem Run.outcome_section (run : Run) (operation : Operation) (others : List Run) :
    (sectionRecords operation (run.text.toList ++ followed others)).outcome =
      .ok [(run.measured operation).short] := by
  obtain ⟨o, ho, hscan⟩ := (run.measured operation).scan_counters
    (run.upTo_after operation others)
  rw [outcome_sectionRecords, run.section?_text, Option.map_some, Option.getD_some, hscan,
    List.mapM_cons, Measured.ofOccurrence_short ho]
  rfl

/-! ### The settings of the first run -/

theorem required_of_reads {layout : Template} {what : Quantity} {part : List Char} {o : Occurrence}
    {digits : List Char} {n : UInt64} (hq : template.Quiet layout)
    (hpart : Reads layout (part ++ rest) numbers rest) (hne : fine template ≠ [])
    (ho : occurrence? template rest = some o) (hnumbers : o.numbers = [digits])
    (hread : Count.read digits = .ok n) :
    Settings.required template what (part ++ rest) = .ok n := by
  rw [Settings.required, first?_eq, scan_skip hq hpart, scan_hit hne ho]
  simp only [List.head?_cons, readGroup, Occurrence.groups, hnumbers, List.map_cons,
    List.getElem?_cons_succ, List.getElem?_cons_zero, readQuantity, hread]

theorem occurrence?_heapsize (n : UInt64) (rest : List Char) :
    ∃ o, o.numbers = [(Count.text n).toList] ∧ occurrence? Settings.heapsizeTemplate
      ("heapsize: ".toList ++ ((Count.text n).toList ++ ("\n".toList ++ rest))) = some o := by
  have hdigits : ∀ c ∈ (Count.text n).toList, isDecimal c = true := fun _ hc =>
    isDecimal_of_isDigit (isDigit_of_mem_text hc)
  have hfeed : ∀ c, ("\n".toList ++ rest).head? = some c → isDecimal c = false := by
    intro c hc
    obtain rfl : '\n' = c := by simpa using hc
    decide
  -- The template ends with the digits, so it is the text that must end them.
  obtain ⟨htake, hdrop⟩ := run_of_digits hdigits hfeed
  have hnumber : occurrence? [.number] ((Count.text n).toList ++ ("\n".toList ++ rest)) =
      some ⟨(Count.text n).toList ++ [], [(Count.text n).toList], "\n".toList ++ rest⟩ := by
    rw [occurrence?_number, htake, hdrop]
    exact ⟨text_ne_nil n, _, rfl, rfl⟩
  exact ⟨_, rfl, occurrence?_literal.mpr ⟨_, _, rfl, hnumber, rfl⟩⟩

theorem Run.required_heapsize (run : Run) (rest : List Char) :
    Settings.required Settings.heapsizeTemplate .heapsize (run.heapsizeText ++ rest) =
      .ok run.heapsize := by
  obtain ⟨o, hnumbers, ho⟩ := occurrence?_heapsize run.heapsize rest
  have hquiet := (quiet_lines.1 run.announced).1
  rw [heapsizeText, List.append_assoc, List.append_assoc, List.append_assoc]
  exact required_of_reads hquiet (run.reads_announcement _) (by decide) ho hnumbers
    (read_text run.heapsize)

theorem Run.required_isOptimized (run : Run) (rest : List Char) :
    Settings.required Settings.isOptimizedTemplate .isOptimized (run.settingsText ++ rest) =
      .ok (UInt64.ofNat run.isOptimized) := by
  obtain ⟨digits, hread, hreads⟩ := run.reads_isOptimized
  have hquiet := (quiet_lines.1 run.announced).2
  obtain ⟨covered, ho⟩ := occurrence?_of_reads (by decide) (hreads ("\n".toList ++ rest))
  rw [settingsText, List.append_assoc, List.append_assoc, List.append_assoc]
  exact required_of_reads hquiet (run.reads_heapsize _) (by decide) ho rfl hread

theorem Run.read_settings (run : Run) (rest : List Char) :
    Settings.read (run.text.toList ++ rest) = .ok run.settings := by
  rw [Settings.read, run.toList_text .insert, before, List.append_assoc, run.required_isOptimized]
  rw [settingsText, List.append_assoc, run.required_heapsize]
  rfl

/-! ### All logs in one text -/

theorem unixNewlines_apply (lineEnd : LineEnd) {text : List Char} (h : '\r' ∉ text) :
    unixNewlines (lineEnd.apply text) = text := by
  cases lineEnd with
  | feed => exact unixNewlines_of_not_mem h
  | returnFeed =>
    rw [LineEnd.apply]
    induction text with
    | nil => rfl
    | cons c text ih =>
      rw [List.mem_cons, not_or] at h
      have hc : c ≠ '\r' := fun e => h.1 e.symm
      rw [List.flatMap_cons]
      split_ifs with hfeed
      · subst hfeed
        exact congrArg ('\n' :: ·) (ih h.2)
      · rw [List.singleton_append, unixNewlines_cons hc, ih h.2]

theorem Run.return_not_mem (run : Run) : '\r' ∉ run.text.toList := by
  intro hmem
  -- A character of the text is a digit or stands in the layout of the whole.
  obtain ⟨before, hbefore⟩ := run.reads_before .extractMin (Operation.extractMin.heading ++
    (run.extractMin.text.toList ++ run.after .extractMin))
  have hreads := hbefore.append <|
    (run.extractMin.reads_entry .extractMin (run.after .extractMin)).append <|
      Reads.literal "\n".toList (.nil [])
  have hlayout : .literal ['\r'] ∉ fine (beforeLayout run.announced .extractMin ++
      (Profile.entry .extractMin ++ [.literal "\n".toList])) := by
    cases run.announced <;> decide +kernel
  rw [run.toList_text .extractMin] at hmem
  rcases mem_of_reads hreads hmem with hdigit | hliteral | hrest
  · exact absurd hdigit (by decide)
  · exact hlayout hliteral
  · cases hrest

theorem toList_intercalate (first : Run) (others : List Run) :
    ("\n".intercalate ((first :: others).map Run.text)).toList =
      first.text.toList ++ followed others := by
  induction others generalizing first with
  | nil =>
    simp only [List.map_cons, List.map_nil, String.intercalate_singleton, followed,
      List.flatMap_nil, List.append_nil]
  | cons next others ih =>
    rw [List.map_cons, List.map_cons, String.intercalate_cons_cons, String.toList_append,
      String.toList_append, ← List.map_cons, ih, followed_cons, List.append_assoc]

theorem unixNewlines_written (lineEnd : LineEnd) (first : Run) (others : List Run) :
    unixNewlines (written lineEnd (first :: others)).toList =
      first.text.toList ++ followed others := by
  rw [written, String.toList_ofList, toList_intercalate]
  refine unixNewlines_apply lineEnd fun hmem => ?_
  rcases List.mem_append.mp hmem with hfirst | hothers
  · exact first.return_not_mem hfirst
  · obtain ⟨run, -, hrun⟩ := List.mem_flatMap.mp hothers
    rcases List.mem_append.mp hrun with hfeed | hrun
    · exact absurd hfeed (by decide)
    · exact run.return_not_mem hrun

/-- **What runs write is read back.** However many runs there are and however the lines end, the
profile has the records of all runs in their order, with every number as it was, and the heap log
has the settings and the counters of the first run. -/
theorem read_written (lineEnd : LineEnd) (first : Run) (others : List Run) :
    Profile.read (written lineEnd (first :: others)) =
        .ok ⟨(first :: others).map (·.insert.full), (first :: others).map (·.extractMin.full)⟩ ∧
      HeapLog.read (written lineEnd (first :: others)) =
        .ok ⟨first.settings, [first.insert.short], [first.extractMin.short]⟩ := by
  have hlines := unixNewlines_written lineEnd first others
  constructor
  · have hinsert := records_followed .insert first others
    have hextract := records_followed .extractMin first others
    unfold Profile.read
    rw [hlines]
    dsimp only
    rw [hinsert, hextract]
    rfl
  · have hsettings := first.read_settings (followed others)
    have hinsert := first.outcome_section .insert others
    have hextract := first.outcome_section .extractMin others
    unfold HeapLog.read HeapLog.journaled
    rw [hlines]
    simp only [Journaled.outcome_bind, Journaled.ofExcept, hsettings, hinsert, hextract]
    rfl

end BenchLedger.RunLog
