import BenchLedger.Proofs.RunLog.Joined
import BenchLedger.Proofs.RunLog.Sections
import BenchLedger.Proofs.RunLog.Written

/-! # The first run, read in two ways

The heap log of a text and the profile of all runs in it are read by different means: the one scans
the first section for counters, the other looks for headings with a complete block directly below
them. Where the first heading has such a block, both begin with its numbers
(`first_record_agrees`): the end of the section does not cut the block (`reads_section`), and
its counters are what the scan finds first. -/

namespace BenchLedger.RunLog

open Text Template

variable {operation : Operation} {lines rest : List Char} {numbers : List (List Char)} {start : ℕ}

/-! ### Records and their numbers -/

/-- A record without its usage. -/
def Record.withoutUsage (record : Record) : Record := { record with usage := none }

theorem Record.Holds.eq_withoutUsage {record short : Record} {first second : List (List Char)}
    (h : record.Holds (first ++ second)) (hshort : short.Holds first) (hlength : first.length = 5) :
    short = record.withoutUsage := by
  obtain ⟨a, b, c, d, e, used⟩ := record
  obtain ⟨a', b', c', d', e', used'⟩ := short
  unfold Holds at h hshort
  rw [List.map_append, hshort] at h
  have hvalues := congrArg List.length hshort
  rw [List.length_map, List.length_map, hlength] at hvalues
  cases used' with
  | some usage => simp [values, Usage.values] at hvalues
  | none =>
    simp only [values, Option.map_none, Option.getD_none, List.append_nil, List.map_cons,
      List.map_nil, List.cons_append, List.nil_append, List.cons.injEq, Except.ok.injEq] at h
    obtain ⟨rfl, rfl, rfl, rfl, rfl, -⟩ := h
    rfl

theorem exists_of_mapM_cons {withUsage : Bool} {o : Occurrence} {found : List Occurrence}
    {records : List Record}
    (h : (o :: found).mapM (Record.ofOccurrence withUsage) = .ok records) :
    ∃ record others, Record.ofOccurrence withUsage o = .ok record ∧ records = record :: others := by
  rw [List.mapM_cons] at h
  obtain ⟨record, hrecord, hrest⟩ := bind_eq_ok.mp h
  obtain ⟨others, -, hall⟩ := bind_eq_ok.mp hrest
  exact ⟨record, others, hrecord, (Except.ok.inj hall).symm⟩

/-! ### The first section -/

theorem exists_before_of_sectionStart (h : sectionStart? operation lines = some start) :
    ∃ before, lines = before ++ (operation.heading ++ lines.drop start) ∧
      ∀ k < before.length, operation.heading.isPrefixOf (lines.drop k) = false := by
  obtain ⟨place, hplace, rfl⟩ := Option.map_eq_some_iff.mp h
  obtain ⟨hle, hhere, hearlier⟩ := firstPlace?_eq_some_iff.mp hplace
  obtain ⟨below, hbelow⟩ := List.isPrefixOf_iff_prefix.mp hhere
  have hdrop : lines.drop (place + operation.heading.length) = below := by
    rw [← List.drop_drop, ← hbelow, List.drop_left]
  refine ⟨lines.take place, ?_, fun k hk => hearlier k ?_⟩
  · rw [hdrop, hbelow, List.take_append_drop]
  · rw [List.length_take] at hk
    omega

/-- **A profile begins with the block below the first heading.** -/
theorem scan_entry_of_reads (h : sectionStart? operation lines = some start)
    (hblock : Reads (counters ++ usage) (lines.drop start) numbers rest) :
    ∃ o found, o.numbers = numbers ∧ (Profile.entry operation).scan lines = o :: found := by
  obtain ⟨before, hlines, hearlier⟩ := exists_before_of_sectionStart h
  have hentry : Reads (Profile.entry operation) (operation.heading ++ lines.drop start) numbers
      rest := .literal operation.heading hblock
  obtain ⟨covered, ho⟩ := occurrence?_of_reads (delimited_entry operation) hentry
  -- Before the first heading the layout fits nowhere, as it begins with a heading.
  have hbefore : ∀ k < before.length, occurrence? (Profile.entry operation)
      ((before ++ (operation.heading ++ lines.drop start)).drop k) = none := by
    intro k hk
    have hnone := hearlier k hk
    rw [← isSome_after?, Option.isSome_eq_false_iff, Option.isNone_iff_eq_none] at hnone
    rw [← hlines]
    show occurrence? (.literal operation.heading :: (counters ++ usage)) (lines.drop k) = none
    rw [occurrence?, hnone, Option.bind_none]
  refine ⟨⟨covered, numbers, rest⟩, (Profile.entry operation).scan rest, rfl, ?_⟩
  rw [hlines, scan_of_none hbefore, scan_hit (entry_ne_nil operation) ho]

/-- **The section does not end within a block at its beginning.** -/
theorem reads_section (h : sectionStart? operation lines = some start)
    (hblock : Reads (counters ++ usage) (lines.drop start) numbers rest) :
    ∃ body after, section? operation lines = some body ∧
      Reads (counters ++ usage) body numbers after := by
  obtain ⟨part, hpart, hreads⟩ := hblock.exists_part
  -- No empty line stands in a block, so the section ends at the first one after it.
  refine ⟨part ++ upTo emptyLine rest, upTo emptyLine rest, ?_, hreads _⟩
  rw [section?_eq, h, Option.map_some, hpart, upTo_skip quiet_lines.2.1 (hreads rest)]

/-- **A section with a block at its beginning has its counters first.** -/
theorem scan_section_of_reads (h : sectionStart? operation lines = some start)
    (hblock : Reads (counters ++ usage) (lines.drop start) numbers rest) :
    ∃ body o found more, section? operation lines = some body ∧ o.numbers.length = 5 ∧
      numbers = o.numbers ++ more ∧ counters.scan body = o :: found := by
  obtain ⟨body, after, hbody, hreads⟩ := reads_section h hblock
  obtain ⟨between, first, second, hfirst, -, rfl⟩ := hreads.split
  obtain ⟨covered, ho⟩ := occurrence?_of_reads (by decide) hfirst
  exact ⟨body, ⟨covered, first, between⟩, counters.scan between, second, hbody,
    length_numbers hfirst, rfl, scan_hit apart_counters.ne_nil ho⟩

/-! ### Both readers -/

/-- The records of one operation. -/
def Profile.listed (profile : Profile) : Operation → List Record
  | .insert => profile.insert
  | .extractMin => profile.extractMin

/-- The summary of one operation. -/
def HeapLog.summary (log : HeapLog) : Operation → Summary
  | .insert => log.insertSummary
  | .extractMin => log.extractMinSummary

theorem summary_eq (log : HeapLog) (operation : Operation) :
    log.summary operation = Summary.ofRecords (log.records operation) := by
  cases operation <;> rfl

theorem listed_of_read {text : String} {profile : Profile} (h : Profile.read text = .ok profile)
    (operation : Operation) :
    Profile.records operation (unixNewlines text.toList) = .ok (profile.listed operation) := by
  cases operation with
  | insert => exact (read_profile_eq_ok.mp h).1
  | extractMin => exact (read_profile_eq_ok.mp h).2

theorem exists_listed_of_reads {text : String} {profile : Profile}
    (h : Profile.read text = .ok profile)
    (hstart : sectionStart? operation (unixNewlines text.toList) = some start)
    (hblock : Reads (counters ++ usage) ((unixNewlines text.toList).drop start) numbers rest) :
    ∃ record others, profile.listed operation = record :: others ∧ record.Holds numbers := by
  have hlisted := listed_of_read h operation
  obtain ⟨o, found, rfl, hscan⟩ := scan_entry_of_reads hstart hblock
  rw [Profile.records, hscan] at hlisted
  obtain ⟨record, others, hrecord, hothers⟩ := exists_of_mapM_cons hlisted
  exact ⟨record, others, hothers, (read_block (length_numbers hblock)).of_eq_ok hrecord⟩

theorem exists_record_of_reads {text : String} {log : HeapLog} (h : HeapLog.read text = .ok log)
    (hstart : sectionStart? operation (unixNewlines text.toList) = some start)
    (hblock : Reads (counters ++ usage) ((unixNewlines text.toList).drop start) numbers rest) :
    ∃ record others first second, log.records operation = record :: others ∧
      record.Holds first ∧ first.length = 5 ∧ numbers = first ++ second := by
  have hrecords := records_of_read h operation
  obtain ⟨body, o, found, more, hbody, hlength, hnumbers, hscan⟩ :=
    scan_section_of_reads hstart hblock
  rw [outcome_sectionRecords, hbody, Option.map_some, Option.getD_some, hscan] at hrecords
  obtain ⟨record, others, hrecord, hothers⟩ := exists_of_mapM_cons hrecords
  exact ⟨record, others, o.numbers, more, hothers, (read_block hlength).of_eq_ok hrecord, hlength,
    hnumbers⟩

/-- **Both readers begin with the same run.** If a text is read as a heap log and as a profile, and
the first heading of an operation is directly followed by a complete block, then each has a first
record of the operation; that of the profile holds the numbers of the block, and that of the heap
log is the same without its usage. So the summary states the time and the volume in the first row of
the table. -/
theorem first_record_agrees {text : String} {log : HeapLog} {profile : Profile}
    (hlog : HeapLog.read text = .ok log) (hprofile : Profile.read text = .ok profile)
    (hstart : sectionStart? operation (unixNewlines text.toList) = some start)
    (hblock : Reads (counters ++ usage) ((unixNewlines text.toList).drop start) numbers rest) :
    ∃ record others more, profile.listed operation = record :: others ∧
      log.records operation = record.withoutUsage :: more ∧ record.Holds numbers ∧
      let row := Record.titles.zip record.cells
      ("Wall Clock Time (ms)", Count.text (log.summary operation).wallClockMs) ∈ row ∧
        ("Message Bytes Sent", Count.text (log.summary operation).messageBytesSent) ∈ row := by
  obtain ⟨record, others, hothers, hholds⟩ := exists_listed_of_reads hprofile hstart hblock
  obtain ⟨short, more, first, second, hmore, hshort, hlength, rfl⟩ :=
    exists_record_of_reads hlog hstart hblock
  have hsame := hholds.eq_withoutUsage hshort hlength
  refine ⟨record, others, more, hothers, hsame ▸ hmore, hholds, ?_⟩
  rw [summary_eq, hmore, hsame]
  exact ⟨by simp [Record.titles, Record.cells, Summary.ofRecords, Record.withoutUsage],
    by simp [Record.titles, Record.cells, Summary.ofRecords, Record.withoutUsage]⟩

/-- A log of one section, after its settings. -/
def firstRunLog : String := "heapsize: 8\nis_optimized: 1\r\n" ++ oneSection

theorem read_firstRunLog :
    HeapLog.read firstRunLog = .ok ⟨⟨8, 1⟩, [⟨1, 2, 3, 4, 9, none⟩], []⟩ := by
  decide +kernel

theorem read_profile_firstRunLog :
    Profile.read firstRunLog = .ok ⟨[⟨1, 2, 3, 4, 9, some ⟨5, 6, 7, 8⟩⟩], []⟩ := by
  decide +kernel

theorem reads_firstRunLog : sectionStart? .insert (unixNewlines firstRunLog.toList) = some 53 ∧
    (occurrence? (counters ++ usage)
      ((unixNewlines firstRunLog.toList).drop 53)).isSome = true := by
  decide +kernel

/-- Both readers read this log; the first row of the table and the first counters agree. -/
theorem first_record_agrees_firstRunLog :
    ∃ log profile record others more, HeapLog.read firstRunLog = .ok log ∧
      Profile.read firstRunLog = .ok profile ∧ profile.insert = record :: others ∧
      log.insert = record.withoutUsage :: more ∧
      ("Wall Clock Time (ms)", Count.text log.insertSummary.wallClockMs) ∈
        Record.titles.zip record.cells ∧
      ("Message Bytes Sent", Count.text log.insertSummary.messageBytesSent) ∈
        Record.titles.zip record.cells := by
  have hblock := reads_of_occurrence? (Option.some_get reads_firstRunLog.2).symm
  obtain ⟨record, others, more, hlisted, hrecords, -, htime, hbytes⟩ :=
    first_record_agrees read_firstRunLog read_profile_firstRunLog reads_firstRunLog.1 hblock
  exact ⟨_, _, record, others, more, read_firstRunLog, read_profile_firstRunLog, hlisted, hrecords,
    htime, hbytes⟩

end BenchLedger.RunLog
