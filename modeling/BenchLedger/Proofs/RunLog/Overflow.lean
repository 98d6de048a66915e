import BenchLedger.Proofs.RunLog.Blocks
import BenchLedger.Proofs.RunLog.DigitRuns

/-! # When a profile cannot be read

A profile is read whatever stands in the text, unless a number in a complete block cannot be read.
The layout lets digits of any script through, but numbers are spelled in ASCII digits: so the first
number that is spoilt is reported, either as too large or for a digit of another script
(`Profile.first_spoilt_reported`). Only in the first case is it right that nothing but an overflow
can keep a profile from being read. -/

namespace BenchLedger.RunLog

open Text Template

variable {stated : List Stated} {fault : Fault}

/-! ### The first spoilt number -/

/-- **The first number that is spoilt**, and what spoils it. -/
def firstSpoilt? (stated : List Stated) : Option (Stated × CountFault) :=
  stated.findSome? fun s => (spoilt? s.2).map (s, ·)

/-- The fault that reports a spoilt number. -/
def reported (spoilt : Stated × CountFault) : Fault :=
  .badNumber spoilt.1.1 (String.ofList spoilt.1.2) spoilt.2

theorem firstFault?_of_isRun (h : ∀ s ∈ stated, IsRun s.2) :
    firstFault? stated = (firstSpoilt? stated).map reported := by
  rw [firstSpoilt?, List.map_findSome?]
  unfold firstFault?
  induction stated with
  | nil => rfl
  | cons s stated ih =>
    rw [List.forall_mem_cons] at h
    rw [List.findSome?_cons, List.findSome?_cons, ih h.2, read_run h.1]
    cases hs : spoilt? s.2 <;> simp [hs, reported]

theorem mem_of_firstSpoilt? {spoilt : Stated × CountFault}
    (h : firstSpoilt? stated = some spoilt) :
    spoilt.1 ∈ stated ∧ spoilt? spoilt.1.2 = some spoilt.2 := by
  obtain ⟨s, hs, hspoilt⟩ := List.exists_of_findSome?_eq_some h
  obtain ⟨why, hwhy, rfl⟩ := Option.map_eq_some_iff.mp hspoilt
  exact ⟨hs, hwhy⟩

theorem le_leading_of_tooLarge {run : List Char} (h : spoilt? run = some .tooLarge) :
    UInt64.size ≤ leading run := by
  unfold spoilt? at h
  split_ifs at h with hlarge
  · exact hlarge
  · cases h

theorem Comes.eq_error_iff {α : Type} {outcome : Except Fault α} {Fits : α → Prop}
    (h : Comes outcome stated Fits) : outcome = .error fault ↔ firstFault? stated = some fault := by
  unfold Comes at h
  cases hfault : firstFault? stated with
  | some first =>
    rw [hfault] at h
    rw [h, Except.error.injEq, Option.some.injEq]
  | none =>
    rw [hfault] at h
    obtain ⟨value, rfl, -⟩ := h
    simp

/-! ### The numbers of complete blocks -/

theorem records_comes (operation : Operation) (lines : List Char) :
    ∃ found, Places (Profile.entry operation) lines found ∧
      Comes (Profile.records operation lines)
        (found.flatMap fun block => blockStated true block.2)
        fun records => List.Forall₂ Record.Holds records (found.map Prod.snd) :=
  scan_comes true (apart_profile operation) (by cases operation <;> decide)
    (by cases operation <;> decide) (by cases operation <;> decide) lines

theorem profile_comes {text : String} {inserted extracted : List Stated}
    {Inserted Extracted : List Record → Prop}
    (hinsert : Comes (Profile.records .insert (unixNewlines text.toList)) inserted Inserted)
    (hextract : Comes (Profile.records .extractMin (unixNewlines text.toList)) extracted
      Extracted) :
    Comes (Profile.read text) (inserted ++ extracted)
      fun profile => Inserted profile.insert ∧ Extracted profile.extractMin := by
  unfold Profile.read
  exact hinsert.bind fun _ hi => hextract.bind_ok fun _ he => ⟨hi, he⟩

theorem exists_reads_of_mem {template : Template} {text : List Char}
    {found : List (ℕ × List (List Char))} {withUsage : Bool} (h : Places template text found)
    {s : Stated} (hs : s ∈ found.flatMap fun block => blockStated withUsage block.2) :
    ∃ place numbers rest, Reads template (text.drop place) numbers rest ∧
      s ∈ blockStated withUsage numbers := by
  obtain ⟨⟨place, numbers⟩, hblock, hs⟩ := List.mem_flatMap.mp hs
  obtain ⟨rest, hreads⟩ := (h.mem_iff place numbers).mp hblock
  exact ⟨place, numbers, rest, hreads, hs⟩

theorem isRun_of_mem_blockStated {template : Template} {text rest : List Char}
    {numbers : List (List Char)} {withUsage : Bool} (h : Reads template text numbers rest)
    {s : Stated} (hs : s ∈ blockStated withUsage numbers) : IsRun s.2 :=
  isRun_of_reads h s.2 (List.of_mem_zip hs).2

/-! ### Faults of a profile -/

/-- **Nothing but an overflow keeps the profile from being read**: a fault is that of a run of
digits in a complete block, of a value that no count has, and says that the number is too large. -/
def OnlyOverflows (text : String) : Prop :=
  ∀ fault, Profile.read text = .error fault → ∃ operation place numbers rest what run,
    Reads (Profile.entry operation) ((unixNewlines text.toList).drop place) numbers rest ∧
      (what, run) ∈ blockStated true numbers ∧ UInt64.size ≤ worth run ∧
      fault = .badNumber what (String.ofList run) .tooLarge

/-- **The first spoilt number is the fault of a profile, and there is no other fault.** In reading
order, the complete blocks of the insertions come before those of the extractions. Only an overflow
keeps the profile from being read just if the first spoilt number, if there is one, is spoilt by its
size and not by a digit of another script. -/
theorem Profile.first_spoilt_reported (text : String) :
    ∃ insert extractMin,
      Places (Profile.entry .insert) (unixNewlines text.toList) insert ∧
      Places (Profile.entry .extractMin) (unixNewlines text.toList) extractMin ∧
      let stated := (insert.flatMap fun block => blockStated true block.2) ++
        extractMin.flatMap fun block => blockStated true block.2
      (∀ fault, Profile.read text = .error fault ↔
        (firstSpoilt? stated).map reported = some fault) ∧
      (OnlyOverflows text ↔
        ∀ spoilt, firstSpoilt? stated = some spoilt → spoilt.2 = .tooLarge) := by
  obtain ⟨insert, hinsert, hinserted⟩ := records_comes .insert (unixNewlines text.toList)
  obtain ⟨extractMin, hextract, hextracted⟩ :=
    records_comes .extractMin (unixNewlines text.toList)
  refine ⟨insert, extractMin, hinsert, hextract, ?_⟩
  have hcomes := profile_comes hinserted hextracted
  -- A number to be read stands in a complete block of one of the operations.
  have hblock : ∀ s ∈ (insert.flatMap fun block => blockStated true block.2) ++
      extractMin.flatMap (fun block => blockStated true block.2), ∃ operation place numbers rest,
        Reads (Profile.entry operation) ((unixNewlines text.toList).drop place) numbers rest ∧
          s ∈ blockStated true numbers := by
    intro s hs
    rcases List.mem_append.mp hs with hs | hs
    · exact ⟨.insert, exists_reads_of_mem hinsert hs⟩
    · exact ⟨.extractMin, exists_reads_of_mem hextract hs⟩
  generalize (insert.flatMap fun block => blockStated true block.2) ++
    extractMin.flatMap (fun block => blockStated true block.2) = stated at hcomes hblock
  have hruns : ∀ s ∈ stated, IsRun s.2 := by
    intro s hs
    obtain ⟨operation, place, numbers, rest, hreads, hmem⟩ := hblock s hs
    exact isRun_of_mem_blockStated hreads hmem
  have hfaults : ∀ fault, Profile.read text = .error fault ↔
      (firstSpoilt? stated).map reported = some fault := by
    intro fault
    rw [hcomes.eq_error_iff, firstFault?_of_isRun hruns]
  refine ⟨hfaults, fun honly spoilt hspoilt => ?_, fun hlarge fault hfault => ?_⟩
  · obtain ⟨-, -, -, -, what, run, -, -, -, heq⟩ :=
      honly (reported spoilt) ((hfaults _).mpr (by rw [hspoilt]; rfl))
    exact (Fault.badNumber.inj heq).2.2
  · obtain ⟨⟨⟨what, run⟩, why⟩, hspoilt, rfl⟩ :=
      Option.map_eq_some_iff.mp ((hfaults fault).mp hfault)
    obtain rfl : why = .tooLarge := hlarge _ hspoilt
    obtain ⟨hmem, hwhy⟩ := mem_of_firstSpoilt? hspoilt
    obtain ⟨operation, place, numbers, rest, hreads, hstated⟩ := hblock _ hmem
    exact ⟨operation, place, numbers, rest, what, run, hreads, hstated,
      (le_leading_of_tooLarge hwhy).trans (leading_le_worth run), rfl⟩

/-- A complete block whose first number is the Arabic digit three. -/
def arabicLog : String :=
  "===== Insert Stats =====\n\u0663 messages sent\n2 message bytes sent\n" ++
    "3 Lamport clock (latencies)\n4 local AES operations\n5 milliseconds wall clock time\n" ++
    "\x7b5;6;7\x7d nanoseconds \x7breal;user;system\x7d\nMem: 8 KiB\n"

/-- Its fault is no overflow. -/
theorem not_onlyOverflows_arabicLog : ¬ OnlyOverflows arabicLog := by
  intro honly
  have hread : Profile.read arabicLog =
      .error (.badNumber .messagesSent "\u0663" .badDigit) := by
    decide +kernel
  obtain ⟨-, -, -, -, what, run, -, -, -, heq⟩ := honly _ hread
  cases (Fault.badNumber.inj heq).2.2

end BenchLedger.RunLog
