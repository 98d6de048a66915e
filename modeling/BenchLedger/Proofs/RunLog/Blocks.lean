import BenchLedger.RunLog.Profile
import BenchLedger.RunLog.Trials
import BenchLedger.Proofs.RunLog.Numbers
import BenchLedger.Proofs.Text.Readings

/-! # All blocks of a log

A log of trials, or of many runs, is read at every place where a heading is directly followed by a
complete block, whatever stands between these places (`read_all_blocks`). The layouts are such that
no two blocks overlap, so no block is lost to one before it. -/

namespace BenchLedger.RunLog

open Text Template

/-! ### The layouts -/

theorem apart_trials : Apart Trials.entry where
  ne_nil := by decide
  clash := by decide +kernel
  ends := fun h => absurd h (by decide +kernel)

theorem apart_profile (operation : Operation) : Apart (Profile.entry operation) where
  ne_nil := by cases operation <;> decide
  clash := by cases operation <;> decide +kernel
  ends := fun h => absurd h (by cases operation <;> decide +kernel)

/-- **The records of a scan** are those of all places with a block. -/
theorem scan_comes {template : Template} (withUsage : Bool) (ha : template.Apart)
    (hd : template.Delimited = true) (hopen : (fine template).head? ≠ some .number)
    (hruns : template.runs = (blockQuantities withUsage).length) (text : List Char) :
    ∃ found, Places template text found ∧
      Comes ((template.scan text).mapM (Record.ofOccurrence withUsage))
        (found.flatMap fun block => blockStated withUsage block.2)
        fun records => List.Forall₂ Record.Holds records (found.map Prod.snd) := by
  obtain ⟨found, hplaces, hscan⟩ := exists_places ha hd hopen text
  have hlength : ∀ o ∈ template.scan text,
      o.numbers.length = (blockQuantities withUsage).length := by
    intro o ho
    obtain ⟨place, hreads⟩ := reads_of_mem_scan ha ho
    rw [length_numbers hreads, hruns]
  have hstated : (found.flatMap fun block => blockStated withUsage block.2) =
      (template.scan text).flatMap fun o => blockStated withUsage o.numbers := by
    have hleft := (List.flatMap_map Prod.snd (blockStated withUsage) found).symm
    have hright := List.flatMap_map Occurrence.numbers (blockStated withUsage)
      (template.scan text)
    rw [hscan] at hleft
    exact hleft.trans hright
  refine ⟨found, hplaces, ?_⟩
  rw [hstated, hscan]
  exact read_blocks hlength

theorem read_trials (text : String) : Trials.read text =
    (Trials.entry.scan (unixNewlines text.toList)).mapM (Record.ofOccurrence false) := by
  unfold Trials.read Trials.journaled
  simp only [Journaled.outcome_bind, Journaled.ofExcept]
  cases (Trials.entry.scan (unixNewlines text.toList)).mapM (Record.ofOccurrence false) <;> rfl

/-- **Every block is read, and nothing else.** In a log of trials, and for each kind of section in a
profile, the records are those of all places where the heading is directly followed by the lines of
a block; they hold the numbers there, or the first text that is no number is reported. -/
theorem read_all_blocks (text : String) :
    (∃ found, Places Trials.entry (unixNewlines text.toList) found ∧
      Comes (Trials.read text) (found.flatMap fun block => blockStated false block.2)
        fun records => List.Forall₂ Record.Holds records (found.map Prod.snd)) ∧
    ∃ insert extractMin,
      Places (Profile.entry .insert) (unixNewlines text.toList) insert ∧
      Places (Profile.entry .extractMin) (unixNewlines text.toList) extractMin ∧
      Comes (Profile.read text)
        ((insert.flatMap fun block => blockStated true block.2) ++
          extractMin.flatMap fun block => blockStated true block.2)
        fun profile => List.Forall₂ Record.Holds profile.insert (insert.map Prod.snd) ∧
          List.Forall₂ Record.Holds profile.extractMin (extractMin.map Prod.snd) := by
  generalize hlines : unixNewlines text.toList = lines
  constructor
  · rw [read_trials, hlines]
    exact scan_comes false apart_trials (by decide) (by decide) (by decide) lines
  · obtain ⟨insert, hinsert, hinserted⟩ := scan_comes true (apart_profile .insert) (by decide)
      (by decide) (by decide) lines
    obtain ⟨extractMin, hextract, hextracted⟩ := scan_comes true (apart_profile .extractMin)
      (by decide) (by decide) (by decide) lines
    refine ⟨insert, extractMin, hinsert, hextract, ?_⟩
    unfold Profile.read
    rw [hlines]
    exact hinserted.bind fun inserted hi => hextracted.bind_ok fun extracted he => ⟨hi, he⟩

end BenchLedger.RunLog
