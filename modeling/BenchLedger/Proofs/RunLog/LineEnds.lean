import BenchLedger.Ledger.Reader
import BenchLedger.RunLog.Parties
import BenchLedger.RunLog.Trials
import BenchLedger.Proofs.RunLog.RunText
import BenchLedger.Proofs.Text.LineEnds

/-! # Readers and the ends of lines

A text is made of lines, each with an end of its own choice (`ended`). What is read from it does
not depend on the choice (`read_ended`): most readers see the text only without the carriage
returns that belong to ends of lines, and what the reader of the settings looks for stands within a
line (`read_settings_unixNewlines`). -/

namespace BenchLedger.RunLog

open Text Template

/-! ### Texts with ends of lines -/

/-- The characters at the end of a line. -/
def LineEnd.mark : LineEnd → List Char
  | feed => ['\n']
  | returnFeed => ['\r', '\n']

/-- Lines, each with its end. -/
def ended (lines : List (List Char × LineEnd)) : List Char :=
  lines.flatMap fun line => line.1 ++ line.2.mark

theorem unixNewlines_mark (lineEnd : LineEnd) (rest : List Char) :
    unixNewlines (lineEnd.mark ++ rest) = '\n' :: unixNewlines rest := by
  cases lineEnd with
  | feed => exact unixNewlines_cons (by decide) rest
  | returnFeed => rfl

/-- **Without carriage returns at their ends only the lines count.** -/
theorem unixNewlines_ended {lines : List (List Char × LineEnd)}
    (h : ∀ line ∈ lines, line.1.getLast? ≠ some '\r') (last : List Char) :
    unixNewlines (ended lines ++ last) =
      ((lines.map Prod.fst).flatMap fun line => unixNewlines line ++ ['\n']) ++
        unixNewlines last := by
  induction lines with
  | nil => rfl
  | cons line lines ih =>
    obtain ⟨hline, hlines⟩ := List.forall_mem_cons.mp h
    rw [ended, List.flatMap_cons, List.append_assoc, List.append_assoc, unixNewlines_append hline,
      unixNewlines_mark, ← ended, ih hlines]
    simp

/-! ### The settings -/

theorem required_eq (template : Template) (what : Quantity) (text : List Char) :
    Settings.required template what text =
      match (first? template text).map Occurrence.groups with
      | none => .error (.missing what)
      | some groups => readGroup groups 1 what := by
  unfold Settings.required
  cases first? template text <;> rfl

theorem required_unixNewlines {template : Template} (h : template.WithinLine)
    (hne : fine template ≠ []) (what : Quantity) (text : List Char) :
    Settings.required template what (unixNewlines text) = Settings.required template what text := by
  rw [required_eq, required_eq, first?_unixNewlines h hne]

/-- **What states a setting stands within a line.** -/
theorem read_settings_unixNewlines (text : List Char) :
    Settings.read (unixNewlines text) = Settings.read text := by
  unfold Settings.read
  rw [required_unixNewlines (by decide +kernel) (by decide),
    required_unixNewlines (by decide +kernel) (by decide)]

/-! ### All readers -/

/-- **The ends of lines do not matter.** Of two texts with the same lines, each ended by a line feed
or by a carriage return and a line feed, and with the same text after them, the same is read, be it
a value or a fault. Other carriage returns may stand anywhere but at the end of a line. -/
theorem read_ended {lines others : List (List Char × LineEnd)}
    (hsame : lines.map Prod.fst = others.map Prod.fst)
    (hlines : ∀ line ∈ lines, line.1.getLast? ≠ some '\r') (last : List Char) :
    let text := String.ofList (ended lines ++ last)
    let other := String.ofList (ended others ++ last)
    Settings.read text.toList = Settings.read other.toList ∧
      HeapLog.read text = HeapLog.read other ∧
      Profile.read text = Profile.read other ∧
      Trials.read text = Trials.read other ∧
      PartyLog.read text = PartyLog.read other ∧
      Ledger.read text = Ledger.read other := by
  intro text other
  have hothers : ∀ line ∈ others, line.1.getLast? ≠ some '\r' := by
    intro line hline
    have hmem := List.mem_map_of_mem (f := Prod.fst) hline
    rw [← hsame] at hmem
    obtain ⟨line', hline', heq⟩ := List.mem_map.mp hmem
    rw [← heq]
    exact hlines line' hline'
  have hunix : unixNewlines text.toList = unixNewlines other.toList := by
    rw [String.toList_ofList, String.toList_ofList,
      unixNewlines_ended hlines, unixNewlines_ended hothers, hsame]
  have hsplit : Text.lines text.toList = Text.lines other.toList := congrArg splitLines hunix
  refine ⟨?_, ?_, ?_, ?_, ?_, ?_⟩
  · rw [← read_settings_unixNewlines, hunix, read_settings_unixNewlines]
  · unfold HeapLog.read HeapLog.journaled
    rw [hunix]
  · unfold Profile.read
    rw [hunix]
  · unfold Trials.read Trials.journaled
    rw [hunix]
  · unfold PartyLog.read PartyLog.journaled
    rw [hsplit]
  · unfold Ledger.read Ledger.rowLines
    rw [hsplit]

/-- The lines of a log of one section, with a carriage return within the first and an empty line at
the end, their ends by turns the one and the other. -/
def mixedLines (lineEnd other : LineEnd) : List (List Char × LineEnd) :=
  [("heapsize: 8\r9".toList, lineEnd), ("is_optimized: 1".toList, other),
   ("===== Insert Stats =====".toList, lineEnd), ("1 messages sent".toList, other),
   ("2 message bytes sent".toList, lineEnd), ("3 Lamport clock (latencies)".toList, other),
   ("4 local AES operations".toList, lineEnd), ("5 milliseconds wall clock time".toList, other),
   ([], lineEnd)]

/-- Both texts are read as the same log, of which the carriage return ends the heap size. -/
theorem read_ended_mixedLines :
    let text := String.ofList (ended (mixedLines .returnFeed .feed) ++ "ignored".toList)
    let other := String.ofList (ended (mixedLines .feed .returnFeed) ++ "ignored".toList)
    text ≠ other ∧ HeapLog.read text = HeapLog.read other ∧
      HeapLog.read other = .ok ⟨⟨8, 1⟩, [⟨1, 2, 3, 4, 5, none⟩], []⟩ := by
  have hread : HeapLog.read (String.ofList (ended (mixedLines .feed .returnFeed) ++
      "ignored".toList)) = .ok ⟨⟨8, 1⟩, [⟨1, 2, 3, 4, 5, none⟩], []⟩ := by
    decide +kernel
  have hsame : (mixedLines .returnFeed .feed).map Prod.fst =
      (mixedLines .feed .returnFeed).map Prod.fst := rfl
  exact ⟨by decide +kernel, (read_ended hsame (by decide) "ignored".toList).2.1, hread⟩

end BenchLedger.RunLog
