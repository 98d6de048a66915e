import BenchLedger.RunLog.Heap
import BenchLedger.Proofs.Text.Marks
import BenchLedger.Proofs.Text.Occurrences

/-! # Where a section of a heap log ends

The records of an operation are those of all blocks of counters below the first heading and above
the first empty line after the line directly below the heading. So they are those above the first
empty line at all, unless the line directly below the heading is empty and blocks follow
(`HeapLog.read_sections`). -/

namespace BenchLedger.RunLog

open Text

/-! ### Blocks of counters -/

theorem getLast?_fine_counters : (Template.fine counters).getLast? = some (.literal ['e']) := by
  decide +kernel

theorem apart_counters : Template.Apart counters where
  ne_nil := by decide
  clash := by decide +kernel
  ends := fun _ => ⟨'e', getLast?_fine_counters, by decide⟩

/-- Where the body of the first section of an operation begins. -/
def sectionStart? (operation : Operation) (text : List Char) : Option ℕ :=
  (firstPlace? operation.heading text).map (· + operation.heading.length)

/-- The blocks of counters in the first section of an operation, if it ends at the given place. -/
def sectionBlocks (operation : Operation) (text : List Char) (last : ℕ → ℕ) :
    List Groups :=
  match sectionStart? operation text with
  | none => []
  | some start => counters.groupsWithin text start (last start)

/-- The records are those of the blocks. -/
def ReadOff (records : List Record) (blocks : List Groups) : Prop :=
  blocks.mapM (fun groups => Record.ofGroups groups 1 false) = .ok records

theorem readOff_nil : ReadOff [] [] := rfl

theorem eq_nil_of_readOff {blocks : List Groups} (h : ReadOff [] blocks) :
    blocks = [] := by
  cases blocks with
  | nil => rfl
  | cons groups blocks =>
    unfold ReadOff at h
    rw [List.mapM_cons] at h
    obtain ⟨record, -, hrest⟩ := bind_eq_ok.mp h
    obtain ⟨records, -, hall⟩ := bind_eq_ok.mp hrest
    cases hall

theorem ReadOff.unique {records others : List Record} {blocks : List Groups}
    (h : ReadOff records blocks) (h' : ReadOff others blocks) : records = others :=
  Except.ok.inj (h.symm.trans h')

/-! ### The body of a section -/

theorem section?_eq (operation : Operation) (text : List Char) : section? operation text =
    (sectionStart? operation text).map fun start => upTo emptyLine (text.drop start) := by
  unfold section? sectionStart?
  rw [cut?_eq_firstPlace?]
  cases firstPlace? operation.heading text <;> rfl

theorem getLast?_heading (operation : Operation) : operation.heading.getLast? = some '\n' := by
  cases operation <;> rfl

theorem getLast?_take_sectionStart {operation : Operation} {text : List Char} {start : ℕ}
    (h : sectionStart? operation text = some start) :
    start ≤ text.length ∧ (text.take start).getLast? = some '\n' := by
  obtain ⟨place, hplace, rfl⟩ := Option.map_eq_some_iff.mp h
  obtain ⟨hle, hhere, -⟩ := firstPlace?_eq_some_iff.mp hplace
  obtain ⟨rest, hrest⟩ := List.isPrefixOf_iff_prefix.mp hhere
  have hlen := congrArg List.length hrest
  rw [List.length_append, List.length_drop] at hlen
  refine ⟨by omega, ?_⟩
  rw [List.take_add, ← hrest, List.take_left, List.getLast?_append, getLast?_heading]
  rfl

theorem scan_section {operation : Operation} {text : List Char} {start : ℕ}
    (h : sectionStart? operation text = some start) :
    (counters.scan (upTo emptyLine (text.drop start))).map Occurrence.groups =
      counters.groupsWithin text start (emptyLineFrom text (start + 1)) := by
  obtain ⟨hle, hbefore⟩ := getLast?_take_sectionStart h
  obtain ⟨count, hcount, hbody, hend⟩ := upTo_two_feeds text hle
  have hafter : ∀ c, ((text.drop start).drop count).head? = some c → isDecimal c = false := by
    intro c hc
    rw [List.drop_drop, List.head?_drop] at hc
    rcases hend with ⟨hfeed, -⟩ | ⟨hwhole, -⟩
    · obtain rfl := Option.some.inj (hfeed.symm.trans hc)
      decide
    · rw [hwhole, List.getElem?_eq_none le_rfl] at hc
      cases hc
  have hslice := @Template.scan_slice counters (text.take start) ((text.drop start).take count)
    ((text.drop start).drop count) apart_counters (by rw [hbefore]; decide) hafter
  rw [List.append_assoc, List.take_append_drop, List.take_append_drop, List.length_take,
    List.length_take, List.length_drop, Nat.min_eq_left hle, Nat.min_eq_left hcount] at hslice
  unfold emptyLine
  rw [hbody, hslice]
  rcases hend with ⟨hfeed, hend⟩ | ⟨hwhole, hend⟩
  · rw [hend, Template.groupsWithin_succ getLast?_fine_counters (by rw [hfeed]; decide)]
  · rw [hend, hwhole]

/-! ### The records of a log -/

/-- The records of one operation. -/
def HeapLog.records (log : HeapLog) : Operation → List Record
  | .insert => log.insert
  | .extractMin => log.extractMin

theorem outcome_sectionRecords (operation : Operation) (text : List Char) :
    (sectionRecords operation text).outcome =
      ((section? operation text).map fun body =>
        (counters.scan body).mapM (Record.ofOccurrence false)).getD (.ok []) := by
  unfold sectionRecords
  cases section? operation text with
  | none => rfl
  | some body =>
    simp only [Journaled.outcome_bind, Journaled.ofExcept, Option.map_some, Option.getD_some]
    cases (counters.scan body).mapM (Record.ofOccurrence false) <;> rfl

theorem records_of_read {text : String} {log : HeapLog} (h : HeapLog.read text = .ok log)
    (operation : Operation) :
    (sectionRecords operation (unixNewlines text.toList)).outcome =
      .ok (log.records operation) := by
  unfold HeapLog.read HeapLog.journaled at h
  obtain ⟨settings, -, hsections⟩ := Journaled.outcome_bind_eq_ok.mp h
  obtain ⟨insert, hinsert, hlast⟩ := Journaled.outcome_bind_eq_ok.mp hsections
  obtain ⟨extractMin, hextract, hlog⟩ := Journaled.outcome_bind_eq_ok.mp hlast
  obtain rfl := Except.ok.inj hlog
  cases operation with
  | insert => exact hinsert
  | extractMin => exact hextract

theorem readOff_sectionBlocks {text : String} {log : HeapLog} (h : HeapLog.read text = .ok log)
    (operation : Operation) :
    ReadOff (log.records operation) (sectionBlocks operation (unixNewlines text.toList)
      fun start => emptyLineFrom (unixNewlines text.toList) (start + 1)) := by
  have hrecords := records_of_read h operation
  rw [outcome_sectionRecords, section?_eq] at hrecords
  unfold ReadOff sectionBlocks
  cases hstart : sectionStart? operation (unixNewlines text.toList) with
  | none => rwa [hstart] at hrecords
  | some start =>
    rw [hstart] at hrecords
    show (counters.groupsWithin _ start _).mapM _ = _
    rw [← scan_section hstart, List.mapM_map]
    exact hrecords

/-- **The records of a log are those of the blocks in a section that ends at the first empty line
below its first line**; they are those above the first empty line at all just if the first line is
not empty, or if it is and there is no block in the section. -/
theorem HeapLog.read_sections {text : String} {log : HeapLog} (h : HeapLog.read text = .ok log)
    (operation : Operation) :
    let lines := unixNewlines text.toList
    let below := sectionBlocks operation lines fun start => emptyLineFrom lines (start + 1)
    ReadOff (log.records operation) below ∧
      (ReadOff (log.records operation) (sectionBlocks operation lines (emptyLineFrom lines)) ↔
        ∀ start, sectionStart? operation lines = some start → isEmptyLine lines start = true →
          below = []) := by
  have hbelow := readOff_sectionBlocks h operation
  refine ⟨hbelow, ?_⟩
  generalize unixNewlines text.toList = lines at hbelow ⊢
  have hstill : ∀ start, isEmptyLine lines start = true →
      counters.groupsWithin lines start (emptyLineFrom lines start) = [] := by
    intro start hempty
    rw [emptyLineFrom_self hempty, Template.groupsWithin_self apart_counters.ne_nil]
  unfold sectionBlocks at hbelow ⊢
  cases hstart : sectionStart? operation lines with
  | none =>
    rw [hstart] at hbelow
    exact ⟨fun _ start h => absurd h (by simp), fun _ => hbelow⟩
  | some start =>
    rw [hstart] at hbelow
    dsimp only at hbelow ⊢
    constructor
    · rintro habove start' hstart' hempty
      obtain rfl := Option.some.inj hstart'
      rw [hstill start hempty] at habove
      rw [habove.unique readOff_nil] at hbelow
      exact eq_nil_of_readOff hbelow
    · intro hnone
      cases hempty : isEmptyLine lines start with
      | true =>
        rw [hnone start rfl hempty] at hbelow
        rwa [hstill start hempty]
      | false => rwa [emptyLineFrom_succ hempty]

/-- A log with an empty line directly below a heading, and a block below that. -/
def lateLog : String :=
  "heapsize: 8\nis_optimized: 0\n===== Insert Stats =====\n\n" ++
    "1 messages sent\n2 message bytes sent\n3 Lamport clock (latencies)\n" ++
    "4 local AES operations\n5 milliseconds wall clock time\n"

theorem read_lateLog :
    HeapLog.read lateLog = .ok ⟨⟨8, 0⟩, [⟨1, 2, 3, 4, 5, none⟩], []⟩ := by
  decide +kernel

/-- The block below the empty line is read. -/
theorem HeapLog.read_sections_lateLog :
    let lines := unixNewlines lateLog.toList
    ReadOff [⟨1, 2, 3, 4, 5, none⟩]
      (sectionBlocks .insert lines fun start => emptyLineFrom lines (start + 1)) :=
  (HeapLog.read_sections read_lateLog .insert).1

/-- There is no block above the empty line. -/
theorem HeapLog.not_readOff_lateLog :
    ∃ log, HeapLog.read lateLog = .ok log ∧ ¬ ReadOff (log.records .insert)
      (sectionBlocks .insert (unixNewlines lateLog.toList)
        (emptyLineFrom (unixNewlines lateLog.toList))) := by
  refine ⟨_, read_lateLog, fun h => ?_⟩
  obtain ⟨hstart, hempty⟩ :
      sectionStart? .insert (unixNewlines lateLog.toList) = some 53 ∧
        isEmptyLine (unixNewlines lateLog.toList) 53 = true := by
    decide +kernel
  unfold sectionBlocks at h
  rw [hstart] at h
  dsimp only at h
  rw [emptyLineFrom_self hempty, Template.groupsWithin_self apart_counters.ne_nil] at h
  exact absurd (h.unique readOff_nil) (List.cons_ne_nil _ _)

end BenchLedger.RunLog
