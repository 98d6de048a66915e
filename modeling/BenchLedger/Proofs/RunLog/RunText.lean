import BenchLedger.RunLog.Profile
import BenchLedger.Proofs.RunLog.Numbers
import BenchLedger.Proofs.Text.Readings

/-! # Logs that runs write

The text that a run prints, with its settings and the seven lines of each operation, and the text of
several runs with either end of line (`Run.text`, `written`). Seen from the section of an operation
such a log has three parts: what comes before the section, its lines, and what comes after them
(`Run.toList_text`). Each part has a layout (`reads_before`, `Measured.reads_entry`,
`reads_after`). -/

namespace BenchLedger.RunLog

open Text Template

/-! ### What a run writes -/

/-- The two lines on time and memory, without the end of the second. -/
def Usage.text (usage : Usage) : String :=
  "\x7b" ++ Count.text usage.realNs ++ ";" ++ Count.text usage.userNs ++ ";" ++
    Count.text usage.systemNs ++ "\x7d nanoseconds \x7breal;user;system\x7d\n" ++
  "Mem: " ++ Count.text usage.memoryKib ++ " KiB"

/-- What is measured of one operation. -/
structure Measured where
  messagesSent : UInt64
  messageBytesSent : UInt64
  lamportClock : UInt64
  aesOperations : UInt64
  wallClockMs : UInt64
  usage : Usage
  deriving DecidableEq, Repr

namespace Measured

/-- The record with usage. -/
def full (m : Measured) : Record :=
  ⟨m.messagesSent, m.messageBytesSent, m.lamportClock, m.aesOperations, m.wallClockMs,
    some m.usage⟩

/-- The record without usage. -/
def short (m : Measured) : Record := { m.full with usage := none }

/-- The five lines of counters, without the end of the last. -/
def counterText (m : Measured) : String :=
  Count.text m.messagesSent ++ " messages sent\n" ++
  Count.text m.messageBytesSent ++ " message bytes sent\n" ++
  Count.text m.lamportClock ++ " Lamport clock (latencies)\n" ++
  Count.text m.aesOperations ++ " local AES operations\n" ++
  Count.text m.wallClockMs ++ " milliseconds wall clock time"

/-- The seven lines of an operation, without the end of the last. -/
def text (m : Measured) : String := m.counterText ++ "\n" ++ m.usage.text

end Measured

/-- A run. -/
structure Run where
  /-- The first line says that a run begins. -/
  announced : Bool
  heapsize : UInt64
  isOptimized : Fin 10
  insert : Measured
  extractMin : Measured
  deriving DecidableEq, Repr

namespace Run

/-- The line before the settings. -/
def announcement (run : Run) : String :=
  if run.announced then "running heap experiment\n" else ""

/-- **The log of a run.** -/
def text (run : Run) : String :=
  run.announcement ++
  "heapsize: " ++ Count.text run.heapsize ++ "\n" ++
  "is_optimized: " ++ run.isOptimized.val.repr ++ "\n" ++
  "===== Insert Stats =====\n" ++
  run.insert.text ++ "\n" ++
  "\n" ++
  "===== Extract Min Stats =====\n" ++
  run.extractMin.text ++ "\n"

/-- The settings of a run. -/
def settings (run : Run) : Settings := ⟨run.heapsize, UInt64.ofNat run.isOptimized⟩

/-- What is measured of an operation. -/
def measured (run : Run) : Operation → Measured
  | .insert => run.insert
  | .extractMin => run.extractMin

end Run

/-- How lines end. -/
inductive LineEnd where
  | feed
  | returnFeed
  deriving DecidableEq, Repr

/-- The text with its lines ended so. -/
def LineEnd.apply : LineEnd → List Char → List Char
  | feed, text => text
  | returnFeed, text => text.flatMap fun c => if c = '\n' then ['\r', '\n'] else [c]

/-- **The logs of runs in one text**, with an empty line between one and the next. -/
def written (lineEnd : LineEnd) (runs : List Run) : String :=
  String.ofList (lineEnd.apply ("\n".intercalate (runs.map Run.text)).toList)

example : Run.text ⟨true, 1024, 1,
      ⟨20, 3200, 12, 640, 35, ⟨35000000, 30000000, 2000000, 4096⟩⟩,
      ⟨41, 8800, 30, 1280, 77, ⟨77000000, 70000000, 5000000, 5120⟩⟩⟩ =
    "running heap experiment\nheapsize: 1024\nis_optimized: 1\n===== Insert Stats =====\n" ++
    "20 messages sent\n3200 message bytes sent\n12 Lamport clock (latencies)\n" ++
    "640 local AES operations\n35 milliseconds wall clock time\n" ++
    "\x7b35000000;30000000;2000000\x7d nanoseconds \x7breal;user;system\x7d\nMem: 4096 KiB\n\n" ++
    "===== Extract Min Stats =====\n41 messages sent\n8800 message bytes sent\n" ++
    "30 Lamport clock (latencies)\n1280 local AES operations\n77 milliseconds wall clock time\n" ++
    "\x7b77000000;70000000;5000000\x7d nanoseconds \x7breal;user;system\x7d\nMem: 5120 KiB\n" := by
  decide +kernel

/-! ### The parts of a log -/

/-- The digit runs of the counters. -/
def Measured.counterRuns (m : Measured) : List (List Char) :=
  [m.messagesSent, m.messageBytesSent, m.lamportClock, m.aesOperations, m.wallClockMs].map
    fun n => (Count.text n).toList

/-- The digit runs of the usage. -/
def Usage.runs (usage : Usage) : List (List Char) :=
  usage.values.map fun n => (Count.text n).toList

variable {template : Template} {text rest : List Char} {numbers : List (List Char)}

theorem reads_count (n : UInt64) (h : Reads template text numbers rest) :
    Reads (.number :: template) ((Count.text n).toList ++ text) ((Count.text n).toList :: numbers)
      rest :=
  .number (text_ne_nil n) (fun _ hc => isDecimal_of_isDigit (isDigit_of_mem_text hc)) h

theorem Measured.reads_counters (m : Measured) (rest : List Char) :
    Reads counters (m.counterText.toList ++ rest) m.counterRuns rest := by
  simp only [counterText, String.toList_append, List.append_assoc]
  exact reads_count _ <| .literal _ <| reads_count _ <| .literal _ <| reads_count _ <|
    .literal _ <| reads_count _ <| .literal _ <| reads_count _ <| .literal _ <| .nil rest

theorem Usage.reads_usage (usage : Usage) (rest : List Char) :
    Reads RunLog.usage ('\n' :: (usage.text.toList ++ rest)) usage.runs rest := by
  -- The literal pieces go over the ends of lines, so the text is cut anew.
  have htext : '\n' :: (usage.text.toList ++ rest) =
      "\n\x7b".toList ++ ((Count.text usage.realNs).toList ++ (";".toList ++
        ((Count.text usage.userNs).toList ++ (";".toList ++
          ((Count.text usage.systemNs).toList ++
            ("\x7d nanoseconds \x7breal;user;system\x7d\nMem: ".toList ++
              ((Count.text usage.memoryKib).toList ++ (" KiB".toList ++ rest)))))))) := by
    simp [text]
  rw [htext]
  exact .literal _ <| reads_count _ <| .literal _ <| reads_count _ <| .literal _ <|
    reads_count _ <| .literal _ <| reads_count _ <| .literal _ <| .nil rest

/-- The digit runs of the seven lines. -/
def Measured.runs (m : Measured) : List (List Char) := m.counterRuns ++ m.usage.runs

theorem Measured.toList_text (m : Measured) :
    m.text.toList = m.counterText.toList ++ '\n' :: m.usage.text.toList := by
  simp [text]

theorem Measured.reads_text (m : Measured) (rest : List Char) :
    Reads (counters ++ RunLog.usage) (m.text.toList ++ rest) m.runs rest := by
  rw [toList_text, List.append_assoc]
  exact (m.reads_counters _).append (m.usage.reads_usage rest)

/-- A heading and the seven lines. -/
theorem Measured.reads_entry (m : Measured) (operation : Operation) (rest : List Char) :
    Reads (Profile.entry operation) (operation.heading ++ (m.text.toList ++ rest)) m.runs rest :=
  .literal _ (m.reads_text rest)

namespace Run

/-- The layout of the line before the settings. -/
def announcementLayout (announced : Bool) : Template :=
  [.literal (if announced then "running heap experiment\n".toList else [])]

/-- The layout of the lines up to the heap size. -/
def heapsizeLayout (announced : Bool) : Template :=
  announcementLayout announced ++ [.literal "heapsize: ".toList, .number, .literal "\n".toList]

/-- The lines up to the heap size. -/
def heapsizeText (run : Run) : List Char :=
  run.announcement.toList ++
    ("heapsize: ".toList ++ ((Count.text run.heapsize).toList ++ "\n".toList))

/-- The layout of the lines up to the first section. -/
def settingsLayout (announced : Bool) : Template :=
  heapsizeLayout announced ++ [.literal "is_optimized: ".toList, .digit, .literal "\n".toList]

/-- The lines up to the first section. -/
def settingsText (run : Run) : List Char :=
  run.heapsizeText ++
    ("is_optimized: ".toList ++ (run.isOptimized.val.repr.toList ++ "\n".toList))

/-- The layout of what comes before the section of an operation. -/
def beforeLayout (announced : Bool) : Operation → Template
  | .insert => settingsLayout announced
  | .extractMin => settingsLayout announced ++ (Profile.entry .insert ++ [.literal emptyLine])

/-- What comes before the section of an operation. -/
def before (run : Run) : Operation → List Char
  | .insert => run.settingsText
  | .extractMin => run.settingsText ++
      (Operation.insert.heading ++ (run.insert.text.toList ++ emptyLine))

/-- The layout of what comes after the seven lines of an operation. -/
def afterLayout : Operation → Template
  | .insert => .literal emptyLine :: (Profile.entry .extractMin ++ [.literal "\n".toList])
  | .extractMin => [.literal "\n".toList]

/-- What comes after the seven lines of an operation. -/
def after (run : Run) : Operation → List Char
  | .insert => emptyLine ++
      (Operation.extractMin.heading ++ (run.extractMin.text.toList ++ "\n".toList))
  | .extractMin => "\n".toList

theorem emptyLine_eq : emptyLine = "\n".toList ++ "\n".toList := rfl

/-- **The three parts of a log**, seen from the section of an operation. -/
theorem toList_text (run : Run) (operation : Operation) : run.text.toList =
    run.before operation ++
      (operation.heading ++ ((run.measured operation).text.toList ++ run.after operation)) := by
  have hinsert : "===== Insert Stats =====\n".toList = Operation.insert.heading := by
    decide +kernel
  have hextract : "===== Extract Min Stats =====\n".toList = Operation.extractMin.heading := by
    decide +kernel
  cases operation <;>
    simp only [text, before, after, settingsText, heapsizeText, measured, emptyLine_eq,
      String.toList_append, List.append_assoc, hinsert, hextract]

theorem isOptimized_digit (run : Run) : ∃ c, run.isOptimized.val.repr.toList = [c] ∧
    isDecimal c = true ∧ Count.read [c] = .ok (UInt64.ofNat run.isOptimized) := by
  have hdigit : ∀ d : Fin 10, d.val.repr.toList = [d.val.digitChar] ∧
      isDecimal d.val.digitChar = true ∧
        Count.read [d.val.digitChar] = .ok (UInt64.ofNat d) := by
    decide +kernel
  exact ⟨_, hdigit run.isOptimized⟩

theorem reads_announcement (run : Run) (rest : List Char) :
    Reads (announcementLayout run.announced) (run.announcement.toList ++ rest) [] rest := by
  unfold announcement announcementLayout
  cases run.announced <;> exact .literal _ (.nil rest)

theorem reads_heapsize (run : Run) (rest : List Char) :
    Reads (heapsizeLayout run.announced) (run.heapsizeText ++ rest)
      [(Count.text run.heapsize).toList] rest := by
  rw [heapsizeText]
  simp only [List.append_assoc]
  exact (run.reads_announcement _).append <|
    .literal _ <| reads_count _ <| .literal _ <| .nil rest

theorem reads_isOptimized (run : Run) : ∃ digits,
    Count.read digits = .ok (UInt64.ofNat run.isOptimized) ∧ ∀ rest,
      Reads Settings.isOptimizedTemplate
        ("is_optimized: ".toList ++ (run.isOptimized.val.repr.toList ++ rest)) [digits] rest := by
  obtain ⟨c, hdigit, hc, hread⟩ := run.isOptimized_digit
  refine ⟨[c], hread, fun rest => ?_⟩
  rw [hdigit]
  exact .literal _ (.digit hc (.nil rest))

theorem reads_settings (run : Run) (rest : List Char) : ∃ numbers,
    Reads (settingsLayout run.announced) (run.settingsText ++ rest) numbers rest := by
  obtain ⟨digits, -, hreads⟩ := run.reads_isOptimized
  rw [settingsText]
  simp only [List.append_assoc]
  exact ⟨_, (run.reads_heapsize _).append ((hreads _).append (.literal _ (.nil rest)))⟩

theorem reads_before (run : Run) (operation : Operation) (rest : List Char) : ∃ numbers,
    Reads (beforeLayout run.announced operation) (run.before operation ++ rest) numbers rest := by
  cases operation with
  | insert => exact run.reads_settings rest
  | extractMin =>
    unfold before beforeLayout
    simp only [List.append_assoc]
    obtain ⟨numbers, hsettings⟩ := run.reads_settings
      (Operation.insert.heading ++ (run.insert.text.toList ++ (emptyLine ++ rest)))
    exact ⟨_, hsettings.append ((run.insert.reads_entry .insert _).append (.literal _ (.nil rest)))⟩

theorem reads_after (run : Run) (operation : Operation) (rest : List Char) : ∃ numbers,
    Reads (afterLayout operation) (run.after operation ++ rest) numbers rest := by
  cases operation with
  | insert =>
    unfold after afterLayout
    simp only [List.append_assoc]
    exact ⟨_, .literal _ ((run.extractMin.reads_entry .extractMin _).append
      (.literal _ (.nil rest)))⟩
  | extractMin => exact ⟨_, .literal _ (.nil rest)⟩

end Run

end BenchLedger.RunLog
