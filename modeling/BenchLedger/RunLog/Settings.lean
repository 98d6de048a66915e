import BenchLedger.RunLog.Quantity

/-! # The settings of a run

Every log states the heap size and whether the optimised variant ran. The first place that looks
like such a statement counts; where it stands in its line does not matter. -/

namespace BenchLedger.RunLog

open Text

/-- What was run. -/
structure Settings where
  heapsize : UInt64
  isOptimized : UInt64
  deriving DecidableEq, Repr, Inhabited

namespace Settings

/-- The statement of the heap size. -/
def heapsizeTemplate : Template := [.literal "heapsize: ".toList, .number]

/-- The statement of the variant: one digit, whatever follows it. -/
def isOptimizedTemplate : Template := [.literal "is_optimized: ".toList, .digit]

/-- The number in the first statement of a quantity. -/
def required (template : Template) (what : Quantity) (text : List Char) : Except Fault UInt64 :=
  match template.first? text with
  | none => .error (.missing what)
  | some o => readGroup o.groups 1 what

/-- The settings that a log states. -/
def read (text : List Char) : Except Fault Settings := do
  let heapsize ← required heapsizeTemplate .heapsize text
  let isOptimized ← required isOptimizedTemplate .isOptimized text
  return ⟨heapsize, isOptimized⟩

end Settings

end BenchLedger.RunLog
