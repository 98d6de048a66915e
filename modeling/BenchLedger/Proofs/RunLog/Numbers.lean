import BenchLedger.RunLog.Record
import Mathlib.Data.List.Forall2
import Mathlib.Tactic.Common

/-! # Numbers stated and records read

The digits of a count are read back (`read_text`). Texts that stand for quantities, in the order of
a log, have a first one that is no number, or none (`firstFault?`). A record is read off the digit
runs of its block: it holds all their numbers, or the first fault among them is reported
(`read_block`), and so for any number of blocks (`read_blocks`). -/

namespace BenchLedger.RunLog

open Text

/-! ### Counts -/

theorem readDigits_cons (value : ℕ) (c : Char) (run : List Char) :
    Count.readDigits value (c :: run) =
      match digitValue? c with
      | none => .error .badDigit
      | some digit =>
        if 10 * value + digit < UInt64.size then Count.readDigits (10 * value + digit) run
        else .error .tooLarge := rfl

theorem le_ofDigitChars (run : List Char) (value : ℕ) : value ≤ Nat.ofDigitChars 10 run value := by
  rw [Nat.ofDigitChars_eq_ofDigitChars_zero]
  have hpow : 0 < 10 ^ run.length := Nat.pow_pos (by decide)
  have := Nat.le_mul_of_pos_left value hpow
  omega

theorem readDigits_run {run : List Char} (h : ∀ c ∈ run, c.isDigit = true) {value : ℕ}
    (hlt : Nat.ofDigitChars 10 run value < UInt64.size) :
    Count.readDigits value run = .ok (Nat.ofDigitChars 10 run value) := by
  induction run generalizing value with
  | nil => rfl
  | cons c run ih =>
    have hc : digitValue? c = some (c.toNat - '0'.toNat) := if_pos (h c List.mem_cons_self)
    rw [Nat.ofDigitChars_cons] at hlt ⊢
    rw [readDigits_cons, hc]
    dsimp only
    rw [if_pos (Nat.lt_of_le_of_lt (le_ofDigitChars run _) hlt)]
    exact ih (fun d hd => h d (List.mem_cons_of_mem c hd)) hlt

theorem toList_text (n : UInt64) : (Count.text n).toList = Nat.toDigits 10 n.toNat :=
  Nat.toList_repr

theorem text_ne_nil (n : UInt64) : (Count.text n).toList ≠ [] := by
  rw [toList_text]
  exact Nat.toDigits_ne_nil

theorem isDigit_of_mem_text {n : UInt64} {c : Char} (h : c ∈ (Count.text n).toList) :
    c.isDigit = true := by
  rw [toList_text] at h
  exact Nat.isDigit_of_mem_toDigits (by decide) (by decide) h

theorem read_cons_of_ne {c : Char} {run : List Char} (hc : c ≠ '+') :
    Count.read (c :: run) = (Count.readDigits 0 (c :: run)).map UInt64.ofNat := by
  unfold Count.read
  split
  · next heq => cases heq
  · next heq => exact absurd (List.cons.inj heq).1 hc
  · next heq => exact absurd (List.cons.inj heq).1 hc
  · rfl

/-- **A count is read back.** -/
theorem read_text (n : UInt64) : Count.read (Count.text n).toList = .ok n := by
  have hdigits : ∀ c ∈ (Count.text n).toList, c.isDigit = true := fun c hc =>
    isDigit_of_mem_text hc
  have hvalue : Nat.ofDigitChars 10 (Count.text n).toList 0 = n.toNat := by
    rw [toList_text, Nat.ofDigitChars_ten_toDigits]
  have hread : Count.readDigits 0 (Count.text n).toList = .ok n.toNat := by
    rw [readDigits_run hdigits (by rw [hvalue]; exact n.toNat_lt), hvalue]
  obtain ⟨c, run, hrun⟩ := List.exists_cons_of_ne_nil (text_ne_nil n)
  have hplus : c ≠ '+' := by
    rintro rfl
    have hdigit := hdigits '+' (by rw [hrun]; exact List.mem_cons_self)
    exact absurd hdigit (by decide)
  rw [hrun] at hread ⊢
  rw [read_cons_of_ne hplus, hread]
  exact congrArg Except.ok UInt64.ofNat_toNat

theorem readQuantity_text (what : Quantity) (n : UInt64) :
    readQuantity what (Count.text n).toList = .ok n := by
  rw [readQuantity, read_text]

/-! ### Texts that state numbers -/

/-- A quantity and the text that stands for its number. -/
abbrev Stated := Quantity × List Char

/-- **The first text that is no number**, as a fault. -/
def firstFault? (stated : List Stated) : Option Fault :=
  stated.findSome? fun s =>
    match Count.read s.2 with
    | .ok _ => none
    | .error why => some (.badNumber s.1 (String.ofList s.2) why)

variable {what : Quantity} {text : List Char} {stated : List Stated} {n : UInt64} {fault : Fault}

theorem firstFault?_cons_ok (h : readQuantity what text = .ok n) :
    firstFault? ((what, text) :: stated) = firstFault? stated := by
  unfold readQuantity at h
  split at h
  · next hread => simp [firstFault?, hread]
  · cases h

theorem firstFault?_cons_error (h : readQuantity what text = .error fault) :
    firstFault? ((what, text) :: stated) = some fault := by
  unfold readQuantity at h
  split at h
  · cases h
  · next hread =>
    cases h
    simp [firstFault?, hread]

theorem read_of_readQuantity (h : readQuantity what text = .ok n) : Count.read text = .ok n := by
  unfold readQuantity at h
  split at h
  · next hread =>
    cases h
    exact hread
  · cases h

theorem firstFault?_append (stated more : List Stated) :
    firstFault? (stated ++ more) = (firstFault? stated).or (firstFault? more) := by
  simp [firstFault?, List.findSome?_append]

/-! ### Records -/

/-- The quantities of a block, in the order of the log. -/
def blockQuantities (withUsage : Bool) : List Quantity :=
  [.messagesSent, .messageBytesSent, .lamportClock, .aesOperations, .wallClockMs] ++
    if withUsage then [.realNs, .userNs, .systemNs, .memoryKib] else []

/-- The digit runs of a block with what they stand for. -/
def blockStated (withUsage : Bool) (numbers : List (List Char)) : List Stated :=
  (blockQuantities withUsage).zip numbers

/-- The numbers of a usage, in the order of the log. -/
def Usage.values (usage : Usage) : List UInt64 :=
  [usage.realNs, usage.userNs, usage.systemNs, usage.memoryKib]

/-- The numbers of a record, in the order of the log. -/
def Record.values (record : Record) : List UInt64 :=
  [record.messagesSent, record.messageBytesSent, record.lamportClock, record.aesOperations,
    record.wallClockMs] ++ (record.usage.map Usage.values).getD []

theorem length_blockQuantities (withUsage : Bool) :
    (blockQuantities withUsage).length = 5 + if withUsage then 4 else 0 := by
  cases withUsage <;> rfl

theorem length_values (record : Record) :
    record.values.length = 5 + if record.usage.isSome then 4 else 0 := by
  obtain ⟨a, b, c, d, e, used⟩ := record
  cases used <;> rfl

theorem isSome_usage {record : Record} {withUsage : Bool}
    (h : record.values.length = 5 + if withUsage then 4 else 0) :
    record.usage.isSome = withUsage := by
  rw [length_values] at h
  cases hused : record.usage.isSome <;> cases withUsage <;> simp_all

/-- **The record holds these numbers**, and no others. -/
def Record.Holds (record : Record) (numbers : List (List Char)) : Prop :=
  numbers.map Count.read = record.values.map .ok

/-- What comes of texts that state numbers: a value that fits, or the first fault. -/
def Comes {α : Type} (outcome : Except Fault α) (stated : List Stated) (Fits : α → Prop) : Prop :=
  match firstFault? stated with
  | some fault => outcome = .error fault
  | none => ∃ value, outcome = .ok value ∧ Fits value

section Comes

variable {α β : Type} {outcome : Except Fault α} {Fits : α → Prop}

theorem Comes.nil {value : α} (h : Fits value) : Comes (.ok value) [] Fits := ⟨value, rfl, h⟩

theorem Comes.cons {next : UInt64 → Except Fault α}
    (h : ∀ n, Count.read text = .ok n → Comes (next n) stated Fits) :
    Comes ((readQuantity what text).bind next) ((what, text) :: stated) Fits := by
  unfold Comes at h ⊢
  cases hread : readQuantity what text with
  | error fault =>
    rw [firstFault?_cons_error hread]
    rfl
  | ok n =>
    rw [firstFault?_cons_ok hread]
    exact h n (read_of_readQuantity hread)

theorem Comes.bind {next : α → Except Fault β} {more : List Stated} {FitsNext : β → Prop}
    (h : Comes outcome stated Fits)
    (hnext : ∀ value, Fits value → Comes (next value) more FitsNext) :
    Comes (outcome.bind next) (stated ++ more) FitsNext := by
  unfold Comes at h hnext ⊢
  rw [firstFault?_append]
  cases hfault : firstFault? stated with
  | some fault =>
    rw [hfault] at h
    rw [h]
    rfl
  | none =>
    rw [hfault] at h
    obtain ⟨value, rfl, hvalue⟩ := h
    exact hnext value hvalue

theorem Comes.map {f : α → β} {FitsNext : β → Prop} (h : Comes outcome stated Fits)
    (hf : ∀ value, Fits value → FitsNext (f value)) : Comes (outcome.map f) stated FitsNext := by
  unfold Comes at h ⊢
  cases hfault : firstFault? stated with
  | some fault =>
    rw [hfault] at h
    rw [h]
    rfl
  | none =>
    rw [hfault] at h
    obtain ⟨value, rfl, hvalue⟩ := h
    exact ⟨f value, rfl, hf value hvalue⟩

theorem Comes.bind_ok {f : α → β} {FitsNext : β → Prop} (h : Comes outcome stated Fits)
    (hf : ∀ value, Fits value → FitsNext (f value)) :
    Comes (outcome.bind fun value => .ok (f value)) stated FitsNext := by
  have hnext := h.bind fun value hvalue => Comes.nil (hf value hvalue)
  rwa [List.append_nil] at hnext

theorem Comes.of_eq_ok {value : α} (h : Comes outcome stated Fits)
    (hvalue : outcome = .ok value) : Fits value := by
  unfold Comes at h
  subst hvalue
  cases hfault : firstFault? stated with
  | some fault =>
    rw [hfault] at h
    cases h
  | none =>
    rw [hfault] at h
    obtain ⟨value', hvalue', hfits⟩ := h
    obtain rfl := Except.ok.inj hvalue'
    exact hfits

end Comes

/-- **The record of a block.** -/
theorem read_block {withUsage : Bool} {o : Occurrence}
    (h : o.numbers.length = (blockQuantities withUsage).length) :
    Comes (Record.ofOccurrence withUsage o) (blockStated withUsage o.numbers)
      fun record => record.Holds o.numbers := by
  obtain ⟨covered, numbers, rest⟩ := o
  cases withUsage with
  | false =>
    match numbers, h with
    | [a, b, c, d, e], _ =>
      refine .cons fun a' ha => .cons fun b' hb => .cons fun c' hc => .cons fun d' hd =>
        .cons fun e' he => .nil ?_
      simp [Record.Holds, Record.values, ha, hb, hc, hd, he]
  | true =>
    match numbers, h with
    | [a, b, c, d, e, real, user, system, memory], _ =>
      have husage : Comes (Record.usageOfGroups (covered :: [a, b, c, d, e, real, user, system,
          memory]) 6) ([.realNs, .userNs, .systemNs, .memoryKib].zip [real, user, system, memory])
          fun usage => [real, user, system, memory].map Count.read = usage.values.map .ok := by
        refine .cons fun r' hr => .cons fun u' hu => .cons fun s' hs => .cons fun m' hm => .nil ?_
        simp [Usage.values, hr, hu, hs, hm]
      have hsome : Comes ((Record.usageOfGroups (covered :: [a, b, c, d, e, real, user, system,
          memory]) 6).map some)
          ([.realNs, .userNs, .systemNs, .memoryKib].zip [real, user, system, memory])
          fun usage => [real, user, system, memory].map Count.read =
            ((usage.map Usage.values).getD []).map .ok := husage.map fun usage hvalues => hvalues
      refine .cons fun a' ha => .cons fun b' hb => .cons fun c' hc => .cons fun d' hd =>
        .cons fun e' he => hsome.bind_ok fun usage hvalues => ?_
      simpa [Record.Holds, Record.values, ha, hb, hc, hd, he] using hvalues

/-- **The records of blocks**, one after the other. -/
theorem read_blocks {withUsage : Bool} {blocks : List Occurrence}
    (h : ∀ o ∈ blocks, o.numbers.length = (blockQuantities withUsage).length) :
    Comes (blocks.mapM (Record.ofOccurrence withUsage))
      (blocks.flatMap fun o => blockStated withUsage o.numbers)
      fun records => List.Forall₂ Record.Holds records (blocks.map Occurrence.numbers) := by
  induction blocks with
  | nil => exact .nil .nil
  | cons o blocks ih =>
    rw [List.forall_mem_cons] at h
    rw [List.mapM_cons, List.flatMap_cons]
    refine (read_block h.1).bind fun record hrecord => (ih h.2).map fun records hrecords => ?_
    exact .cons hrecord hrecords

end BenchLedger.RunLog
