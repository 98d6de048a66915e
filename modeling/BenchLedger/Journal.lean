/-! # Notes on what happens

Work leaves notes, each with a level. A listener hears the notes up to the level chosen; the notes
never change what the work does.

* `Level.ofFlags`: the level that three switches choose.
* `Journaled`: an outcome with the notes that led to it, kept also if the outcome is a failure. -/

namespace BenchLedger

/-- How much is told. -/
inductive Level where
  /-- Nothing. -/
  | quiet
  /-- What is likely a mistake. -/
  | warn
  /-- What was read and changed. -/
  | info
  /-- Each thing found. -/
  | debug
  deriving DecidableEq, Repr, Inhabited

namespace Level

/-- The levels in increasing order. -/
def rank : Level → Nat
  | quiet => 0
  | warn => 1
  | info => 2
  | debug => 3

/-- A listener at this level hears notes of the other. -/
def hears (listener note : Level) : Bool := note.rank ≤ listener.rank

/-- Silence was asked for along with more talk. -/
structure Conflict where
  deriving DecidableEq, Repr

/-- The conflict in words. -/
def Conflict.message (_ : Conflict) : String :=
  "option `--quiet` conflicts with the options `--verbose` and `--debug`"

/-- The level chosen by the switches for more talk, for all of it, and for silence. -/
def ofFlags (verbose debug quiet : Bool) : Except Conflict Level :=
  match verbose, debug, quiet with
  | false, false, false => .ok .warn
  | true, false, false => .ok .info
  | _, true, false => .ok .debug
  | false, false, true => .ok .quiet
  | _, _, true => .error ⟨⟩

end Level

/-- A line for whoever listens at its level. -/
structure Note where
  level : Level
  text : String
  deriving DecidableEq, Repr

/-- An outcome that goes on after another is good if each of the two is. -/
theorem bind_eq_ok {ε α β : Type} {first : Except ε α} {next : α → Except ε β} {result : β} :
    (first >>= next) = .ok result ↔ ∃ value, first = .ok value ∧ next value = .ok result := by
  cases first with
  | error fault => exact ⟨nofun, fun ⟨_, h, _⟩ => nomatch h⟩
  | ok value => exact ⟨fun h => ⟨value, rfl, h⟩, fun ⟨_, h, hnext⟩ => Except.ok.inj h ▸ hnext⟩

/-- An outcome and the notes that led to it. -/
structure Journaled (ε α : Type) where
  notes : List Note
  outcome : Except ε α

namespace Journaled

variable {ε α β : Type}

/-- An outcome without notes. -/
def ofExcept (outcome : Except ε α) : Journaled ε α := ⟨[], outcome⟩

/-- One note. -/
def note (level : Level) (text : String) : Journaled ε Unit := ⟨[⟨level, text⟩], .ok ()⟩

/-- What follows a value, with the notes of both; a failure ends the work. -/
protected def bind (first : Journaled ε α) (next : α → Journaled ε β) : Journaled ε β :=
  match first.outcome with
  | .ok value => ⟨first.notes ++ (next value).notes, (next value).outcome⟩
  | .error fault => ⟨first.notes, .error fault⟩

/-- The outcome with its failure seen in another light. -/
def mapFault {δ : Type} (f : ε → δ) (journaled : Journaled ε α) : Journaled δ α :=
  ⟨journaled.notes, journaled.outcome.mapError f⟩

instance : Monad (Journaled ε) where
  pure value := ⟨[], .ok value⟩
  bind := Journaled.bind

@[simp] theorem outcome_pure (value : α) :
    (pure value : Journaled ε α).outcome = .ok value := rfl

/-- Notes have no part in the outcome. -/
@[simp] theorem outcome_bind (first : Journaled ε α) (next : α → Journaled ε β) :
    (first >>= next).outcome = first.outcome.bind fun value => (next value).outcome := by
  show (first.bind next).outcome = _
  unfold Journaled.bind
  cases first.outcome <;> rfl

/-- Work that goes well goes well at each step. -/
theorem outcome_bind_eq_ok {first : Journaled ε α} {next : α → Journaled ε β} {result : β} :
    (first >>= next).outcome = .ok result ↔
      ∃ value, first.outcome = .ok value ∧ (next value).outcome = .ok result := by
  rw [outcome_bind]
  exact bind_eq_ok

/-- The outcome of a loop is a loop over outcomes. -/
theorem outcome_foldlM (step : α → β → Journaled ε α) (first : α) (items : List β) :
    (items.foldlM step first).outcome =
      items.foldlM (fun value item => (step value item).outcome) first := by
  induction items generalizing first with
  | nil => rfl
  | cons item items ih =>
    rw [List.foldlM_cons, List.foldlM_cons, outcome_bind]
    simp only [ih]
    rfl

end Journaled

end BenchLedger
