import BenchLedger.Text.Cut
import BenchLedger.Text.Digit

/-! # Templates

A template is a fixed layout of text with numbers in it: literal pieces, runs of decimal digits, and
single digits. A run of digits is always taken whole, so a template fits at a place in at most one
way.

* `occurrence?`: what the template reads at the beginning of a text.
* `first?`: the occurrence that starts leftmost.
* `scan`: all occurrences from left to right, none overlapping the one before. -/

namespace BenchLedger.Text

/-- A piece of a template. -/
inductive Piece where
  /-- This text. -/
  | literal (text : List Char)
  /-- A run of decimal digits, all that stand here and at least one. -/
  | number
  /-- One decimal digit. -/
  | digit
  deriving DecidableEq, Repr

/-- A layout of text with numbers in it. -/
abbrev Template := List Piece

/-- A place where a template fits: the text it covers, the digit runs read there in order, and the
text that follows. -/
structure Occurrence where
  covered : List Char
  numbers : List (List Char)
  rest : List Char
  deriving DecidableEq, Repr

namespace Template

/-- The occurrence at the beginning of a text. -/
def occurrence? : Template → List Char → Option Occurrence
  | [], text => some ⟨[], [], text⟩
  | .literal mark :: template, text =>
    (after? mark text).bind fun rest =>
      (occurrence? template rest).map fun o => { o with covered := mark ++ o.covered }
  | .number :: template, text =>
    let run := text.takeWhile isDecimal
    if run = [] then none
    else (occurrence? template (text.dropWhile isDecimal)).map fun o =>
      { o with covered := run ++ o.covered, numbers := run :: o.numbers }
  | .digit :: _, [] => none
  | .digit :: template, c :: text =>
    if isDecimal c then (occurrence? template text).map fun o =>
      { o with covered := c :: o.covered, numbers := [c] :: o.numbers }
    else none

/-- The leftmost occurrence in a text. -/
def first? (template : Template) : List Char → Option Occurrence
  | [] => none
  | c :: text =>
    match occurrence? template (c :: text) with
    | some o => some o
    | none => first? template text

/-- The occurrences that start after the first `skip` characters. -/
def scanFrom (template : Template) : Nat → List Char → List Occurrence
  | _, [] => []
  | skip + 1, _ :: text => scanFrom template skip text
  | 0, c :: text =>
    match occurrence? template (c :: text) with
    | some o => o :: scanFrom template (o.covered.length - 1) text
    | none => scanFrom template 0 text

/-- All occurrences, each starting at the earliest place after the end of the one before. -/
def scan (template : Template) (text : List Char) : List Occurrence := scanFrom template 0 text

/-- **The text covered and the text that follows are the text.** -/
theorem covered_append_rest {template : Template} {text : List Char} {o : Occurrence}
    (h : occurrence? template text = some o) : o.covered ++ o.rest = text := by
  induction template generalizing text o with
  | nil => simp only [occurrence?, Option.some.injEq] at h; subst h; rfl
  | cons piece template ih =>
    cases piece with
    | literal mark =>
      simp only [occurrence?, Option.bind_eq_some_iff, Option.map_eq_some_iff] at h
      obtain ⟨rest, hr, o', ho, rfl⟩ := h
      simp [ih ho, after?_eq_some_iff.1 hr]
    | number =>
      simp only [occurrence?] at h
      split at h
      · simp at h
      · simp only [Option.map_eq_some_iff] at h
        obtain ⟨o', ho, rfl⟩ := h
        simp [ih ho]
    | digit =>
      cases text with
      | nil => simp [occurrence?] at h
      | cons c text =>
        simp only [occurrence?] at h
        split at h
        · simp only [Option.map_eq_some_iff] at h
          obtain ⟨o', ho, rfl⟩ := h
          simp [ih ho]
        · simp at h

end Template

/-- Numbered parts of a place where a layout fits. In some layouts a part can be left out. -/
abbrev Groups := List (Option (List Char))

/-- The groups of an occurrence: the text it covers, then its digit runs. Each takes part. -/
def Occurrence.groups (o : Occurrence) : Groups := (o.covered :: o.numbers).map some

end BenchLedger.Text
