/-! # The first occurrence of a mark

A mark is a fixed text. `cut?` splits a text around the first place where the mark stands. -/

namespace BenchLedger.Text

/-- The text after a mark that it begins with. -/
def after? : List Char → List Char → Option (List Char)
  | [], text => some text
  | _ :: _, [] => none
  | m :: mark, c :: text => if m = c then after? mark text else none

/-- The text before the first occurrence of the mark, and the text after it. -/
def cut? (mark : List Char) : List Char → Option (List Char × List Char)
  | [] => (after? mark []).map fun rest => ([], rest)
  | c :: text =>
    match after? mark (c :: text) with
    | some rest => some ([], rest)
    | none => (cut? mark text).map fun parts => (c :: parts.1, parts.2)

/-- The mark occurs in the text. -/
def contains (mark text : List Char) : Bool := (cut? mark text).isSome

/-- The text up to the first occurrence of the mark, or all of it. -/
def upTo (mark text : List Char) : List Char :=
  match cut? mark text with
  | some (before, _) => before
  | none => text

/-- **A text begins with a mark just if it is the mark and what is left.** -/
theorem after?_eq_some_iff {mark text rest : List Char} :
    after? mark text = some rest ↔ text = mark ++ rest := by
  induction mark generalizing text with
  | nil => simp [after?, eq_comm]
  | cons m mark ih =>
    cases text with
    | nil => simp [after?]
    | cons c text =>
      by_cases h : m = c
      · subst h; simp [after?, ih]
      · have h' : ¬ c = m := fun e => h e.symm
        simp [after?, h, h']

end BenchLedger.Text
