import BenchLedger.Text.Lines
import BenchLedger.Proofs.Text.Occurrences

/-! # Ends of lines

A text without the carriage returns that a line feed follows is made piece by piece, unless a piece
ends with a carriage return (`unixNewlines_append`). A layout that covers no end of a line is first
found at the same place with these carriage returns and without (`first?_unixNewlines`). -/

namespace BenchLedger.Text

variable {text rest : List Char} {c : Char}

/-- A text that does not end with a carriage return is a piece of its own. -/
theorem unixNewlines_append (h : text.getLast? ≠ some '\r') (rest : List Char) :
    unixNewlines (text ++ rest) = unixNewlines text ++ unixNewlines rest := by
  induction text using unixNewlines.induct with
  | case1 => rfl
  | case2 text ih =>
    have hlast : text.getLast? ≠ some '\r' := by
      intro hlast
      simp [List.getLast?_cons, hlast] at h
    rw [List.cons_append, List.cons_append, unixNewlines, unixNewlines, ih hlast, List.cons_append]
  | case3 c text hfeed ih =>
    have hfeed' : ∀ after, c = '\r' → text ++ rest = '\n' :: after → False := by
      intro after hc hafter
      cases text with
      | nil => exact h (congrArg some hc)
      | cons d text => exact hfeed text hc (by rw [(List.cons.inj hafter).1])
    have hlast : text.getLast? ≠ some '\r' := by
      intro hlast
      simp [List.getLast?_cons, hlast] at h
    rw [List.cons_append, unixNewlines, unixNewlines, ih hlast, List.cons_append]
    · exact hfeed
    · exact hfeed'

/-! ### What stands within a line -/

/-- The character stands in no end of a line. -/
def IsInner (c : Char) : Prop := c ≠ '\r' ∧ c ≠ '\n'

instance (c : Char) : Decidable (IsInner c) := by unfold IsInner; infer_instance

theorem isInner_of_isDecimal (h : isDecimal c = true) : IsInner c := by
  constructor
  · rintro rfl
    exact absurd h (by decide)
  · rintro rfl
    exact absurd h (by decide)

theorem unixNewlines_return (text : List Char) :
    ∃ d rest, unixNewlines ('\r' :: text) = d :: rest ∧ ¬ IsInner d := by
  cases text with
  | nil => exact ⟨'\r', [], rfl, by decide⟩
  | cons d text =>
    by_cases hd : d = '\n'
    · subst hd
      exact ⟨'\n', unixNewlines text, rfl, by decide⟩
    · refine ⟨'\r', unixNewlines (d :: text), ?_, by decide⟩
      rw [unixNewlines]
      rintro rest - heq
      exact hd (List.cons.inj heq).1

theorem after?_unixNewlines {mark : List Char} (h : ∀ c ∈ mark, IsInner c) (text : List Char) :
    after? mark (unixNewlines text) = (after? mark text).map unixNewlines := by
  induction mark generalizing text with
  | nil => rfl
  | cons m mark ih =>
    obtain ⟨hm, hmark⟩ := List.forall_mem_cons.mp h
    cases text with
    | nil => rfl
    | cons c text =>
      by_cases hc : c = '\r'
      · subst hc
        obtain ⟨d, rest, hd, houter⟩ := unixNewlines_return text
        have hmd : m ≠ d := by
          rintro rfl
          exact houter hm
        rw [hd, after?, if_neg hmd, after?, if_neg hm.1]
        rfl
      · rw [unixNewlines_cons hc, after?, after?]
        split_ifs
        · exact ih hmark text
        · rfl

theorem run_unixNewlines (text : List Char) :
    (unixNewlines text).takeWhile isDecimal = text.takeWhile isDecimal ∧
      (unixNewlines text).dropWhile isDecimal = unixNewlines (text.dropWhile isDecimal) := by
  induction text with
  | nil => exact ⟨rfl, rfl⟩
  | cons c text ih =>
    by_cases hc : c = '\r'
    · subst hc
      obtain ⟨d, rest, hd, houter⟩ := unixNewlines_return text
      have hdigit : ¬ isDecimal d = true := fun h => houter (isInner_of_isDecimal h)
      have hreturn : ¬ isDecimal '\r' = true := by decide
      rw [List.takeWhile_cons_of_neg hreturn, List.dropWhile_cons_of_neg hreturn, hd,
        List.takeWhile_cons_of_neg hdigit, List.dropWhile_cons_of_neg hdigit]
      exact ⟨rfl, rfl⟩
    · rw [unixNewlines_cons hc]
      by_cases hdigit : isDecimal c = true
      · simp only [List.takeWhile_cons_of_pos hdigit, List.dropWhile_cons_of_pos hdigit,
      ih, and_self]
      · simp only [List.takeWhile_cons_of_neg hdigit, List.dropWhile_cons_of_neg hdigit,
          unixNewlines_cons hc, and_self]

/-- The characters that a piece asks for. -/
def Piece.letters : Piece → List Char
  | .literal mark => mark
  | _ => []

namespace Template

variable {template : Template}

/-- The layout covers no end of a line. -/
def WithinLine (template : Template) : Prop :=
  ∀ piece ∈ template, ∀ c ∈ piece.letters, IsInner c

-- The instances are named, as a search for one may find that there are finitely many characters.
instance (template : Template) : Decidable template.WithinLine :=
  @List.decidableBAll Piece (fun piece => ∀ c ∈ piece.letters, IsInner c)
    (fun piece => List.decidableBAll IsInner piece.letters) template

theorem occurrence?_unixNewlines (h : template.WithinLine) (text : List Char) :
    occurrence? template (unixNewlines text) =
      (occurrence? template text).map fun o => { o with rest := unixNewlines o.rest } := by
  induction template generalizing text with
  | nil => rfl
  | cons piece template ih =>
    obtain ⟨hpiece, htemplate⟩ := List.forall_mem_cons.mp h
    cases piece with
    | literal mark =>
      have hafter : after? mark (unixNewlines text) = (after? mark text).map unixNewlines :=
        after?_unixNewlines hpiece text
      simp only [occurrence?, hafter]
      cases after? mark text with
      | none => rfl
      | some rest =>
        rw [Option.map_some, Option.bind_some, Option.bind_some, ih htemplate, Option.map_map,
          Option.map_map]
        rfl
    | number =>
      obtain ⟨htake, hdrop⟩ := run_unixNewlines text
      simp only [occurrence?, htake, hdrop, ih htemplate]
      split_ifs
      · rfl
      · rw [Option.map_map, Option.map_map]
        rfl
    | digit =>
      cases text with
      | nil => rfl
      | cons c text =>
        by_cases hc : c = '\r'
        · subst hc
          obtain ⟨d, rest, hd, houter⟩ := unixNewlines_return text
          have hdigit : ¬ isDecimal d = true := fun h => houter (isInner_of_isDecimal h)
          rw [hd, occurrence?, if_neg hdigit, occurrence?, if_neg (by decide)]
          rfl
        · rw [unixNewlines_cons hc, occurrence?, occurrence?, ih htemplate]
          split_ifs
          · rw [Option.map_map, Option.map_map]
            rfl
          · rfl

theorem occurrence?_of_not_isInner (h : template.WithinLine) (hne : fine template ≠ [])
    (hc : ¬ IsInner c) (rest : List Char) : occurrence? template (c :: rest) = none := by
  have hdigit : ¬ isDecimal c = true := fun hdigit => hc (isInner_of_isDecimal hdigit)
  induction template with
  | nil => exact absurd rfl hne
  | cons piece template ih =>
    obtain ⟨hpiece, htemplate⟩ := List.forall_mem_cons.mp h
    cases piece with
    | literal mark =>
      cases mark with
      | nil =>
        rw [occurrence?, after?, Option.bind_some, ih htemplate hne]
        rfl
      | cons m mark =>
        have hm : m ≠ c := by
          rintro rfl
          exact hc (hpiece m List.mem_cons_self)
        rw [occurrence?, after?, if_neg hm]
        rfl
    | number => rw [occurrence?, List.takeWhile_cons_of_neg hdigit, if_pos rfl]
    | digit => rw [occurrence?, if_neg hdigit]

/-- **The first place with a layout that covers no end of a line.** -/
theorem first?_unixNewlines (h : template.WithinLine) (hne : fine template ≠ [])
    (text : List Char) :
    (first? template (unixNewlines text)).map Occurrence.groups =
      (first? template text).map Occurrence.groups := by
  induction text using unixNewlines.induct with
  | case1 => rfl
  | case2 text ih =>
    -- The layout begins at neither character of the end of a line.
    have hreturn := occurrence?_of_not_isInner h hne (c := '\r') (by decide) ('\n' :: text)
    have hfeed := occurrence?_of_not_isInner h hne (c := '\n') (by decide)
    rw [unixNewlines, first?, hfeed, first?, hreturn, first?, hfeed]
    exact ih
  | case3 c text hfeed ih =>
    have hcons : unixNewlines (c :: text) = c :: unixNewlines text := by
      rw [unixNewlines]
      exact hfeed
    have hhere := occurrence?_unixNewlines h (c :: text)
    rw [hcons] at hhere ⊢
    rw [first?, first?, hhere]
    cases occurrence? template (c :: text) with
    | none => exact ih
    | some o => rfl

end Template

end BenchLedger.Text
