/-! # Lines

A line ends at a line feed. A carriage return directly before the line feed belongs to the line's
end, so the lines of a text are those of the text without such carriage returns. Other carriage
returns are characters of their line, also one at the very end of the text. -/

namespace BenchLedger.Text

/-- Each carriage return that a line feed follows is dropped. -/
def unixNewlines : List Char → List Char
  | [] => []
  | '\r' :: '\n' :: text => '\n' :: unixNewlines text
  | c :: text => c :: unixNewlines text

/-- The pieces that end at a line feed, each without it, and a last piece that ends at the end of
the text, unless it is empty. -/
def splitLines : List Char → List (List Char)
  | [] => []
  | c :: text =>
    if c = '\n' then [] :: splitLines text
    else match splitLines text with
      | [] => [[c]]
      | line :: rest => (c :: line) :: rest

/-- The lines of a text. -/
def lines (text : List Char) : List (List Char) := splitLines (unixNewlines text)

/-- Only a carriage return can be dropped. -/
theorem unixNewlines_cons {c : Char} (h : c ≠ '\r') (text : List Char) :
    unixNewlines (c :: text) = c :: unixNewlines text := by
  rw [unixNewlines]
  intro rest hc
  exact absurd hc h

theorem unixNewlines_of_not_mem {text : List Char} (h : '\r' ∉ text) :
    unixNewlines text = text := by
  induction text with
  | nil => rfl
  | cons c text ih =>
    rw [List.mem_cons, not_or] at h
    rw [unixNewlines_cons fun e => h.1 e.symm, ih h.2]

/-- At a line feed only a carriage return at the end of the text before it is dropped. -/
theorem unixNewlines_append_feed (text rest : List Char) :
    ∃ before, (unixNewlines text = before ∨ unixNewlines text = before ++ ['\r']) ∧
      unixNewlines (text ++ '\n' :: rest) = before ++ '\n' :: unixNewlines rest := by
  induction text using unixNewlines.induct with
  | case1 => exact ⟨[], Or.inl rfl, unixNewlines_cons (by decide) rest⟩
  | case2 text ih =>
    obtain ⟨before, hbefore, hjoined⟩ := ih
    refine ⟨'\n' :: before, ?_, ?_⟩
    · rw [unixNewlines]
      rcases hbefore with hbefore | hbefore
      · exact Or.inl (congrArg ('\n' :: ·) hbefore)
      · exact Or.inr (congrArg ('\n' :: ·) hbefore)
    · rw [List.cons_append, List.cons_append, unixNewlines, hjoined, List.cons_append]
  | case3 c text hfeed ih =>
    by_cases hend : c = '\r' ∧ text = []
    · obtain ⟨rfl, rfl⟩ := hend
      exact ⟨[], Or.inr rfl, by rw [List.singleton_append, unixNewlines, List.nil_append]⟩
    · obtain ⟨before, hbefore, hjoined⟩ := ih
      have hfeed' : ∀ after, c = '\r' → text ++ '\n' :: rest = '\n' :: after → False := by
        intro after hc hafter
        cases text with
        | nil => exact hend ⟨hc, rfl⟩
        | cons d text => exact hfeed text hc (by rw [(List.cons.inj hafter).1])
      refine ⟨c :: before, ?_, ?_⟩
      · rw [unixNewlines]
        · rcases hbefore with hbefore | hbefore
          · exact Or.inl (congrArg (c :: ·) hbefore)
          · exact Or.inr (congrArg (c :: ·) hbefore)
        · exact hfeed
      · rw [List.cons_append, unixNewlines, hjoined, List.cons_append]
        exact hfeed'

/-- A line of its own before other text. -/
theorem splitLines_append {line : List Char} (h : '\n' ∉ line) (text : List Char) :
    splitLines (line ++ '\n' :: text) = line :: splitLines text := by
  induction line with
  | nil => simp [splitLines]
  | cons c line ih =>
    rw [List.mem_cons, not_or] at h
    have hc : c ≠ '\n' := fun e => h.1 e.symm
    simp only [List.cons_append, splitLines, if_neg hc, ih h.2]

end BenchLedger.Text
