import BenchLedger.Text.Words
import BenchLedger.Proofs.Text.LineEnds

/-! # Lines and fields

What the lines of a text and the fields of a line are, said without the scan that finds them: a text
has lines (`HasLines`) and a line has fields (`HasFields`) by the way they are put together. The
scans find exactly these (`hasLines_iff`, `hasFields_iff`). -/

namespace BenchLedger.Text

variable {text line gap word rest : List Char} {ls fields : List (List Char)}

/-! ### Lines -/

/-- **The lines of a text.** A line ends at a line feed, or at a carriage return and a line feed;
the last may end at the end of the text instead, unless it is empty. -/
inductive HasLines : List Char → List (List Char) → Prop where
  | nil : HasLines [] []
  | last {line : List Char} : line ≠ [] → '\n' ∉ line → HasLines line [line]
  | feed {line text : List Char} {ls : List (List Char)} : '\n' ∉ line →
      line.getLast? ≠ some '\r' → HasLines text ls → HasLines (line ++ '\n' :: text) (line :: ls)
  | returnFeed {line text : List Char} {ls : List (List Char)} : '\n' ∉ line →
      HasLines text ls → HasLines (line ++ '\r' :: '\n' :: text) (line :: ls)

theorem unixNewlines_eq_self (h : '\n' ∉ line) : unixNewlines line = line := by
  induction line using unixNewlines.induct with
  | case1 => rfl
  | case2 text ih => simp at h
  | case3 c text hfeed ih =>
    rw [unixNewlines, ih fun hmem => h (List.mem_cons_of_mem c hmem)]
    exact hfeed

theorem unixNewlines_feed (h : '\n' ∉ line) (hlast : line.getLast? ≠ some '\r') (text : List Char) :
    unixNewlines (line ++ '\n' :: text) = line ++ '\n' :: unixNewlines text := by
  rw [unixNewlines_append hlast, unixNewlines_eq_self h, unixNewlines_cons (by decide)]

theorem unixNewlines_returnFeed (h : '\n' ∉ line) (text : List Char) :
    unixNewlines (line ++ '\r' :: '\n' :: text) = line ++ '\n' :: unixNewlines text := by
  induction line with
  | nil => rfl
  | cons c line ih =>
    rw [List.mem_cons, not_or] at h
    have hstep : ∀ after, c = '\r' → line ++ '\r' :: '\n' :: text = '\n' :: after → False := by
      rintro after rfl hafter
      cases line with
      | nil => exact absurd (List.cons.inj hafter).1 (by decide)
      | cons d line => exact h.2 (by rw [(List.cons.inj hafter).1]; exact List.mem_cons_self)
    rw [List.cons_append, unixNewlines, ih h.2, List.cons_append]
    exact hstep

theorem splitLines_last (hne : line ≠ []) (h : '\n' ∉ line) : splitLines line = [line] := by
  induction line with
  | nil => exact absurd rfl hne
  | cons c line ih =>
    rw [List.mem_cons, not_or] at h
    rw [splitLines, if_neg (Ne.symm h.1)]
    cases line with
    | nil => rfl
    | cons d line => rw [ih (List.cons_ne_nil d line) h.2]

theorem lines_of_hasLines (h : HasLines text ls) : lines text = ls := by
  induction h with
  | nil => rfl
  | last hne hfeed => rw [lines, unixNewlines_eq_self hfeed, splitLines_last hne hfeed]
  | feed hfeed hlast _ ih =>
    rw [lines, unixNewlines_feed hfeed hlast, splitLines_append hfeed, ← lines, ih]
  | returnFeed hfeed _ ih =>
    rw [lines, unixNewlines_returnFeed hfeed, splitLines_append hfeed, ← lines, ih]

theorem exists_hasLines (text : List Char) : ∃ ls, HasLines text ls := by
  induction hlength : text.length using Nat.strongRecOn generalizing text with
  | ind n ih =>
    subst hlength
    by_cases hfeed : '\n' ∈ text
    · obtain ⟨line, rest, rfl, hline⟩ := List.eq_append_cons_of_mem hfeed
      obtain ⟨ls, hrest⟩ := ih rest.length (by simp; omega) rest rfl
      by_cases hlast : line.getLast? = some '\r'
      · obtain ⟨before, rfl⟩ := List.getLast?_eq_some_iff.mp hlast
        rw [List.mem_append, not_or] at hline
        rw [List.append_assoc, List.singleton_append]
        exact ⟨before :: ls, .returnFeed hline.1 hrest⟩
      · exact ⟨line :: ls, .feed hline hlast hrest⟩
    · rcases eq_or_ne text [] with rfl | hne
      · exact ⟨[], .nil⟩
      · exact ⟨[text], .last hne hfeed⟩

/-- **The lines of a text are those that it has.** -/
theorem hasLines_iff : HasLines text ls ↔ lines text = ls := by
  refine ⟨lines_of_hasLines, ?_⟩
  rintro rfl
  obtain ⟨ls, h⟩ := exists_hasLines text
  rwa [lines_of_hasLines h]

theorem hasLines_flatMap (h : ∀ line ∈ ls, '\n' ∉ line ∧ line.getLast? ≠ some '\r') :
    HasLines (ls.flatMap (· ++ ['\n'])) ls := by
  induction ls with
  | nil => exact .nil
  | cons line ls ih =>
    obtain ⟨⟨hfeed, hreturn⟩, hls⟩ := List.forall_mem_cons.mp h
    rw [List.flatMap_cons, List.append_assoc, List.singleton_append]
    exact .feed hfeed hreturn (ih hls)

/-! ### Fields -/

theorem mem_intercalate {c separator : Char} {pieces : List (List Char)}
    (h : c ∈ [separator].intercalate pieces) : c = separator ∨ ∃ piece ∈ pieces, c ∈ piece := by
  induction pieces with
  | nil => cases h
  | cons piece pieces ih =>
    cases pieces with
    | nil =>
      rw [List.intercalate_singleton] at h
      exact Or.inr ⟨piece, List.mem_cons_self, h⟩
    | cons next pieces =>
      rw [List.intercalate_cons_cons, List.append_assoc, List.mem_append, List.mem_append,
        List.mem_singleton] at h
      rcases h with h | h | h
      · exact Or.inr ⟨piece, List.mem_cons_self, h⟩
      · exact Or.inl h
      · exact (ih h).imp_right fun ⟨other, hother, hc⟩ =>
          ⟨other, List.mem_cons_of_mem piece hother, hc⟩

/-- White space only. -/
def IsGap (gap : List Char) : Prop := ∀ c ∈ gap, isBlank c = true

/-- **The fields of a line**: words, with white space between any two of them, and with white space
or nothing at the two ends. -/
inductive HasFields : List Char → List (List Char) → Prop where
  | nil {gap : List Char} : IsGap gap → HasFields gap []
  | cons {gap word rest : List Char} {fields : List (List Char)} : IsGap gap → IsWord word →
      (∀ c, rest.head? = some c → isBlank c = true) → HasFields rest fields →
      HasFields (gap ++ (word ++ rest)) (word :: fields)

theorem HasFields.word_append (h : HasFields rest fields) (hword : IsWord word)
    (hrest : ∀ c, rest.head? = some c → isBlank c = true) :
    HasFields (word ++ rest) (word :: fields) :=
  .cons (List.forall_mem_nil _) hword hrest h

theorem words_gap_append (h : IsGap gap) (text : List Char) : words (gap ++ text) = words text := by
  induction gap with
  | nil => rfl
  | cons c gap ih =>
    obtain ⟨hc, hgap⟩ := List.forall_mem_cons.mp h
    rw [List.cons_append, words_cons_blank hc, ih hgap]

theorem words_of_hasFields (h : HasFields line fields) : words line = fields := by
  induction h with
  | nil hgap =>
    have := words_gap_append hgap []
    rwa [List.append_nil] at this
  | cons hgap hword hrest _ ih => rw [words_gap_append hgap, words_append hword hrest, ih]

theorem HasFields.cons_blank {c : Char} (hc : isBlank c = true) (h : HasFields text fields) :
    HasFields (c :: text) fields := by
  cases h with
  | nil hgap => exact .nil (List.forall_mem_cons.mpr ⟨hc, hgap⟩)
  | cons hgap hword hrest h =>
    rw [← List.cons_append]
    exact .cons (List.forall_mem_cons.mpr ⟨hc, hgap⟩) hword hrest h

theorem HasFields.isGap (h : HasFields line []) : IsGap line := by
  cases h with
  | nil hgap => exact hgap

theorem HasFields.cons_letter {c d : Char} (hc : isBlank c = false) (hd : isBlank d = false)
    (h : HasFields (d :: text) (word :: fields)) :
    HasFields (c :: d :: text) ((c :: word) :: fields) := by
  generalize hline : d :: text = line at h
  cases h with
  | @cons gap _ rest _ hgap hword hrest h =>
    -- The letter stands in no gap, so the field begins with it.
    cases gap with
    | nil =>
      rw [List.nil_append, ← List.cons_append]
      have hletters : IsWord (c :: word) :=
        ⟨List.cons_ne_nil c word, List.forall_mem_cons.mpr ⟨hc, hword.2⟩⟩
      exact h.word_append hletters hrest
    | cons e gap =>
      have hblank := hgap e List.mem_cons_self
      rw [← (List.cons.inj hline).1, hd] at hblank
      cases hblank

theorem hasFields_words (line : List Char) : HasFields line (words line) := by
  induction line with
  | nil => exact .nil (List.forall_mem_nil _)
  | cons c text ih =>
    cases hc : isBlank c with
    | true =>
      rw [words_cons_blank hc]
      exact ih.cons_blank hc
    | false =>
      have hletter : IsWord [c] := ⟨List.cons_ne_nil c [], List.forall_mem_singleton.mpr hc⟩
      cases text with
      | nil =>
        rw [words_cons hc]
        have hhead : ∀ e, [].head? = some e → isBlank e = true := nofun
        exact ih.word_append hletter hhead
      | cons d text =>
        rw [words_cons hc]
        dsimp only
        cases hd : isBlank d with
        | true =>
          have hhead : ∀ e, (d :: text).head? = some e → isBlank e = true := by
            rintro e ⟨⟩
            exact hd
          exact ih.word_append hletter hhead
        | false =>
          rw [if_neg Bool.false_ne_true]
          cases hwords : words (d :: text) with
          | nil =>
            rw [hwords] at ih
            have hblank := ih.isGap d List.mem_cons_self
            rw [hd] at hblank
            cases hblank
          | cons word fields =>
            rw [hwords] at ih
            exact ih.cons_letter hc hd

/-- **The words of a line are its fields.** -/
theorem hasFields_iff : HasFields line fields ↔ words line = fields := by
  refine ⟨words_of_hasFields, ?_⟩
  rintro rfl
  exact hasFields_words line

end BenchLedger.Text
