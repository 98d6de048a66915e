import BenchLedger.Text.CharTable

/-! # Words

The words of a text are its longest pieces without white space.

* `words_append_blank`: white space divides words, so words can be found piece by piece.
* `isWord_of_mem_words`, `words_append`: words are words, and a word written before white space is
  read back. -/

namespace BenchLedger.Text

/-- The words of a text. -/
def words : List Char → List (List Char)
  | [] => []
  | c :: text =>
    if isBlank c then words text
    else match text with
      | [] => [[c]]
      | d :: _ =>
        if isBlank d then [c] :: words text
        else match words text with
          | [] => [[c]]
          | word :: rest => (c :: word) :: rest

/-- The text without the white space at its two ends. -/
def trim (text : List Char) : List Char :=
  ((text.dropWhile isBlank).reverse.dropWhile isBlank).reverse

/-- White space only, or nothing. -/
def isBlankLine (text : List Char) : Bool := text.all isBlank

/-- A word before white space or the end is read back. -/
theorem words_append {word rest : List Char} (hw : IsWord word)
    (hr : ∀ c, rest.head? = some c → isBlank c = true) :
    words (word ++ rest) = word :: words rest := by
  obtain ⟨hne, hall⟩ := hw
  induction word with
  | nil => exact absurd rfl hne
  | cons c word ih =>
    have hc : isBlank c = false := hall c List.mem_cons_self
    cases word with
    | nil =>
      cases rest with
      | nil => simp [words, hc]
      | cons d rest =>
        have hd : isBlank d = true := hr d rfl
        simp [words, hc, hd]
    | cons d word =>
      have hd : isBlank d = false := hall d (by simp)
      have ih := ih (by simp) (fun x hx => hall x (List.mem_cons_of_mem _ hx))
      simp only [List.cons_append] at ih ⊢
      rw [words]
      simp only [hc, hd, Bool.false_eq_true, if_false, ih]

/-- White space before a text adds no word. -/
theorem words_cons_blank {c : Char} (h : isBlank c = true) (text : List Char) :
    words (c :: text) = words text := by
  cases text <;> simp [words, h]

/-- A letter is a word of its own, or begins the first word of the text that it stands before. -/
theorem words_cons {c : Char} (h : isBlank c = false) (text : List Char) :
    words (c :: text) =
      match text, words text with
      | [], _ => [[c]]
      | d :: _, found =>
        if isBlank d then [c] :: found
        else match found with
          | [] => [[c]]
          | word :: rest => (c :: word) :: rest := by
  cases text with
  | nil => simp [words, h]
  | cons d text => rw [words]; simp [h]

/-- **Words have letters only, and at least one.** -/
theorem isWord_of_mem_words {text word : List Char} (h : word ∈ words text) : IsWord word := by
  induction text generalizing word with
  | nil => simp [words] at h
  | cons c text ih =>
    cases hc : isBlank c with
    | true => exact ih (by rwa [words_cons_blank hc] at h)
    | false =>
      have single : IsWord [c] := ⟨by simp, by simp [hc]⟩
      rw [words_cons hc] at h
      cases text with
      | nil => rw [List.mem_singleton.1 h]; exact single
      | cons d text =>
        dsimp only at h
        split at h
        · rcases List.mem_cons.1 h with rfl | h
          · exact single
          · exact ih h
        · split at h
          · rw [List.mem_singleton.1 h]; exact single
          · rename_i first rest hw
            rcases List.mem_cons.1 h with rfl | h
            · have hall : ∀ x ∈ first, isBlank x = false :=
                (ih (by rw [hw]; exact List.mem_cons_self)).2
              refine ⟨by simp, fun x hx => ?_⟩
              rcases List.mem_cons.1 hx with rfl | hx
              · exact hc
              · exact hall x hx
            · exact ih (by rw [hw]; exact List.mem_cons_of_mem _ h)

/-- **White space divides the words before it from those after it.** -/
theorem words_append_blank {c : Char} (h : isBlank c = true) (before rest : List Char) :
    words (before ++ c :: rest) = words before ++ words rest := by
  induction before with
  | nil => simp [words, words_cons_blank h]
  | cons d before ih =>
    cases hd : isBlank d with
    | true => rw [List.cons_append, words_cons_blank hd, words_cons_blank hd, ih]
    | false =>
      rw [List.cons_append, words_cons hd, words_cons hd]
      cases before with
      | nil => simp [h, words_cons_blank h]
      | cons e before =>
        rw [List.cons_append] at ih ⊢
        dsimp only
        rw [ih]
        split
        · rfl
        · rename_i he
          have hne : words (e :: before) ≠ [] := by
            rw [words_cons (by simpa using he)]
            cases before with
            | nil => simp
            | cons f before => dsimp only; split <;> (try split) <;> simp
          obtain ⟨first, others, hw⟩ := List.exists_cons_of_ne_nil hne
          simp [hw]

end BenchLedger.Text
