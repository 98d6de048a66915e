import BenchLedger.Proofs.Text.Marks
import BenchLedger.Proofs.Text.Readings

/-! # Parts of a text that a search passes over

In a part of a text that is read by one layout, another template may fit nowhere; whether it can is
seen from the two layouts (`Quiet`). A scan goes over such a part to what follows it
(`scan_skip`), and so does the search for a mark (`cut?_skip`, `upTo_skip`). A part that the
template itself reads is found (`scan_hit`). Between two texts, a mark in which the template fits
nowhere and which stands in nothing that the template covers keeps their occurrences apart
(`Divides.scan`). -/

namespace BenchLedger.Text

open Template

variable {template layout : Template} {text part rest : List Char} {numbers : List (List Char)}
  {o : Occurrence}

namespace Template

/-- **The template fits nowhere in a text of the layout**: wherever the layout goes on, a character
or a digit tells the two apart. What the layout reads is clear, as each of its runs of digits
ends. -/
def Quiet (template layout : Template) : Prop :=
  layout.Delimited = true ∧
    ∀ suffix ∈ (fine layout).tails, suffix ≠ [] → clash (fine template) suffix = true

instance (template layout : Template) : Decidable (template.Quiet layout) := by
  unfold Quiet; infer_instance

theorem occurrence?_eq_none_of_quiet (hq : template.Quiet layout)
    (h : occurrence? layout text = some o) {k : ℕ} (hk : k < o.covered.length) :
    occurrence? template (text.drop k) = none := by
  obtain ⟨suffix, hsuffix, hne, hfits, -⟩ := goesOn_of_lt h hk
  have hclash := hq.2 suffix (List.mem_tails suffix (fine layout) |>.mpr hsuffix) hne
  obtain ⟨there, hthere⟩ := Option.isSome_iff_exists.mp hfits
  rw [Option.eq_none_iff_forall_ne_some]
  intro here hhere
  rw [← occurrence?_fine] at hhere
  exact not_both_of_clash hclash hhere hthere

theorem occurrence?_of_reads_append (hd : layout.Delimited = true)
    (h : Reads layout (part ++ rest) numbers rest) :
    occurrence? layout (part ++ rest) = some ⟨part, numbers, rest⟩ := by
  obtain ⟨covered, ho⟩ := occurrence?_of_reads hd h
  have hcovered : covered = part := List.append_cancel_right (covered_append_rest ho)
  rw [ho, hcovered]

/-! ### Scans -/

theorem scanFrom_eq (template : Template) (skip : ℕ) (text : List Char) :
    scanFrom template skip text = scan template (text.drop skip) := by
  induction text generalizing skip with
  | nil => cases skip <;> rfl
  | cons c text ih =>
    cases skip with
    | zero => rfl
    | succ skip => rw [scanFrom, ih, List.drop_succ_cons]

theorem scan_cons_of_none {c : Char} (h : occurrence? template (c :: text) = none) :
    scan template (c :: text) = scan template text := by
  rw [scan, scanFrom, h]
  rfl

theorem scan_of_none (h : ∀ k < part.length, occurrence? template ((part ++ rest).drop k) = none) :
    scan template (part ++ rest) = scan template rest := by
  induction part with
  | nil => rfl
  | cons c part ih =>
    have hhere := h 0 (Nat.zero_lt_succ _)
    rw [List.cons_append, List.drop_zero] at hhere
    rw [List.cons_append, scan, scanFrom, hhere]
    exact ih fun k hk => h (k + 1) (Nat.succ_lt_succ hk)

/-- **A scan passes over a quiet part.** -/
theorem scan_skip (hq : template.Quiet layout) (h : Reads layout (part ++ rest) numbers rest) :
    scan template (part ++ rest) = scan template rest :=
  scan_of_none fun _ hk => occurrence?_eq_none_of_quiet hq (occurrence?_of_reads_append hq.1 h) hk

/-- **A scan finds what the template reads**, and goes on after it. -/
theorem scan_hit (hne : fine template ≠ []) (h : occurrence? template text = some o) :
    scan template text = o :: scan template o.rest := by
  have hcovered := covered_ne_nil hne h
  have htext := covered_append_rest h
  obtain ⟨c, covered, hc⟩ := List.exists_cons_of_ne_nil hcovered
  rw [hc, List.cons_append] at htext
  subst htext
  rw [scan, scanFrom, h]
  simp only [scanFrom_eq, hc, List.length_cons, Nat.add_sub_cancel, List.drop_left]

theorem first?_eq (template : Template) (text : List Char) :
    first? template text = (scan template text).head? := by
  induction text with
  | nil => rfl
  | cons c text ih =>
    rw [first?, scan, scanFrom]
    cases occurrence? template (c :: text) with
    | some o => rfl
    | none => exact ih

/-- **The leftmost occurrence** starts at a place, and none at a place before. -/
theorem first?_eq_some_iff : first? template text = some o ↔
    ∃ place < text.length, occurrence? template (text.drop place) = some o ∧
      ∀ earlier < place, occurrence? template (text.drop earlier) = none := by
  induction text with
  | nil => simp [first?]
  | cons c text ih =>
    rw [first?]
    cases hhere : occurrence? template (c :: text) with
    | some here =>
      dsimp only
      constructor
      · rintro ⟨⟩
        exact ⟨0, Nat.zero_lt_succ _, hhere, fun _ hlt => absurd hlt (Nat.not_lt_zero _)⟩
      · rintro ⟨place, -, ho, hbefore⟩
        -- Nothing starts before a leftmost occurrence, so it is the one here.
        obtain rfl : place = 0 := by
          by_contra hne
          have hnone := hbefore 0 (Nat.pos_of_ne_zero hne)
          rw [List.drop_zero, hhere] at hnone
          cases hnone
        rwa [List.drop_zero, hhere] at ho
    | none =>
      dsimp only
      rw [ih]
      constructor
      · rintro ⟨place, hlt, ho, hbefore⟩
        refine ⟨place + 1, Nat.succ_lt_succ hlt, ho, fun earlier hearlier => ?_⟩
        cases earlier with
        | zero => exact hhere
        | succ earlier => exact hbefore earlier (Nat.lt_of_succ_lt_succ hearlier)
      · rintro ⟨place, hlt, ho, hbefore⟩
        cases place with
        | zero =>
          rw [List.drop_zero, hhere] at ho
          cases ho
        | succ place =>
          exact ⟨place, Nat.lt_of_succ_lt_succ hlt, ho, fun earlier hearlier =>
            hbefore (earlier + 1) (Nat.succ_lt_succ hearlier)⟩

theorem first?_eq_none_iff : first? template text = none ↔
    ∀ place < text.length, occurrence? template (text.drop place) = none := by
  induction text with
  | nil => simp [first?]
  | cons c text ih =>
    rw [first?]
    cases hhere : occurrence? template (c :: text) with
    | some here =>
      dsimp only
      refine ⟨fun h => (Option.some_ne_none here h).elim, fun h => ?_⟩
      have hnone := h 0 (Nat.zero_lt_succ _)
      rw [List.drop_zero, hhere] at hnone
      cases hnone
    | none =>
      dsimp only
      rw [ih]
      constructor
      · intro h place hlt
        cases place with
        | zero => exact hhere
        | succ place => exact h place (Nat.lt_of_succ_lt_succ hlt)
      · exact fun h place hlt => h (place + 1) (Nat.succ_lt_succ hlt)

/-! ### Texts with a mark between them -/

section Divides

variable {mark : List Char}

/-- **A mark that divides texts** for a template: it stands in nothing that the template covers, and
the template fits nowhere in it. -/
structure Divides (mark : List Char) (template : Template) : Prop where
  absent : Quiet [.literal mark] template
  passed : Quiet template [.literal mark]
  opens : ∀ c ∈ mark.head?, isDecimal c = false
  ne_nil : mark ≠ []

instance (mark : List Char) (template : Template) : Decidable (Divides mark template) :=
  decidable_of_iff (Quiet [.literal mark] template ∧ Quiet template [.literal mark] ∧
      mark.head?.all (fun c => !isDecimal c) = true ∧ mark ≠ [])
    ⟨fun ⟨h₁, h₂, h₃, h₄⟩ => ⟨h₁, h₂, by simpa [Option.all_eq_true] using h₃, h₄⟩,
      fun ⟨h₁, h₂, h₃, h₄⟩ => ⟨h₁, h₂, by simpa [Option.all_eq_true] using h₃, h₄⟩⟩

theorem Divides.head? (h : Divides mark template) (rest : List Char) (c : Char)
    (hc : (mark ++ rest).head? = some c) : isDecimal c = false := by
  obtain ⟨d, marks, rfl⟩ := List.exists_cons_of_ne_nil h.ne_nil
  exact h.opens c hc

theorem Divides.occurrence? (h : Divides mark template) (hnone : occurrence? template text = none)
    (rest : List Char) : occurrence? template (text ++ (mark ++ rest)) = none := by
  rw [Option.eq_none_iff_forall_ne_some]
  intro o ho
  by_cases hle : o.covered.length ≤ text.length
  · obtain ⟨rest', hwithin⟩ := occurrence?_of_append ho hle
    rw [hwithin] at hnone
    cases hnone
  · have habsent := occurrence?_eq_none_of_quiet h.absent ho (Nat.lt_of_not_le hle)
    have hmark : Template.occurrence? [.literal mark] (mark ++ rest) =
      some ⟨mark ++ [], [], rest⟩ :=
      occurrence?_literal.mpr ⟨rest, _, rfl, rfl, rfl⟩
    rw [List.drop_left, hmark] at habsent
    cases habsent

/-- **A scan of texts with a mark between them** finds what it finds in the one and then what it
finds in the other. -/
theorem Divides.scan (h : Divides mark template) (hne : fine template ≠ [])
    (text rest : List Char) :
    (scan template (text ++ (mark ++ rest))).map Occurrence.groups =
      (scan template text).map Occurrence.groups ++ (scan template rest).map Occurrence.groups := by
  induction hlength : text.length using Nat.strongRecOn generalizing text with
  | ind length ih =>
    cases text with
    | nil =>
      have hskip : Template.scan template (mark ++ rest) = Template.scan template rest :=
        scan_skip h.passed (.literal mark (.nil rest))
      rw [List.nil_append, hskip]
      rfl
    | cons c text =>
      cases ho : Template.occurrence? template (c :: text) with
      | some o =>
        have hjoined := occurrence?_append ho (h.head? rest)
        have hshorter : o.rest.length < length := by
          have hpos := List.length_pos_iff.mpr (covered_ne_nil hne ho)
          have hsum := congrArg List.length (covered_append_rest ho)
          rw [List.length_append] at hsum
          omega
        rw [scan_hit hne ho, scan_hit hne hjoined, List.map_cons, List.map_cons, List.cons_append,
          ih _ hshorter o.rest rfl]
        rfl
      | none =>
        have hjoined := h.occurrence? ho rest
        have hshorter : text.length < length := by
          rw [← hlength, List.length_cons]
          exact Nat.lt_succ_self _
        rw [List.cons_append] at hjoined ⊢
        rw [scan_cons_of_none ho, scan_cons_of_none hjoined, ih _ hshorter text rfl]

end Divides

end Template

/-! ### Marks -/

theorem cut?_of_none {mark : List Char}
    (h : ∀ k < part.length, after? mark ((part ++ rest).drop k) = none) :
    cut? mark (part ++ rest) = (cut? mark rest).map fun parts => (part ++ parts.1, parts.2) := by
  induction part with
  | nil => simp
  | cons c part ih =>
    have hhere := h 0 (Nat.zero_lt_succ _)
    rw [List.cons_append, List.drop_zero] at hhere
    rw [List.cons_append, cut?, hhere]
    dsimp only
    rw [ih fun k hk => h (k + 1) (Nat.succ_lt_succ hk), Option.map_map]
    rfl

/-- **The search for a mark passes over a quiet part.** -/
theorem cut?_skip {mark : List Char} (hq : Template.Quiet [.literal mark] layout)
    (h : Reads layout (part ++ rest) numbers rest) :
    cut? mark (part ++ rest) = (cut? mark rest).map fun parts => (part ++ parts.1, parts.2) := by
  refine cut?_of_none fun k hk => ?_
  have hnone := occurrence?_eq_none_of_quiet hq (occurrence?_of_reads_append hq.1 h) hk
  rw [Option.eq_none_iff_forall_ne_some]
  simpa [occurrence?] using hnone

theorem upTo_skip {mark : List Char} (hq : Template.Quiet [.literal mark] layout)
    (h : Reads layout (part ++ rest) numbers rest) :
    upTo mark (part ++ rest) = part ++ upTo mark rest := by
  unfold upTo
  rw [cut?_skip hq h]
  cases cut? mark rest <;> rfl

theorem cut?_mark (mark rest : List Char) : cut? mark (mark ++ rest) = some ([], rest) := by
  have hafter : after? mark (mark ++ rest) = some rest := after?_eq_some_iff.mpr rfl
  cases htext : mark ++ rest with
  | nil => rw [htext] at hafter; rw [cut?, hafter]; rfl
  | cons c text => rw [htext] at hafter; rw [cut?, hafter]

end BenchLedger.Text
