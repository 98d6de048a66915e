import BenchLedger.Proofs.Table.Columns
import Mathlib.Algebra.Order.BigOperators.Group.List

/-! # Titles

A table that fits its titles has a column for each title but the last, longer than the title by the
gap. So there are as many spaces between two titles as the gap has (`gaps_fitting`), the titles
begin where their columns do, as all cells that fit, and the columns with the last title are as long
as the line of the titles, which is the length of the rule (`rule_fitting`). -/

namespace BenchLedger.Table

variable {cells titles : List String} {widths : List ℕ} {gap : ℕ}

/-! ### The line of the titles -/

/-- The spaces between the titles. -/
def between (titles : List String) (gap : ℕ) : List String :=
  List.replicate (titles.length - 1) (String.ofList (List.replicate gap ' '))

theorem widths_fitting_cons (first second : String) (titles : List String) (gap : ℕ)
    (plain : Bool) : (fitting (first :: second :: titles) gap plain).widths =
      (first.length + gap) :: (fitting (second :: titles) gap plain).widths := rfl

theorem gaps_fitting (hgap : 1 ≤ gap) (plain : Bool) (titles : List String) :
    gaps (fitting titles gap plain).widths titles = between titles gap := by
  induction titles with
  | nil => rfl
  | cons first titles ih =>
    cases titles with
    | nil => rfl
    | cons second titles =>
      rw [widths_fitting_cons, gaps_cons, ih, padding, Nat.add_sub_cancel_left, max_eq_left hgap]
      rfl

/-- **The titles fit.** -/
theorem fits_fitting (hgap : 1 ≤ gap) (plain : Bool) (titles : List String) :
    Fits (fitting titles gap plain).widths titles := by
  induction titles with
  | nil => exact fun _ hpair => absurd hpair List.not_mem_nil
  | cons first titles ih =>
    cases titles with
    | nil => exact fun _ hpair => absurd hpair List.not_mem_nil
    | cons second titles =>
      rw [widths_fitting_cons]
      exact List.forall_mem_cons.mpr ⟨Nat.lt_add_of_pos_right hgap, ih⟩

theorem mem_weave {c : Char} {texts gaps : List String} (h : c ∈ (weave texts gaps).toList) :
    (∃ text ∈ texts, c ∈ text.toList) ∨ ∃ gap ∈ gaps, c ∈ gap.toList := by
  induction texts, gaps using weave.induct with
  | case1 text texts gap gaps ih =>
    rw [weave_cons, String.toList_append, String.toList_append, List.mem_append,
      List.mem_append] at h
    rcases h with (h | h) | h
    · exact .inl ⟨text, List.mem_cons_self, h⟩
    · exact .inr ⟨gap, List.mem_cons_self, h⟩
    · obtain ⟨other, hother, hc⟩ | ⟨other, hother, hc⟩ := ih h
      · exact .inl ⟨other, List.mem_cons_of_mem text hother, hc⟩
      · exact .inr ⟨other, List.mem_cons_of_mem gap hother, hc⟩
  | case2 texts gaps hends =>
    have hjoin : weave texts gaps = String.join texts := by
      unfold weave
      split
      · exact absurd rfl (hends _ _ _ _ rfl)
      · rfl
    rw [hjoin, String.toList_join, List.mem_flatMap] at h
    exact .inl h

theorem no_newline_between (titles : List String) (gap : ℕ) :
    ∀ spaces ∈ between titles gap, '\n' ∉ spaces.toList := by
  intro spaces hspaces hnewline
  rw [List.eq_of_mem_replicate hspaces, String.toList_ofList] at hnewline
  exact absurd (List.eq_of_mem_replicate hnewline) (by decide)

/-! ### Lengths -/

theorem length_weave (h : Covers cells widths) (hfits : Fits widths cells) :
    (weave cells (gaps widths cells)).length = widths.sum + (cells.getLast h.ne_nil).length := by
  induction h with
  | last cell =>
    rw [gaps, List.zipWith_nil_left, weave_singleton, List.sum_nil, Nat.zero_add]
    rfl
  | cons cell width hmore ih =>
    obtain ⟨hcell, hcells⟩ := List.forall_mem_cons.mp hfits
    rw [gaps_cons, weave_cons, String.length_append, String.length_append, length_cell_padding,
      max_eq_left hcell, ih hcells, List.sum_cons, List.getLast_cons hmore.ne_nil, Nat.add_assoc]

theorem covers_fitting (hne : titles ≠ []) (gap : ℕ) (plain : Bool) :
    Covers titles (fitting titles gap plain).widths :=
  covers_of_length (length_titles hne gap plain)

/-- **The rule is as long as the line of the titles.** -/
theorem rule_fitting (hne : titles ≠ []) (hgap : 1 ≤ gap) (plain : Bool) :
    (fitting titles gap plain).rule =
      String.ofList (List.replicate (weave titles (between titles gap)).length '-') := by
  rw [← gaps_fitting hgap plain, length_weave (covers_fitting hne gap plain)
    (fits_fitting hgap plain titles)]
  unfold rule
  have hlast : (fitting titles gap plain).titles.getLast? = some (titles.getLast hne) :=
    List.getLast?_eq_some_getLast hne
  rw [hlast]
  rfl

/-! ### The rows of the titles -/

theorem writes_titles (hne : titles ≠ []) (hgap : 1 ≤ gap) (paint : String → String) :
    Writes ((fitting titles gap false).writeRow paint titles)
      (weave (titles.map paint) (between titles gap) ++ "\n") := by
  intro output
  rw [on_writeRow, row_eq_weave rfl paint (length_titles hne gap false), gaps_fitting hgap]

theorem writes_titles_rule (hne : titles ≠ []) (hgap : 1 ≤ gap) (color : Bool) :
    Writes ((fitting titles gap false).writeTitles color)
      (weave (titles.map (if color then emphasized else id)) (between titles gap) ++ "\n" ++
        (String.ofList (List.replicate (weave titles (between titles gap)).length '-')
        ++ "\n")) := by
  rw [← rule_fitting hne hgap false]
  exact (writes_titles hne hgap _).bind (writes_emit _)

theorem writes_titles_plain (hne : titles ≠ []) (gap : ℕ) (color : Bool) :
    Writes ((fitting titles gap true).writeTitles color) ("\t".intercalate titles ++ "\n") := by
  intro output
  show ((fitting titles gap true).writeRow id titles).on output = _
  rw [on_writeRow, row_eq (length_titles hne gap true), List.map_id]
  rfl

/-! ### Columns that are not too wide -/

theorem fitting?_eq_some {plain : Bool}
    (h : ∀ width ∈ (fitting titles gap plain).widths, width ≤ maxText) :
    fitting? titles gap plain = some (fitting titles gap plain) :=
  if_pos (List.all_eq_true.mpr fun width hwidth => decide_eq_true (h width hwidth))

theorem fitting?_of_line (hne : titles ≠ []) (hgap : 1 ≤ gap)
    (h : (weave titles (between titles gap)).length ≤ maxText) (plain : Bool) :
    fitting? titles gap plain = some (fitting titles gap plain) := by
  refine fitting?_eq_some fun width hwidth => ?_
  rw [← gaps_fitting hgap plain, length_weave (covers_fitting hne gap plain)
    (fits_fitting hgap plain titles)] at h
  have hsum := List.single_le_sum (fun _ _ => Nat.zero_le _) width hwidth
  omega

theorem fitting?_of_titles (h : ∀ title ∈ titles.dropLast, title.length + gap ≤ maxText)
    (plain : Bool) : fitting? titles gap plain = some (fitting titles gap plain) := by
  refine fitting?_eq_some fun width hwidth => ?_
  obtain ⟨title, htitle, rfl⟩ := List.mem_map.mp hwidth
  exact h title htitle

/-- **Titles, emphasized or not, with the rule and the data below them.** In a table laid out for
reading there are as many spaces between two titles as the gap has, also if they are painted. The
rule is as long as the titles without paint, and cells that fit begin where the titles do. In a
plain table there are tabs between the titles, and neither paint nor rule. This is so if a text can
be as long as the line of the titles, or, in a plain table, as a title and the gap. -/
theorem writeTitles_agree (hne : titles ≠ []) (hgap : 1 ≤ gap)
    (hlines : ∀ title ∈ titles, '\n' ∉ title.toList) :
    let line := weave titles (between titles gap)
    let rule := String.ofList (List.replicate line.length '-')
    (line.length ≤ maxText → ∃ laid, fitting? titles gap false = some laid ∧
      '\n' ∉ line.toList ∧
      Writes (laid.writeTitles false) (line ++ "\n" ++ (rule ++ "\n")) ∧
      Writes (laid.writeTitles true)
        (weave (titles.map emphasized) (between titles gap) ++ "\n" ++ (rule ++ "\n")) ∧
      (∀ paint, Writes (laid.writeRow paint titles)
        (weave (titles.map paint) (between titles gap) ++ "\n")) ∧
      ∀ cells, cells.length = titles.length → Fits laid.widths cells →
        Writes (laid.writeData cells) (weave cells (gaps laid.widths cells) ++ "\n") ∧
          ∀ i < titles.length, Begins titles (between titles gap) i (laid.widths.take i).sum ∧
            Begins cells (gaps laid.widths cells) i (laid.widths.take i).sum) ∧
    ((∀ title ∈ titles.dropLast, title.length + gap ≤ maxText) →
      ∃ tabbed, fitting? titles gap true = some tabbed ∧
        ∀ color, Writes (tabbed.writeTitles color) ("\t".intercalate titles ++ "\n")) := by
  have htitles := covers_fitting hne gap false
  refine ⟨fun hshort => ⟨_, fitting?_of_line hne hgap hshort false, fun hnewline => ?_, ?_,
    writes_titles_rule hne hgap true, writes_titles hne hgap, fun cells hcells hfits => ?_⟩,
    fun hshort => ⟨_, fitting?_of_titles hshort true, writes_titles_plain hne gap⟩⟩
  · obtain ⟨title, htitle, h⟩ | ⟨spaces, hspaces, h⟩ := mem_weave hnewline
    · exact hlines title htitle h
    · exact no_newline_between titles gap spaces hspaces h
  · have h := writes_titles_rule hne hgap false
    rwa [if_neg Bool.false_ne_true, List.map_id] at h
  · have hlength := hcells.trans (length_titles hne gap false)
    have hcovers := covers_of_length hlength
    refine ⟨writes_data rfl hlength, fun i hi => ⟨?_, ?_⟩⟩
    · have h := begins_column htitles hi
      rwa [gaps_fitting hgap, column_of_fits htitles (fits_fitting hgap false titles)] at h
    · have h := begins_column hcovers (hi.trans_eq hcells.symm)
      rwa [column_of_fits hcovers hfits] at h

/-- Letters of more than one byte in the titles. -/
theorem writeTitles_agree_umlauts :
    let titles := ["größe", "n"]
    let cells := ["12", "345"]
    (titles ≠ [] ∧ 1 ≤ 2 ∧ ∀ title ∈ titles, '\n' ∉ title.toList) ∧
      (∃ laid, fitting? titles 2 false = some laid ∧
        Writes (laid.writeTitles false) "größe  n\n--------\n" ∧
        Writes (laid.writeTitles true)
          "\x1b[1;3mgröße\x1b[0m  \x1b[1;3mn\x1b[0m\n--------\n" ∧
        Begins titles (between titles 2) 1 7 ∧ Begins cells (gaps laid.widths cells) 1 7) ∧
      ∃ tabbed, fitting? titles 2 true = some tabbed ∧
        Writes (tabbed.writeTitles true) "größe\tn\n" := by
  intro titles cells
  have hne : titles ≠ [] := by decide
  have hgap : 1 ≤ 2 := by decide
  have hlines : ∀ title ∈ titles, '\n' ∉ title.toList := by decide +kernel
  obtain ⟨hlaid, htabbed⟩ := writeTitles_agree hne hgap hlines
  obtain ⟨laid, hlaid, -, hplain, hcolored, -, hdata⟩ := hlaid (by decide +kernel)
  obtain ⟨tabbed, htabbed, htabs⟩ := htabbed (by decide +kernel)
  obtain rfl : fitting titles 2 false = laid :=
    Option.some.inj ((fitting?_of_line hne hgap (by decide +kernel) false).symm.trans hlaid)
  have hrow := hdata cells rfl (by decide +kernel)
  have hrule : String.ofList (List.replicate (weave titles (between titles 2)).length '-') ++ "\n" =
      "--------\n" := by decide +kernel
  rw [hrule] at hplain hcolored
  have hline : weave titles (between titles 2) ++ "\n" ++ "--------\n" =
      "größe  n\n--------\n" := by decide +kernel
  have hbold : weave (titles.map emphasized) (between titles 2) ++ "\n" ++ "--------\n" =
      "\x1b[1;3mgröße\x1b[0m  \x1b[1;3mn\x1b[0m\n--------\n" := by decide +kernel
  have htab : "\t".intercalate titles ++ "\n" = "größe\tn\n" := by decide +kernel
  rw [hline] at hplain
  rw [hbold] at hcolored
  exact ⟨⟨hne, hgap, hlines⟩, ⟨_, hlaid, hplain, hcolored, hrow.2 1 (by decide)⟩,
    ⟨tabbed, htabbed, htab ▸ htabs true⟩⟩

/-- **A gap that is too wide** leaves no table, plain or not. -/
theorem fitting?_widest :
    fitting? ["a", "b"] (2 ^ 63) false = none ∧ fitting? ["a", "b"] (2 ^ 63) true = none := by
  decide +kernel

end BenchLedger.Table
