import BenchLedger.Proofs.RunLog.History
import BenchLedger.Proofs.RunLog.Statements
import BenchLedger.Proofs.Text.Fields
import Mathlib.Data.List.DropRight

/-! # Two readers of the settings

The settings of a log are read in two ways: off the leftmost statement in the text, and off the last
line that begins with their name. Where a name and its colon stand once, the two look at the same
place. The line states a number just if, up to a second colon, nothing but white space stands around
it, so the digits after the name are all of it (`spells_of_value`). So the reader of the text finds
what the reader of the lines finds, whenever a digit directly follows each name, its colon and a
space, and else a setting is missing to it (`read_settings_iff`). -/

namespace BenchLedger.RunLog

open Text

variable {text line name run rest : List Char} {n : UInt64} {what : Quantity}

/-- The places at which a mark stands in a text. -/
def placesOf (mark text : List Char) : List ℕ :=
  (List.range text.length).filter fun place => mark.isPrefixOf (text.drop place)

/-- The ASCII digits directly after a mark at a place. -/
def digitsAfter (mark text : List Char) (place : ℕ) : List Char :=
  (text.drop (place + mark.length)).takeWhile Char.isDigit

theorem mem_placesOf {mark : List Char} {place : ℕ} (hmark : mark ≠ [])
    (h : mark <+: text.drop place) : place ∈ placesOf mark text := by
  refine List.mem_filter.mpr ⟨List.mem_range.mpr ?_, List.isPrefixOf_iff_prefix.mpr h⟩
  by_contra hge
  rw [List.drop_of_length_le (Nat.not_lt.mp hge)] at h
  exact hmark (List.prefix_nil.mp h)

theorem place_unique {mark : List Char} {place other : ℕ} (hmark : mark ≠ [])
    (honce : (placesOf mark text).length ≤ 1) (hplace : mark <+: text.drop place)
    (hother : mark <+: text.drop other) : place = other := by
  have hmem := mem_placesOf hmark hplace
  have hmem' := mem_placesOf hmark hother
  cases hplaces : placesOf mark text with
  | nil =>
    rw [hplaces] at hmem
    cases hmem
  | cons first places =>
    rw [hplaces, List.length_cons] at honce
    obtain rfl : places = [] := List.length_eq_zero_iff.mp (by omega)
    rw [hplaces, List.mem_singleton] at hmem hmem'
    rw [hmem, hmem']

/-! ### The value in a line -/

theorem isBlank_of_isDecimal {c : Char} (h : isDecimal c = true) : isBlank c = false := by
  have hapart : ∀ range ∈ blanks, ∀ first ∈ '0'.toNat :: scriptZeros,
      range.2 < first ∨ first + 9 < range.1 := by decide +kernel
  have hdigit : ∃ first ∈ '0'.toNat :: scriptZeros, first ≤ c.toNat ∧ c.toNat ≤ first + 9 := by
    rw [isDecimal, Bool.or_eq_true] at h
    rcases h with h | h
    · simp only [Char.isDigit, Bool.and_eq_true, decide_eq_true_eq] at h
      exact ⟨'0'.toNat, List.mem_cons_self, h.1, h.2⟩
    · obtain ⟨first, hfirst, hc⟩ := List.any_eq_true.mp h
      rw [Bool.and_eq_true, decide_eq_true_eq, decide_eq_true_eq] at hc
      exact ⟨first, List.mem_cons_of_mem _ hfirst, hc⟩
  obtain ⟨first, hfirst, hle, hge⟩ := hdigit
  rw [isBlank, CharTable.holds, List.any_eq_false]
  intro range hrange hc
  rw [Bool.and_eq_true, decide_eq_true_eq, decide_eq_true_eq] at hc
  have := hapart range hrange first hfirst
  omega

theorem isDigit_of_read (hsign : text.head? ≠ some '+') (h : Count.read text = .ok n) :
    ∀ c ∈ text, c.isDigit = true := by
  have hdigits := (read_iff_isCount.mp h).digits
  rwa [unsigned_of_head? hsign] at hdigits

theorem exists_trim_run (h : IsRun run) (rest : List Char) :
    ∃ tail, tail <+: rest ∧ trim (' ' :: (run ++ rest)) = run ++ tail := by
  obtain ⟨hne, hrun⟩ := h
  have hblank : ∀ c ∈ run, ¬ isBlank c = true := fun c hc => by
    rw [isBlank_of_isDecimal (hrun c hc)]
    exact Bool.false_ne_true
  refine ⟨rest.rdropWhile isBlank, List.rdropWhile_prefix isBlank rest, ?_⟩
  have hstart : (' ' :: (run ++ rest)).dropWhile isBlank = run ++ rest := by
    obtain ⟨c, more, rfl⟩ := List.exists_cons_of_ne_nil hne
    rw [List.dropWhile_cons_of_pos (by decide), List.cons_append,
      List.dropWhile_cons_of_neg (hblank c List.mem_cons_self)]
  have hend : run.reverse.dropWhile isBlank = run.reverse := by
    obtain ⟨c, more, hlast⟩ := List.exists_cons_of_ne_nil (List.reverse_ne_nil_iff.mpr hne)
    have hc : c ∈ run := List.mem_reverse.mp (hlast ▸ List.mem_cons_self)
    rw [hlast, List.dropWhile_cons_of_neg (hblank c hc)]
  rw [trim, hstart, List.reverse_append, List.dropWhile_append, hend, List.rdropWhile]
  split_ifs with hempty
  · rw [List.isEmpty_iff.mp hempty, List.reverse_reverse, List.reverse_nil, List.append_nil]
  · rw [List.reverse_append, List.reverse_reverse]

theorem valueAfterColon_eq (hname : ':' ∉ name) (rest : List Char) :
    Line.valueAfterColon (name ++ ':' :: rest) = trim (rest.takeWhile (· ≠ ':')) := by
  have hletters : ∀ c ∈ name, decide (c ≠ ':') = true := by
    intro c hc
    refine decide_eq_true ?_
    rintro rfl
    exact hname hc
  rw [Line.valueAfterColon, List.dropWhile_append_of_pos hletters,
    List.dropWhile_cons_of_neg (by decide), List.drop_one, List.tail_cons]

/-- **The digits after the name are the whole number.** -/
theorem spells_of_value (hname : ':' ∉ name) (h : IsRun run) (hrest : Whole run rest)
    (hread : Count.read (Line.valueAfterColon (name ++ ':' :: ' ' :: (run ++ rest))) = .ok n) :
    Spells run n := by
  obtain ⟨hne, hrun⟩ := h
  have hcolon : ∀ c ∈ run, decide (c ≠ ':') = true := by
    intro c hc
    refine decide_eq_true ?_
    rintro rfl
    exact absurd (hrun ':' hc) (by decide)
  rw [valueAfterColon_eq hname, List.takeWhile_cons_of_pos (by decide),
    List.takeWhile_append_of_pos hcolon] at hread
  obtain ⟨tail, htail, hvalue⟩ := exists_trim_run ⟨hne, hrun⟩ (rest.takeWhile (· ≠ ':'))
  rw [hvalue] at hread
  have hsign : (run ++ tail).head? ≠ some '+' := by
    obtain ⟨c, more, rfl⟩ := List.exists_cons_of_ne_nil hne
    intro hplus
    obtain rfl : c = '+' := Option.some.inj hplus
    exact absurd (hrun '+' List.mem_cons_self) (by decide)
  have hdigits := isDigit_of_read hsign hread
  -- What stands between the run and the white space cut off would go on with a digit.
  obtain rfl : tail = [] := by
    cases tail with
    | nil => rfl
    | cons c tail =>
      have hhead : rest.head? = some c := by
        obtain ⟨more, hmore⟩ := htail.trans (List.takeWhile_prefix _)
        rw [← hmore]
        rfl
      have hc : c.isDigit = true :=
        hdigits c (List.mem_append_right run List.mem_cons_self)
      exact absurd (isDecimal_of_isDigit hc) (by rw [hrest c hhead]; exact Bool.false_ne_true)
  rw [List.append_nil] at hread
  exact (read_eq_ok_iff ⟨hne, hrun⟩).mp hread

/-! ### The line in the text -/

/-- What follows a line: the end of a line, or nothing. -/
def EndsLine (after : List Char) : Prop := ∀ c, after.head? = some c → ¬ IsInner c

theorem exists_of_mem_lines (h : line ∈ lines text) :
    ∃ before after, text = before ++ (line ++ after) ∧ EndsLine after := by
  have hlines := hasLines_iff.mpr (Eq.refl (lines text))
  generalize lines text = ls at h hlines
  induction hlines with
  | nil => cases h
  | @last line' hne hfeed =>
    obtain rfl := List.mem_singleton.mp h
    exact ⟨[], [], (List.append_nil line).symm, nofun⟩
  | @feed line' text ls hfeed hreturn _ ih =>
    rcases List.mem_cons.mp h with rfl | h
    · refine ⟨[], '\n' :: text, rfl, ?_⟩
      rintro c ⟨⟩
      decide
    · obtain ⟨before, after, rfl, hafter⟩ := ih h
      exact ⟨line' ++ '\n' :: before, after, by simp, hafter⟩
  | @returnFeed line' text ls hfeed _ ih =>
    rcases List.mem_cons.mp h with rfl | h
    · refine ⟨[], '\r' :: '\n' :: text, rfl, ?_⟩
      rintro c ⟨⟩
      decide
    · obtain ⟨before, after, rfl, hafter⟩ := ih h
      exact ⟨line' ++ '\r' :: '\n' :: before, after, by simp, hafter⟩

theorem isDecimal_of_endsLine {after : List Char} (hafter : EndsLine after) {c : Char}
    (hhead : after.head? = some c) : isDecimal c = false :=
  Bool.eq_false_iff.mpr fun hdigit => hafter c hhead (isInner_of_isDecimal hdigit)

theorem isRun_of_endsLine {digits after more : List Char} (hafter : EndsLine after) {c : Char}
    (h : digits ++ after = c :: more) (hc : isDecimal c = true) :
    IsRun (digits.takeWhile isDecimal) := by
  refine ⟨?_, fun d hd => List.mem_takeWhile_imp hd⟩
  cases digits with
  | nil =>
    have hnot := isDecimal_of_endsLine hafter (c := c) (by rw [← List.nil_append after, h]; rfl)
    exact absurd hc (Bool.eq_false_iff.mp hnot)
  | cons d digits =>
    obtain rfl := (List.cons.inj h).1
    rw [List.takeWhile_cons_of_pos hc]
    exact List.cons_ne_nil _ _

theorem whole_of_endsLine {after : List Char} (hafter : EndsLine after) (run digits : List Char) :
    Whole run (digits.dropWhile isDecimal ++ after) := by
  intro d hd
  cases hrest : digits.dropWhile isDecimal with
  | nil =>
    rw [hrest, List.nil_append] at hd
    exact isDecimal_of_endsLine hafter hd
  | cons e rest =>
    rw [hrest] at hd
    exact whole_dropWhile run digits d (by rw [hrest]; exact hd)

/-- **A statement in the text is the one in the line**, if the name and its colon stand once. -/
theorem exists_run_of_states (hname : ':' ∉ name)
    (honce : (placesOf (name ++ [':']) text).length ≤ 1) (hline : line ∈ lines text)
    (hkey : name ++ [':'] <+: line) (hread : Count.read (Line.valueAfterColon line) = .ok n)
    {place : ℕ} (h : States (name ++ [':', ' ']) text place) :
    ∃ run after, text.drop place = name ++ [':', ' '] ++ (run ++ after) ∧ IsRun run ∧
      Whole run after ∧ Spells run n := by
  obtain ⟨before, after, htext, hafter⟩ := exists_of_mem_lines hline
  obtain ⟨value, rfl⟩ := hkey
  obtain ⟨c, more, hdrop, hc⟩ := h
  have hne : name ++ [':'] ≠ [] := List.append_ne_nil_of_right_ne_nil name (List.cons_ne_nil _ _)
  have hhere : text.drop before.length = name ++ [':'] ++ (value ++ after) := by
    rw [htext, List.drop_left, List.append_assoc]
  have hsplit : name ++ [':', ' '] ++ c :: more = name ++ [':'] ++ (' ' :: c :: more) := by
    rw [List.append_assoc, List.append_assoc]
    rfl
  obtain rfl : place = before.length :=
    place_unique hne honce ⟨' ' :: c :: more, by rw [hdrop, hsplit]⟩ ⟨value ++ after, hhere.symm⟩
  -- The space and the digit belong to the line, as neither ends one.
  have hvalue : value ++ after = ' ' :: c :: more := by
    rw [hdrop, hsplit] at hhere
    exact (List.append_cancel_left hhere).symm
  cases value with
  | nil =>
    rw [List.nil_append] at hvalue
    exact absurd (by decide : IsInner ' ') (hafter ' ' (by rw [hvalue]; rfl))
  | cons space digits =>
    rw [List.cons_append, List.cons.injEq] at hvalue
    obtain ⟨rfl, hvalue⟩ := hvalue
    have hrun := isRun_of_endsLine hafter hvalue hc
    refine ⟨digits.takeWhile isDecimal, digits.dropWhile isDecimal ++ after, ?_, hrun,
      whole_of_endsLine hafter _ digits, spells_of_value hname hrun (whole_dropWhile _ digits) ?_⟩
    · rw [hdrop, ← hvalue, ← List.append_assoc (digits.takeWhile isDecimal),
        List.takeWhile_append_dropWhile]
    · rw [List.takeWhile_append_dropWhile]
      rwa [List.append_assoc] at hread

/-! ### Both readers -/

theorem exists_line_of_lastOn? {ls : List (List Char)} {value : List Char}
    (h : lastOn? (.setting what) (statements ls) = some value) :
    ∃ line ∈ ls, settingOf? line = some what ∧ value = Line.valueAfterColon line := by
  obtain ⟨s, hlast, rfl⟩ := Option.map_eq_some_iff.mp h
  obtain ⟨hmem, hsubject⟩ := List.mem_filter.mp (List.mem_of_getLast? hlast)
  have hsubject : s.1 = .setting what := of_decide_eq_true hsubject
  obtain ⟨⟨line, index⟩, hline, hsaid⟩ := List.mem_filterMap.mp hmem
  refine ⟨line, List.fst_mem_of_mem_zipIdx hline, ?_⟩
  unfold statement? at hsaid
  cases hsetting : settingOf? line with
  | some other =>
    rw [hsetting] at hsaid
    obtain rfl := Option.some.inj hsaid
    rw [Subject.setting.inj hsubject]
    exact ⟨rfl, rfl⟩
  | none =>
    rw [hsetting] at hsaid
    dsimp only at hsaid
    split_ifs at hsaid
    split at hsaid
    · obtain rfl := Option.some.inj hsaid
      cases hsubject
    · cases hsaid

theorem prefix_of_settingOf? (h : settingOf? line = some what) :
    what.label.toList ++ [':'] <+: line := by
  unfold settingOf? at h
  split_ifs at h with hheapsize hoptimized
  · obtain rfl := Option.some.inj h
    exact hheapsize
  · obtain rfl := Option.some.inj h
    exact hoptimized

theorem required_eq_ok {found : Option UInt64} :
    PartyScan.required what found = .ok n ↔ found = some n := by
  cases found <;> simp [PartyScan.required]

theorem PartyLog.lastOn?_of_read {text : String} {log : PartyLog}
    (h : PartyLog.read text = .ok log) :
    (lastOn? (.setting .heapsize) (statements (Text.lines text.toList))).map Count.read =
        some (.ok log.settings.heapsize) ∧
      (lastOn? (.setting .isOptimized) (statements (Text.lines text.toList))).map Count.read =
        some (.ok log.settings.isOptimized) := by
  rw [PartyLog.read_eq] at h
  obtain ⟨state, hstate, h⟩ := bind_eq_ok.mp h
  obtain ⟨heapsize, hheapsize, h⟩ := bind_eq_ok.mp h
  obtain ⟨isOptimized, hoptimized, h⟩ := bind_eq_ok.mp h
  obtain rfl := Except.ok.inj h
  have hknows := (comes_scan _).of_eq_ok hstate
  rw [hknows.heapsize, hknows.isOptimized, required_eq_ok.mp hheapsize,
    required_eq_ok.mp hoptimized]
  exact ⟨rfl, rfl⟩

/-- **One setting in the two readings.** The text states what the line states, or nothing. -/
theorem required_iff_of_lastOn? {piece : Piece} {Extent : List Char → List Char → Prop}
    (h : Measures piece Extent) (hname : ':' ∉ what.label.toList)
    (honce : (placesOf (what.label.toList ++ [':']) text).length ≤ 1)
    (hlast : (lastOn? (.setting what) (statements (lines text))).map Count.read = some (.ok n))
    (hextent : ∀ place run after,
      text.drop place = what.label.toList ++ [':', ' '] ++ (run ++ after) →
        Spells run n → Whole run after → Extent run after) (m : UInt64) :
    Settings.required [.literal (what.label.toList ++ [':', ' ']), piece] what text = .ok m ↔
      m = n ∧ ∃ place, States (what.label.toList ++ [':', ' ']) text place := by
  obtain ⟨value, hvalue, hread⟩ := Option.map_eq_some_iff.mp hlast
  obtain ⟨line, hline, hsetting, rfl⟩ := exists_line_of_lastOn? hvalue
  have hkey := prefix_of_settingOf? hsetting
  have hne : what.label.toList ++ [':'] ≠ [] :=
    List.append_ne_nil_of_right_ne_nil _ (List.cons_ne_nil _ _)
  have hstands : ∀ place, States (what.label.toList ++ [':', ' ']) text place →
      what.label.toList ++ [':'] <+: text.drop place := by
    rintro place ⟨c, rest, hdrop, -⟩
    exact ⟨' ' :: c :: rest, by rw [hdrop]; simp⟩
  have hfound : ∀ place, States (what.label.toList ++ [':', ' ']) text place →
      Settings.required [.literal (what.label.toList ++ [':', ' ']), piece] what text = .ok n := by
    intro place hstates
    obtain ⟨run, after, hdrop, hrun, hwhole, hspells⟩ :=
      exists_run_of_states hname honce hline hkey hread hstates
    refine (required_eq_iff h).mpr ⟨run, ⟨place, after, hdrop, hrun,
      hextent place run after hdrop hspells hwhole, fun earlier hlt hearlier => ?_⟩, hspells⟩
    exact hlt.ne (place_unique hne honce (hstands earlier hearlier) (hstands place hstates))
  constructor
  · intro hm
    obtain ⟨run, ⟨place, after, hdrop, hrun, -, -⟩, -⟩ := (required_eq_iff h).mp hm
    obtain ⟨c, rest, rfl⟩ := List.exists_cons_of_ne_nil hrun.1
    have hstates : States (what.label.toList ++ [':', ' ']) text place :=
      ⟨c, rest ++ after, hdrop, hrun.2 c List.mem_cons_self⟩
    exact ⟨Except.ok.inj (hm.symm.trans (hfound place hstates)), place, hstates⟩
  · rintro ⟨rfl, place, hstates⟩
    exact hfound place hstates

/-- **The two readers agree.** In a text in which each name and its colon stand once at most, and
the variant has no second digit, the settings of a log that is read line by line are those that are
read off the whole text, if each is stated there, its digits directly after its key; and nothing
else is read off it. -/
theorem read_settings_iff {text : String} {log : PartyLog}
    (hheapsize : (placesOf "heapsize:".toList text.toList).length ≤ 1)
    (hoptimized : (placesOf "is_optimized:".toList text.toList).length ≤ 1)
    (hdigit : ∀ place ∈ placesOf "is_optimized: ".toList text.toList,
      (digitsAfter "is_optimized: ".toList text.toList place).length ≤ 1)
    (hlog : PartyLog.read text = .ok log) (settings : Settings) :
    Settings.read text.toList = .ok settings ↔ settings = log.settings ∧
      (∃ place, States "heapsize: ".toList text.toList place) ∧
        ∃ place, States "is_optimized: ".toList text.toList place := by
  obtain ⟨hlastHeapsize, hlastOptimized⟩ := PartyLog.lastOn?_of_read hlog
  have hheapsizeIff := required_iff_of_lastOn? measures_number
    (by decide : ':' ∉ Quantity.heapsize.label.toList) hheapsize hlastHeapsize
    (fun _ _ _ _ _ hwhole => hwhole) settings.heapsize
  have hoptimizedIff := required_iff_of_lastOn? measures_digit
    (by decide : ':' ∉ Quantity.isOptimized.label.toList) hoptimized hlastOptimized ?_
    settings.isOptimized
  · have hsettings : settings = log.settings ↔ settings.heapsize = log.settings.heapsize ∧
        settings.isOptimized = log.settings.isOptimized := by
      rw [Settings.mk.injEq]
    rw [read_settings_eq_ok, hsettings]
    refine (and_congr hheapsizeIff hoptimizedIff).trans ?_
    exact and_and_and_comm
  · intro place run after hdrop hspells _
    have hplace := hdigit place (mem_placesOf (by decide) ⟨run ++ after, hdrop.symm⟩)
    have hafter : text.toList.drop (place + "is_optimized: ".toList.length) = run ++ after := by
      rw [← List.drop_drop, hdrop]
      exact List.drop_left
    rw [digitsAfter, hafter, List.takeWhile_append_of_pos hspells.digits, List.length_append]
      at hplace
    have hpos := List.length_pos_iff.mpr hspells.ne_nil
    show run.length = 1
    omega

/-- A log with a colon and another text after the heap size. -/
def colonLog : String :=
  "cells:\nheapsize: 0064\t: 2 runs of 32\r\n===== P0 =====\nis_optimized: 1 \n"

theorem read_settings_iff_colonLog :
    placesOf "heapsize:".toList colonLog.toList = [7] ∧
      placesOf "is_optimized:".toList colonLog.toList = [53] ∧
      digitsAfter "is_optimized: ".toList colonLog.toList 53 = ['1'] ∧
      PartyLog.read colonLog = .ok ⟨⟨64, 1⟩, [("P0", {})]⟩ ∧
      Settings.read colonLog.toList = .ok ⟨64, 1⟩ := by
  have hheapsize : placesOf "heapsize:".toList colonLog.toList = [7] := by decide +kernel
  have hoptimized : placesOf "is_optimized:".toList colonLog.toList = [53] := by decide +kernel
  have hlog : PartyLog.read colonLog = .ok ⟨⟨64, 1⟩, [("P0", {})]⟩ := by decide +kernel
  refine ⟨hheapsize, hoptimized, by decide +kernel, hlog,
    (read_settings_iff (by rw [hheapsize]; rfl)
    (by rw [hoptimized]; rfl) (by decide +kernel) hlog ⟨64, 1⟩).mpr ⟨rfl, ⟨7, ?_⟩, ⟨53, ?_⟩⟩⟩
  · exact ⟨'0', colonLog.toList.drop 18, by decide +kernel, by decide⟩
  · exact ⟨'1', colonLog.toList.drop 68, by decide +kernel, by decide⟩

end BenchLedger.RunLog
