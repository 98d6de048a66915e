import BenchLedger.Proofs.RunLog.Statements

/-! # Numbers stand in the log as they are read

Each number of a record is spelled by a whole run of digits that stands in the text directly before
the label of its quantity, or between the signs that set it off (`Stands`). The search for counters
may begin anywhere, but a block never begins within a run of digits; that the layouts set all other
runs off is checked on the layouts alone (`framed`, `stands_of_reads`). So the cells of a record are
these runs, in the order of the text and without their leading zeros (`Verbatim`), and a log is read
just if all runs in its blocks spell counts (`read_verbatim`). -/

namespace BenchLedger.RunLog

open Text Template

/-! ### What sets a number off -/

/-- The signs directly before the number of a quantity. -/
def Quantity.opening : Quantity → List Char
  | heapsize => "heapsize: ".toList
  | isOptimized => "is_optimized: ".toList
  | realNs => "\n\x7b".toList
  | userNs | systemNs => ";".toList
  | memoryKib => "\nMem: ".toList
  | _ => []

/-- The label or the signs directly after the number of a quantity. -/
def Quantity.closing : Quantity → List Char
  | heapsize | isOptimized => []
  | realNs | userNs => ";".toList
  | systemNs => "\x7d nanoseconds \x7breal;user;system\x7d\n".toList
  | memoryKib => " KiB".toList
  | what => (" " ++ what.label).toList

/-- **The whole run stands in the text** as the number of a quantity: its signs are directly before
it and directly after it, and no digit is. -/
structure Stands (text : List Char) (what : Quantity) (run : List Char) : Prop where
  isRun : IsRun run
  between : ∃ before after, text = before ++ (run ++ after) ∧ what.opening <:+ before ∧
    what.closing <+: after ∧ before.getLast?.any isDecimal = false ∧
    after.head?.any isDecimal = false

/-- The layout sets off the numbers of these quantities, if it comes after the given signs. -/
def framed : List Char → Template → List Quantity → Bool
  | _, [], [] => true
  | _, .literal mark :: layout, whats =>
    mark.getLast?.any (fun c => !isDecimal c) && framed mark layout whats
  | known, .number :: .literal mark :: layout, what :: whats =>
    what.opening.isSuffixOf known && what.closing.isPrefixOf mark &&
      mark.head?.any (fun c => !isDecimal c) && framed [] (.literal mark :: layout) whats
  | _, _, _ => false

variable {layout : Template} {known before text rest : List Char} {whats : List Quantity}
  {numbers : List (List Char)}

theorem head?_any_of_prefix {mark : List Char} (h : mark.head?.any (fun c => !isDecimal c) = true)
    (hmark : mark <+: text) : text.head?.any isDecimal = false := by
  obtain ⟨after, rfl⟩ := hmark
  cases mark with
  | nil => cases h
  | cons c mark => simpa using h

theorem getLast?_any_append {mark : List Char}
    (h : mark.getLast?.any (fun c => !isDecimal c) = true) :
    (before ++ mark).getLast?.any isDecimal = false := by
  rw [List.getLast?_append]
  cases hlast : mark.getLast? with
  | none =>
    rw [hlast] at h
    cases h
  | some c =>
    rw [hlast] at h
    simpa using h

/-- **The numbers of a layout that sets them off stand in the text**, if no digit is directly before
the layout. -/
theorem stands_of_reads (hframed : framed known layout whats = true)
    (hreads : Reads layout text numbers rest) (hknown : known <:+ before)
    (hopen : layout.head? = some .number → before.getLast?.any isDecimal = false) :
    List.Forall₂ (Stands (before ++ text)) whats numbers := by
  induction known, layout, whats using framed.induct generalizing text numbers before with
  | case1 known =>
    cases hreads
    exact .nil
  | case2 known mark layout whats ih =>
    obtain ⟨hlast, hframed⟩ := Bool.and_eq_true_iff.mp hframed
    cases hreads with
    | literal _ hafter =>
      rw [← List.append_assoc]
      exact ih hframed hafter (List.suffix_append before mark) fun _ => getLast?_any_append hlast
  | case3 known mark layout what whats ih =>
    rw [framed] at hframed
    simp only [Bool.and_eq_true, List.isSuffixOf_iff_suffix, List.isPrefixOf_iff_prefix]
      at hframed
    obtain ⟨⟨⟨hopening, hclosing⟩, hhead⟩, hframed⟩ := hframed
    cases hreads with
    | @number run _ text _ _ hne hdigits hafter =>
      have hmark : mark <+: text := by
        cases hafter with
        | literal _ _ => exact List.prefix_append mark _
      refine .cons ⟨⟨hne, hdigits⟩, before, text, rfl, hopening.trans hknown,
        hclosing.trans hmark, hopen rfl, head?_any_of_prefix hhead hmark⟩ ?_
      rw [← List.append_assoc]
      exact ih hframed hafter List.nil_suffix fun h => by cases h
  | case4 known layout whats hnil hliteral hnumber =>
    rw [framed] at hframed
    · cases hframed
    all_goals assumption

/-! ### Records -/

/-- The lines of a block. -/
def blockLayout (withUsage : Bool) : Template := counters ++ if withUsage then usage else []

/-- **A block in a log**, which does not begin within a run of digits. -/
def Block (lines : List Char) (withUsage : Bool) (runs : List (List Char)) : Prop :=
  ∃ place rest, Reads (blockLayout withUsage) (lines.drop place) runs rest ∧
    (lines.take place).getLast?.any isDecimal = false

theorem framed_blockLayout (withUsage : Bool) :
    framed [] (blockLayout withUsage) (blockQuantities withUsage) = true := by
  cases withUsage <;> decide

theorem runs_blockLayout (withUsage : Bool) :
    (blockLayout withUsage).runs = 5 + if withUsage then 4 else 0 := by
  cases withUsage <;> decide

variable {lines : List Char} {withUsage : Bool} {runs : List (List Char)} {record : Record}

theorem Block.isRun (h : Block lines withUsage runs) : ∀ run ∈ runs, IsRun run := by
  obtain ⟨place, rest, hreads, -⟩ := h
  exact isRun_of_reads hreads

theorem Block.length_eq (h : Block lines withUsage runs) :
    runs.length = 5 + if withUsage then 4 else 0 := by
  obtain ⟨place, rest, hreads, -⟩ := h
  rw [length_numbers hreads, runs_blockLayout]

theorem Block.stands (h : Block lines withUsage runs) :
    List.Forall₂ (Stands lines) (blockQuantities withUsage) runs := by
  obtain ⟨place, rest, hreads, hbefore⟩ := h
  have hstands := stands_of_reads (framed_blockLayout withUsage) hreads List.nil_suffix
    fun _ => hbefore
  rwa [List.take_append_drop] at hstands

/-- **A record of a block holds its numbers as they stand in the text**: the runs of the block stand
whole in the text, each spells the number of the record in its place, and the nine cells of the
record are these runs without their leading zeros; those of the usage are empty if it is not
read. -/
structure Verbatim (lines : List Char) (withUsage : Bool) (runs : List (List Char))
    (record : Record) : Prop where
  block : Block lines withUsage runs
  stands : List.Forall₂ (Stands lines) (blockQuantities withUsage) runs
  spells : List.Forall₂ Spells runs record.values
  usage : record.usage.isSome = withUsage
  cells : record.cells = runs.map (fun run => String.ofList (bare run)) ++
    if withUsage then [] else ["", "", "", ""]

theorem cells_eq (record : Record) : record.cells = record.values.map Count.text ++
    if record.usage.isSome then [] else ["", "", "", ""] := by
  obtain ⟨a, b, c, d, e, used⟩ := record
  cases used <;> rfl

theorem forall_of_forall₂ {β γ : Type} {R : β → γ → Prop} {p : β → Prop} {first : List β}
    {second : List γ} (h : List.Forall₂ R first second) (hp : ∀ b c, R b c → p b) :
    ∀ b ∈ first, p b :=
  ((List.forall₂_and_left first second).mp (h.imp fun b c hbc => ⟨hp b c hbc, hbc⟩)).1

theorem spells_of_holds (hruns : ∀ run ∈ runs, IsRun run) (h : record.Holds runs) :
    List.Forall₂ Spells runs record.values := by
  have hread : List.Forall₂ (fun run n => Count.read run = .ok n) runs record.values := by
    have hmap : List.Forall₂ Eq (runs.map Count.read) (record.values.map .ok) := by
      rw [List.forall₂_eq_eq_eq]
      exact h
    exact List.forall₂_map_right_iff.mp (List.forall₂_map_left_iff.mp hmap)
  have hboth := (List.forall₂_and_left _ _).mpr ⟨hruns, hread⟩
  exact hboth.imp fun run n hrun => (read_eq_ok_iff hrun.1).mp hrun.2

theorem verbatim_of_holds (hblock : Block lines withUsage runs) (h : record.Holds runs) :
    Verbatim lines withUsage runs record := by
  have hspells := spells_of_holds hblock.isRun h
  have husage : record.usage.isSome = withUsage :=
    isSome_usage (hspells.length_eq.symm.trans hblock.length_eq)
  refine ⟨hblock, hblock.stands, hspells, husage, ?_⟩
  have htext : runs.map (fun run => String.ofList (bare run)) = record.values.map Count.text := by
    have hmap : List.Forall₂ (fun run n => String.ofList (bare run) = Count.text n) runs
        record.values := hspells.imp fun _ _ hrun => (text_eq_bare hrun).symm
    have heq := List.forall₂_map_left_iff.mpr (List.forall₂_map_right_iff.mpr hmap)
    rwa [List.forall₂_eq_eq_eq] at heq
  rw [cells_eq, husage, htext]

/-! ### Readers -/

/-- ASCII digits of a value that no count has. -/
def Oversized (run : List Char) : Prop :=
  (∀ c ∈ run, c.isDigit = true) ∧ UInt64.size ≤ Nat.ofDigitChars 10 run 0

/-- The records that a reader gives for the blocks of one operation. -/
abbrev Part (α : Type) := (α → List Record) × List (List (List Char))

variable {α : Type} {ready : Prop} {outcome : Except Fault α} {parts : List (Part α)}
  {stated : List Stated}

/-- **A reader takes all numbers of its blocks verbatim, or fails.** Once it is ready to read them,
it gives a record for each block just if each run of digits there spells a count; it fails if one is
too large for that. -/
structure ReadsVerbatim (ready : Prop) (outcome : Except Fault α) (lines : List Char)
    (withUsage : Bool) (parts : List (Part α)) : Prop where
  verbatim : ∀ value, outcome = .ok value →
    ∀ part ∈ parts, List.Forall₂ (Verbatim lines withUsage) part.2 (part.1 value)
  ok_iff : (∃ value, outcome = .ok value) ↔
    ready ∧ ∀ part ∈ parts, ∀ runs ∈ part.2, ∀ run ∈ runs, ∃ n, Spells run n
  oversized : ∀ part ∈ parts, ∀ runs ∈ part.2, ∀ run ∈ runs, Oversized run →
    ∃ fault, outcome = .error fault

theorem not_spells_of_oversized {run : List Char} (h : Oversized run) (n : UInt64) :
    ¬ Spells run n := by
  intro hspells
  have hlt := n.toNat_lt
  rw [← hspells.value] at hlt
  exact absurd h.2 (Nat.not_le.mpr hlt)

theorem Comes.exists_ok {Fits : α → Prop} (h : Comes outcome stated Fits)
    (hstated : ∀ s ∈ stated, ∃ n, Count.read s.2 = .ok n) : ∃ value, outcome = .ok value := by
  have hnone : firstFault? stated = none := by
    refine List.findSome?_eq_none_iff.mpr fun s hs => ?_
    obtain ⟨n, hn⟩ := hstated s hs
    rw [hn]
  unfold Comes at h
  rw [hnone] at h
  obtain ⟨value, hvalue, -⟩ := h
  exact ⟨value, hvalue⟩

theorem readsVerbatim_of_comes (hnot : ¬ ready → ∃ fault, outcome = .error fault)
    (hready : ready → Comes outcome
      (parts.flatMap fun part => part.2.flatMap (blockStated withUsage)) fun value =>
        ∀ part ∈ parts, List.Forall₂ Record.Holds (part.1 value) part.2)
    (hblocks : ∀ part ∈ parts, ∀ runs ∈ part.2, Block lines withUsage runs) :
    ReadsVerbatim ready outcome lines withUsage parts := by
  have hbegun : ∀ value, outcome = .ok value → ready := by
    intro value hvalue
    by_contra hnone
    obtain ⟨fault, hfault⟩ := hnot hnone
    cases hvalue.symm.trans hfault
  have hverbatim : ∀ value, outcome = .ok value →
      ∀ part ∈ parts, List.Forall₂ (Verbatim lines withUsage) part.2 (part.1 value) := by
    intro value hvalue part hpart
    have hholds := (hready (hbegun value hvalue)).of_eq_ok hvalue part hpart
    have hflip : List.Forall₂ (fun runs record => record.Holds runs) part.2 (part.1 value) :=
      List.Forall₂.flip hholds
    have hboth := (List.forall₂_and_left _ _).mpr ⟨hblocks part hpart, hflip⟩
    exact hboth.imp fun runs record h => verbatim_of_holds h.1 h.2
  have hspells : ∀ value, outcome = .ok value →
      ∀ part ∈ parts, ∀ runs ∈ part.2, ∀ run ∈ runs, ∃ n, Spells run n := by
    intro value hvalue part hpart
    refine forall_of_forall₂ (hverbatim value hvalue part hpart) fun runs record h => ?_
    exact forall_of_forall₂ h.spells fun run n hn => ⟨n, hn⟩
  refine ⟨hverbatim, ⟨?_, ?_⟩, ?_⟩
  · rintro ⟨value, hvalue⟩
    exact ⟨hbegun value hvalue, hspells value hvalue⟩
  · rintro ⟨hbegin, hall⟩
    refine (hready hbegin).exists_ok fun s hs => ?_
    obtain ⟨part, hpart, hs⟩ := List.mem_flatMap.mp hs
    obtain ⟨runs, hruns, hs⟩ := List.mem_flatMap.mp hs
    have hrun := (List.of_mem_zip hs).2
    obtain ⟨n, hn⟩ := hall part hpart runs hruns s.2 hrun
    exact ⟨n, (read_eq_ok_iff ((hblocks part hpart runs hruns).isRun s.2 hrun)).mpr hn⟩
  · intro part hpart runs hruns run hrun hlarge
    cases houtcome : outcome with
    | error fault => exact ⟨fault, rfl⟩
    | ok value =>
      obtain ⟨n, hn⟩ := hspells value houtcome part hpart runs hruns run hrun
      exact absurd hn (not_spells_of_oversized hlarge n)

/-! ### All readers -/

theorem block_of_places {mark : List Char} {found : List (ℕ × List (List Char))}
    (hmark : mark.getLast? = some '\n')
    (h : Places (.literal mark :: blockLayout withUsage) lines found) :
    ∀ runs ∈ found.map Prod.snd, Block lines withUsage runs := by
  intro runs hruns
  obtain ⟨⟨place, runs⟩, hfound, rfl⟩ := List.mem_map.mp hruns
  obtain ⟨rest, hreads⟩ := (h.mem_iff place runs).mp hfound
  generalize hbelow : lines.drop place = below at hreads
  cases hreads with
  | @literal _ _ text _ _ hafter =>
    refine ⟨place + mark.length, rest, ?_, ?_⟩
    · rwa [← List.drop_drop, hbelow, List.drop_left]
    · rw [List.take_add, hbelow, List.take_left, List.getLast?_append, hmark, Option.some_or]
      decide

theorem block_of_sectionNumbers (operation : Operation) :
    ∀ runs ∈ sectionNumbers operation lines, Block lines false runs := by
  intro runs hruns
  obtain ⟨-, place, rest, -, -, hfree, hreads, -⟩ := exists_reads_of_mem_sectionNumbers hruns
  exact ⟨place, rest, hreads, Bool.eq_false_iff.mpr fun hdigit => hfree ⟨by decide, hdigit⟩⟩

/-- **The numbers of a log are read as they stand there.** In each record of a log of a heap run, a
profile or a log of trials, each number is the value of a whole run of ASCII digits that stands in
the text between the signs of its quantity, and the cells of the record are these runs, in the order
of the text and without their leading zeros. The records are those of the blocks, one for each. Any
runs that spell counts are read; a log fails if one of its blocks has a run too large for a
count. -/
theorem read_verbatim (text : String) :
    let lines := unixNewlines text.toList
    ReadsVerbatim (∃ settings, Settings.read text.toList = .ok settings) (HeapLog.read text) lines
      false [(HeapLog.insert, sectionNumbers .insert lines),
        (HeapLog.extractMin, sectionNumbers .extractMin lines)] ∧
    (∃ insert extractMin, Places (Profile.entry .insert) lines insert ∧
      Places (Profile.entry .extractMin) lines extractMin ∧
      ReadsVerbatim True (Profile.read text) lines true
        [(Profile.insert, insert.map Prod.snd), (Profile.extractMin, extractMin.map Prod.snd)]) ∧
    ∃ found, Places Trials.entry lines found ∧
      ReadsVerbatim True (Trials.read text) lines false [(id, found.map Prod.snd)] := by
  intro lines
  refine ⟨?_, ?_, ?_⟩
  · refine readsVerbatim_of_comes (fun hnone => ?_) ?_ ?_
    · cases hsettings : Settings.read text.toList with
      | error fault => exact ⟨fault, heapLog_eq_error hsettings⟩
      | ok settings => exact absurd ⟨settings, hsettings⟩ hnone
    · rintro ⟨settings, hsettings⟩
      simpa using heapLog_comes hsettings
    · exact List.forall_mem_cons.mpr ⟨block_of_sectionNumbers .insert,
        List.forall_mem_singleton.mpr (block_of_sectionNumbers .extractMin)⟩
  · obtain ⟨insert, hinsert, hinserted⟩ := records_comes .insert lines
    obtain ⟨extractMin, hextract, hextracted⟩ := records_comes .extractMin lines
    have hcomes := profile_comes hinserted hextracted
    have hinsertBlocks : ∀ runs ∈ insert.map Prod.snd, Block lines true runs :=
      block_of_places (getLast?_heading .insert) hinsert
    have hextractBlocks : ∀ runs ∈ extractMin.map Prod.snd, Block lines true runs :=
      block_of_places (getLast?_heading .extractMin) hextract
    refine ⟨insert, extractMin, hinsert, hextract,
      readsVerbatim_of_comes (fun hnone => absurd trivial hnone) (fun _ => ?_) ?_⟩
    · simpa [List.flatMap_map] using hcomes
    · exact List.forall_mem_cons.mpr ⟨hinsertBlocks, List.forall_mem_singleton.mpr hextractBlocks⟩
  · obtain ⟨found, hfound, hcomes⟩ := scan_comes false apart_trials (by decide) (by decide)
      (by decide) lines
    rw [← read_trials] at hcomes
    have hblocks : ∀ runs ∈ found.map Prod.snd, Block lines false runs := by
      refine block_of_places ?_ hfound
      decide
    refine ⟨found, hfound,
      readsVerbatim_of_comes (fun hnone => absurd trivial hnone) (fun _ => ?_) ?_⟩
    · simpa [List.flatMap_map] using hcomes
    · exact List.forall_mem_singleton.mpr hblocks

end BenchLedger.RunLog
