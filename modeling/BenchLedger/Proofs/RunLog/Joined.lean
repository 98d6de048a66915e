import BenchLedger.Proofs.RunLog.Blocks
import BenchLedger.Proofs.Text.Quiet

/-! # Logs one after the other

An empty line divides two logs: no block stands across it, and none is made or lost where they meet,
also if there are carriage returns (`Seamless.scan`). So what is read from both together are the
records of the one and then those of the other, and of the worst numbers of both the greater
(`read_joined`). -/

namespace BenchLedger.RunLog

open Text Template

/-! ### Where logs meet -/

/-- No block of the layout stands across an empty line, or across a carriage return. -/
structure Seamless (template : Template) : Prop where
  ne_nil : fine template ≠ []
  emptyLine : Divides ['\n', '\n'] template
  carriageReturn : Divides ['\r'] template

theorem seamless_trials : Seamless Trials.entry where
  ne_nil := apart_trials.ne_nil
  emptyLine := by decide +kernel
  carriageReturn := by decide +kernel

theorem seamless_profile (operation : Operation) : Seamless (Profile.entry operation) where
  ne_nil := (apart_profile operation).ne_nil
  emptyLine := by cases operation <;> decide +kernel
  carriageReturn := by cases operation <;> decide +kernel

section Seamless

variable {template : Template} (h : Seamless template)
include h

theorem Seamless.scan_carriageReturn (text : List Char) :
    (scan template (text ++ ['\r'])).map Occurrence.groups =
      (scan template text).map Occurrence.groups := by
  have hdivided := h.carriageReturn.scan h.ne_nil text []
  rwa [List.append_nil, show scan template [] = [] from rfl, List.map_nil, List.append_nil]
    at hdivided

/-- **The blocks of two logs with an empty line between them.** -/
theorem Seamless.scan (first second : List Char) :
    (Template.scan template (unixNewlines (first ++ '\n' :: '\n' :: second))).map
        Occurrence.groups =
      (Template.scan template (unixNewlines first)).map Occurrence.groups ++
        (Template.scan template (unixNewlines second)).map Occurrence.groups := by
  obtain ⟨before, hbefore, hjoined⟩ := unixNewlines_append_feed first ('\n' :: second)
  have hfirst : (Template.scan template (unixNewlines first)).map Occurrence.groups =
      (Template.scan template before).map Occurrence.groups := by
    rcases hbefore with hbefore | hbefore
    · rw [hbefore]
    · rw [hbefore, h.scan_carriageReturn]
  rw [hjoined, unixNewlines_cons (by decide), hfirst]
  exact h.emptyLine.scan h.ne_nil before (unixNewlines second)

theorem Seamless.records (withUsage : Bool) (first second : List Char) :
    (Template.scan template (unixNewlines (first ++ '\n' :: '\n' :: second))).mapM
        (Record.ofOccurrence withUsage) = do
      let records ← (Template.scan template (unixNewlines first)).mapM
        (Record.ofOccurrence withUsage)
      let others ← (Template.scan template (unixNewlines second)).mapM
        (Record.ofOccurrence withUsage)
      return records ++ others := by
  have hgroups : ∀ blocks : List Occurrence, blocks.mapM (Record.ofOccurrence withUsage) =
      (blocks.map Occurrence.groups).mapM fun groups => Record.ofGroups groups 1 withUsage := by
    intro blocks
    rw [List.mapM_map]
    rfl
  simp only [hgroups, h.scan, List.mapM_append]

end Seamless

theorem toList_joined (first second : String) : (first ++ "\n\n" ++ second).toList =
    first.toList ++ '\n' :: '\n' :: second.toList := by
  rw [String.toList_append, String.toList_append, List.append_assoc]
  rfl

/-! ### Profiles -/

/-- The records of one profile, then those of another. -/
def Profile.append (profile other : Profile) : Profile :=
  ⟨profile.insert ++ other.insert, profile.extractMin ++ other.extractMin⟩

theorem records_joined (operation : Operation) (first second : List Char) :
    Profile.records operation (unixNewlines (first ++ '\n' :: '\n' :: second)) = do
      let records ← Profile.records operation (unixNewlines first)
      let others ← Profile.records operation (unixNewlines second)
      return records ++ others :=
  (seamless_profile operation).records true first second

theorem read_profile_eq_ok {text : String} {profile : Profile} :
    Profile.read text = .ok profile ↔
      Profile.records .insert (unixNewlines text.toList) = .ok profile.insert ∧
        Profile.records .extractMin (unixNewlines text.toList) = .ok profile.extractMin := by
  unfold Profile.read
  dsimp only
  cases hinsert : Profile.records .insert (unixNewlines text.toList) with
  | error fault => simp [bind, Except.bind]
  | ok insert =>
    cases hextract : Profile.records .extractMin (unixNewlines text.toList) with
    | error fault => simp [bind, Except.bind]
    | ok extractMin =>
      obtain ⟨insert', extractMin'⟩ := profile
      simp [bind, Except.bind, pure, Except.pure]

theorem joined_eq_ok {ε α : Type} {first second : Except ε (List α)} {all : List α} :
    (do let records ← first; let others ← second; return records ++ others) = .ok all ↔
      ∃ records others, first = .ok records ∧ second = .ok others ∧ all = records ++ others := by
  cases first with
  | error fault => simp [bind, Except.bind]
  | ok records =>
    cases second with
    | error fault => simp [bind, Except.bind]
    | ok others => simp [bind, Except.bind, pure, Except.pure, eq_comm]

/-- **The profile of two logs** is that of the first and then that of the second. -/
theorem read_profile_joined {first second : String} {all : Profile} :
    Profile.read (first ++ "\n\n" ++ second) = .ok all ↔ ∃ profile other,
      Profile.read first = .ok profile ∧ Profile.read second = .ok other ∧
        all = profile.append other := by
  simp only [read_profile_eq_ok, toList_joined, records_joined, joined_eq_ok]
  constructor
  · rintro ⟨⟨insert, insert', hi, hi', hinsert⟩, extractMin, extractMin', he, he', hextract⟩
    refine ⟨⟨insert, extractMin⟩, ⟨insert', extractMin'⟩, ⟨hi, he⟩, ⟨hi', he'⟩, ?_⟩
    rw [Profile.append, ← hinsert, ← hextract]
  · rintro ⟨profile, other, ⟨hi, he⟩, ⟨hi', he'⟩, rfl⟩
    exact ⟨⟨_, _, hi, hi', rfl⟩, _, _, he, he', rfl⟩

/-! ### Trials -/

theorem read_trials_joined (first second : String) :
    Trials.read (first ++ "\n\n" ++ second) = do
      let records ← Trials.read first
      let others ← Trials.read second
      return records ++ others := by
  simp only [read_trials, toList_joined]
  exact seamless_trials.records false first.toList second.toList

instance lawfulOrderMax : Std.LawfulOrderMax UInt64 where
  max_le_iff a b c := by
    simp only [UInt64.max_def, UInt64.le_iff_toNat_le]
    split <;> omega
  max_eq_or a b := by
    rw [UInt64.max_def]
    split
    · exact Or.inr rfl
    · exact Or.inl rfl

theorem max?_append {β : Type} [LE β] [Max β] [Std.IsLinearOrder β] [Std.LawfulOrderMax β]
    {numbers others : List β} {n m : β} (hn : numbers.max? = some n)
    (hm : others.max? = some m) : (numbers ++ others).max? = some (max n m) := by
  rw [List.max?_eq_some_iff] at hn hm ⊢
  refine ⟨?_, fun k hk => ?_⟩
  · rcases Std.MaxEqOr.max_eq_or n m with hmax | hmax
    · rw [hmax]
      exact List.mem_append_left _ hn.1
    · rw [hmax]
      exact List.mem_append_right _ hm.1
  · rcases List.mem_append.mp hk with hk | hk
    · exact Std.le_trans (hn.2 k hk) Std.left_le_max
    · exact Std.le_trans (hm.2 k hk) Std.right_le_max

/-- Of each number the greater. -/
def Trials.Worst.sup (worst other : Trials.Worst) : Trials.Worst :=
  ⟨max worst.messageBytesSent other.messageBytesSent, max worst.wallClockMs other.wallClockMs⟩

theorem worst_eq_ok {records : List Record} {worst : Trials.Worst} :
    Trials.worst records = .ok worst ↔
      greatest (fun r => some r.messageBytesSent) records = some worst.messageBytesSent ∧
        greatest (fun r => some r.wallClockMs) records = some worst.wallClockMs := by
  unfold Trials.worst
  cases greatest (fun r : Record => some r.messageBytesSent) records with
  | none => simp
  | some bytes =>
    cases greatest (fun r : Record => some r.wallClockMs) records with
    | none => simp
    | some time =>
      obtain ⟨bytes', time'⟩ := worst
      simp

/-- **The worst numbers of more trials.** -/
theorem worst_append {records others : List Record} {worst other : Trials.Worst}
    (h : Trials.worst records = .ok worst) (h' : Trials.worst others = .ok other) :
    Trials.worst (records ++ others) = .ok (worst.sup other) := by
  rw [worst_eq_ok] at h h' ⊢
  unfold greatest at h h' ⊢
  rw [List.filterMap_append, List.filterMap_append]
  exact ⟨max?_append h.1 h'.1, max?_append h.2 h'.2⟩

theorem exists_worst {records : List Record} (h : records ≠ []) :
    ∃ worst, Trials.worst records = .ok worst := by
  have hgreatest : ∀ field : Record → UInt64,
      ∃ n, greatest (fun r => some (field r)) records = some n := by
    intro field
    refine Option.ne_none_iff_exists'.mp fun hnone => ?_
    rw [greatest, List.max?_eq_none_iff, List.filterMap_eq_nil_iff] at hnone
    obtain ⟨record, others, rfl⟩ := List.exists_cons_of_ne_nil h
    exact Option.some_ne_none _ (hnone record List.mem_cons_self)
  obtain ⟨bytes, hbytes⟩ := hgreatest Record.messageBytesSent
  obtain ⟨time, htime⟩ := hgreatest Record.wallClockMs
  exact ⟨⟨bytes, time⟩, worst_eq_ok.mpr ⟨hbytes, htime⟩⟩

/-! ### Both kinds of logs -/

/-- **Logs add up.** With an empty line between two texts, whatever they hold and however they end,
their profile is read just if both are, and lists the records of the first and then those of the
second. The trials are those of the first and then those of the second, or the first fault; and if
both have some, the worst numbers of all are the greater of theirs. -/
theorem read_joined (first second : String) :
    (∀ all, Profile.read (first ++ "\n\n" ++ second) = .ok all ↔ ∃ profile other,
      Profile.read first = .ok profile ∧ Profile.read second = .ok other ∧
        all = profile.append other) ∧
    Trials.read (first ++ "\n\n" ++ second) =
      (match Trials.read first, Trials.read second with
      | .error fault, _ => .error fault
      | .ok _, .error fault => .error fault
      | .ok records, .ok others => .ok (records ++ others)) ∧
    ∀ records others, Trials.read first = .ok records → Trials.read second = .ok others →
      records ≠ [] → others ≠ [] → ∃ worst other, Trials.worst records = .ok worst ∧
        Trials.worst others = .ok other ∧
        Trials.worst (records ++ others) = .ok (worst.sup other) := by
  refine ⟨fun all => read_profile_joined, ?_, ?_⟩
  · rw [read_trials_joined]
    cases Trials.read first with
    | error fault => rfl
    | ok records => cases Trials.read second <;> rfl
  · intro records others _ _ hrecords hothers
    obtain ⟨worst, hworst⟩ := exists_worst hrecords
    obtain ⟨other, hother⟩ := exists_worst hothers
    exact ⟨worst, other, hworst, hother, worst_append hworst hother⟩

/-- The lines of some counters. -/
def smallBlock (bytes time : String) : String :=
  "1 messages sent\n" ++ bytes ++ " message bytes sent\n3 Lamport clock (latencies)\n" ++
    "4 local AES operations\n" ++ time ++ " milliseconds wall clock time"

/-- A log of one trial, with a carriage return at its end. -/
def firstTrial : String := "BINARY SEARCH =====\n" ++ smallBlock "2" "9" ++ "\r"

/-- A log of one trial, with an empty line before it. -/
def secondTrial : String := "\r\nBINARY SEARCH =====\n" ++ smallBlock "6" "5"

/-- A log of one section, with a carriage return at its end. -/
def oneSection : String :=
  "===== Insert Stats =====\n" ++ smallBlock "2" "9" ++
    "\n\x7b5;6;7\x7d nanoseconds \x7breal;user;system\x7d\nMem: 8 KiB\r"

/-- The greatest volume is that of the second trial, the longest time that of the first. -/
theorem read_joined_trials :
    Trials.read (firstTrial ++ "\n\n" ++ secondTrial) =
        .ok ([⟨1, 2, 3, 4, 9, none⟩] ++ [⟨1, 6, 3, 4, 5, none⟩]) ∧
      Trials.worst ([⟨1, 2, 3, 4, 9, none⟩] ++ [⟨1, 6, 3, 4, 5, none⟩]) = .ok ⟨6, 9⟩ ∧
      Profile.read (oneSection ++ "\n\n" ++ "\r\n") =
        .ok ⟨[⟨1, 2, 3, 4, 9, some ⟨5, 6, 7, 8⟩⟩], []⟩ := by
  have hfirst : Trials.read firstTrial = .ok [⟨1, 2, 3, 4, 9, none⟩] := by decide +kernel
  have hsecond : Trials.read secondTrial = .ok [⟨1, 6, 3, 4, 5, none⟩] := by decide +kernel
  have hsection : Profile.read oneSection = .ok ⟨[⟨1, 2, 3, 4, 9, some ⟨5, 6, 7, 8⟩⟩], []⟩ := by
    decide +kernel
  have hempty : Profile.read "\r\n" = .ok ⟨[], []⟩ := by decide +kernel
  obtain ⟨-, hall, hworst⟩ := read_joined firstTrial secondTrial
  refine ⟨?_, ?_, ((read_joined oneSection "\r\n").1 _).mpr ⟨_, _, hsection, hempty, rfl⟩⟩
  · rw [hall, hfirst, hsecond]
  · obtain ⟨worst, other, hworst, hother, hsum⟩ :=
      hworst _ _ hfirst hsecond (List.cons_ne_nil _ _) (List.cons_ne_nil _ _)
    obtain rfl : ⟨2, 9⟩ = worst := Except.ok.inj hworst
    obtain rfl : ⟨6, 5⟩ = other := Except.ok.inj hother
    rw [hsum]
    decide

end BenchLedger.RunLog
