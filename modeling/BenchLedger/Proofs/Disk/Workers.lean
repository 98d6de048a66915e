import BenchLedger.Proofs.Disk.Placement
import Mathlib.Data.List.Forall2

/-! # Two workers at one file

The name of a temporary file tells whose it is, and stands in some messages. So two workers who do
the same work, each on its own, may be told apart by what they say; and by what they do, if an entry
stands in the way of one of them, or its names are too long. If nothing does, and the names of both
are short enough or those of neither (`Unhampered`), then they end on the same disk, and what they
say is the same but for their suffixes.

This is shown step by step. As long as the temporary files are there the two disks differ in them
alone (`Drafted`), so each request comes to the same (`Drafted.write` and the lemmas after it), and
a whole script does (`Script.Matches`, `matches_replace`). -/

namespace BenchLedger

/-! ### Printable characters in quotes -/

namespace Text

theorem CharTable.holds_of_printable {table : CharTable}
    (h : table.all (fun range => range.2 < 0x20 || 0x7F ≤ range.1) = true) {c : Char}
    (hlow : 0x20 ≤ c.toNat) (hhigh : c.toNat < 0x7F) : table.holds c = false := by
  refine List.any_eq_false.mpr fun range hrange => ?_
  have hrange := List.all_eq_true.mp h range hrange
  simp only [Bool.or_eq_true, Bool.and_eq_true, decide_eq_true_eq] at hrange ⊢
  omega

theorem escaped_of_printable {c : Char} (hlow : 0x20 ≤ c.toNat) (hhigh : c.toNat < 0x7F)
    (hquote : c ≠ '"') (hback : c ≠ '\\') : escaped c = [c] := by
  have helusive : isElusive c = false := by
    rw [isElusive, CharTable.holds_of_printable (by decide +kernel) hlow hhigh,
      CharTable.holds_of_printable (by decide +kernel) hlow hhigh,
      CharTable.holds_of_printable (by decide +kernel) hlow hhigh]
    rfl
  have hne : ∀ control : Char, control.toNat < 0x20 → c ≠ control := by
    rintro control hcontrol rfl
    omega
  unfold escaped
  rw [if_neg (hne _ (by decide)), if_neg (hne _ (by decide)), if_neg (hne _ (by decide)),
    if_neg (hne _ (by decide)), if_neg (by simp [hquote, hback]), helusive]
  rfl

end Text

namespace Disk

/-! ### Texts of two workers -/

namespace Worker

variable {worker other : Worker}

/-- The same characters, but for the suffixes of two workers. -/
inductive Swaps (worker other : Worker) : List Char → List Char → Prop where
  | nil : Swaps worker other [] []
  | char (c : Char) {text text' : List Char} (rest : Swaps worker other text text') :
    Swaps worker other (c :: text) (c :: text')
  | suffix {text text' : List Char} (rest : Swaps worker other text text') :
    Swaps worker other (worker.suffix ++ text) (other.suffix ++ text')

theorem Swaps.refl (text : List Char) : Swaps worker other text text := by
  induction text with
  | nil => exact .nil
  | cons c text ih => exact .char c ih

theorem Swaps.append {text text' more more' : List Char} (h : Swaps worker other text text')
    (hmore : Swaps worker other more more') :
    Swaps worker other (text ++ more) (text' ++ more') := by
  induction h with
  | nil => exact hmore
  | char c rest ih => exact .char c ih
  | suffix rest ih =>
    rw [List.append_assoc, List.append_assoc]
    exact .suffix ih

theorem Swaps.symm {text text' : List Char} (h : Swaps worker other text text') :
    Swaps other worker text' text := by
  induction h with
  | nil => exact .nil
  | char c rest ih => exact .char c ih
  | suffix rest ih => exact .suffix ih

theorem Swaps.eq {text text' : List Char} (h : Swaps worker worker text text') : text = text' := by
  induction h with
  | nil => rfl
  | char c rest ih => rw [ih]
  | suffix rest ih => rw [ih]

/-- **Two texts are alike** if they are the same but for the suffixes of two workers. -/
def Alike (worker other : Worker) (text text' : String) : Prop :=
  worker.Swaps other text.toList text'.toList

theorem Alike.refl (text : String) : worker.Alike other text text := Swaps.refl _

theorem Alike.symm {text text' : String} (h : worker.Alike other text text') :
    other.Alike worker text' text := Swaps.symm h

theorem Alike.append {text text' more more' : String} (h : worker.Alike other text text')
    (hmore : worker.Alike other more more') :
    worker.Alike other (text ++ more) (text' ++ more') := by
  unfold Alike at h hmore ⊢
  rw [String.toList_append, String.toList_append]
  exact h.append hmore

theorem mem_suffix {c : Char} (h : c ∈ worker.suffix) :
    c ∈ ".tmp~-".toList ∨ c.isDigit = true := by
  have hdigits : ∀ n, c ∈ Nat.toDigits 10 n → c.isDigit = true := fun n hc =>
    Nat.isDigit_of_mem_toDigits (by decide) (by decide) hc
  unfold suffix at h
  rw [List.mem_append, List.mem_append, List.mem_cons] at h
  rcases h with (h | h) | rfl | h
  · exact Or.inl (List.mem_append_left ['-'] h)
  · exact Or.inr (hdigits _ h)
  · exact Or.inl (by decide)
  · exact Or.inr (hdigits _ h)

theorem printable_of_mem_suffix {c : Char} (h : c ∈ worker.suffix) :
    0x20 ≤ c.toNat ∧ c.toNat < 0x7F ∧ c ≠ '"' ∧ c ≠ '\\' := by
  rcases mem_suffix h with hmark | hdigit
  · have hall : (".tmp~-".toList.all fun c =>
        decide (0x20 ≤ c.toNat ∧ c.toNat < 0x7F ∧ c ≠ '"' ∧ c ≠ '\\')) = true := by decide
    exact of_decide_eq_true (List.all_eq_true.mp hall c hmark)
  · have hbounds := Bool.and_eq_true_iff.mp hdigit
    have hlow : 48 ≤ c.toNat := of_decide_eq_true hbounds.1
    have hhigh : c.toNat ≤ 57 := of_decide_eq_true hbounds.2
    refine ⟨by omega, by omega, ?_, ?_⟩ <;> rintro rfl
    · exact absurd hlow (by decide)
    · exact absurd hhigh (by decide)

theorem flatMap_escaped_suffix (worker : Worker) :
    worker.suffix.flatMap Text.escaped = worker.suffix := by
  have hplain : ∀ c ∈ worker.suffix, Text.escaped c = [c] := fun c hc =>
    have ⟨hlow, hhigh, hquote, hback⟩ := printable_of_mem_suffix hc
    Text.escaped_of_printable hlow hhigh hquote hback
  generalize worker.suffix = text at hplain
  induction text with
  | nil => rfl
  | cons c text ih =>
    rw [List.forall_mem_cons] at hplain
    rw [List.flatMap_cons, hplain.1, ih hplain.2, List.singleton_append]

end Worker

theorem Path.join_concat_append (way : List (List Char)) (last more : List Char) :
    Path.join (way ++ [last ++ more]) = Path.join (way ++ [last]) ++ more := by
  induction way with
  | nil => rfl
  | cons piece way ih =>
    cases way with
    | nil => simp [Path.join]
    | cons next way =>
      rw [List.cons_append, List.cons_append] at ih ⊢
      rw [List.cons_append, List.cons_append, Path.join_cons_cons, Path.join_cons_cons, ih,
        List.append_assoc, List.cons_append]

theorem Location.toList_scratch (worker : Worker) (name : String) (directory : Location) :
    (Location.path (worker.scratch name :: directory)).text.toList =
      (Location.path (name :: directory)).text.toList ++ worker.suffix := by
  rw [Location.toList_path, Location.toList_path, Location.pieces_cons, Location.pieces_cons,
    worker.toList_scratch, Path.join_concat_append]

theorem Worker.alike_scratch (worker other : Worker) (name : String) (directory : Location) :
    worker.Alike other (Location.path (worker.scratch name :: directory)).quoted
      (Location.path (other.scratch name :: directory)).quoted := by
  unfold Alike Path.quoted Text.quoted
  rw [String.toList_ofList, String.toList_ofList, Location.toList_scratch, Location.toList_scratch,
    List.flatMap_append, List.flatMap_append, flatMap_escaped_suffix, flatMap_escaped_suffix]
  exact .append (.append (.char '"' (.refl _)) (by simpa using Swaps.suffix .nil)) (.refl _)

/-- A note that a worker leaves, and what the other leaves instead. -/
def Worker.NoteAlike (worker other : Worker) (note note' : Note) : Prop :=
  note.level = note'.level ∧ worker.Alike other note.text note'.text

theorem Worker.NoteAlike.refl {worker other : Worker} (note : Note) :
    worker.NoteAlike other note note := ⟨rfl, .refl _⟩

theorem Worker.NoteAlike.symm {worker other : Worker} {note note' : Note}
    (h : worker.NoteAlike other note note') : other.NoteAlike worker note' note :=
  ⟨h.1.symm, h.2.symm⟩

/-! ### Ends with notes -/

namespace Script

variable {α β γ δ : Type} {exposed : Request → Prop} {disk disk' : Disk} {script : Script α}
  {outcome : Outcome α}

/-- A script can come to an outcome, if some requests are exposed to faults from outside. -/
def ComesTo (exposed : Request → Prop) : Script α → Disk → Outcome α → Prop
  | done value, disk, outcome => outcome = ⟨value, disk, []⟩
  | ask request next, disk, outcome => ∃ reply middle rest,
    request.Yields exposed disk reply middle ∧ (next reply).ComesTo exposed middle rest ∧
      outcome = ⟨rest.value, rest.disk, request.notes ++ rest.notes⟩

theorem ends_iff_comesTo {after : Disk} {value : α} : script.Ends exposed disk after value ↔
    ∃ notes, script.ComesTo exposed disk ⟨value, after, notes⟩ := by
  induction script generalizing disk with
  | done result =>
    rw [ends_done]
    constructor
    · rintro ⟨rfl, rfl⟩
      exact ⟨[], rfl⟩
    · rintro ⟨notes, hend⟩
      cases hend
      exact ⟨rfl, rfl⟩
  | ask request next ih =>
    simp only [ends_ask, ih]
    constructor
    · rintro ⟨reply, middle, step, notes, rest⟩
      exact ⟨_, reply, middle, _, step, rest, rfl⟩
    · rintro ⟨notes, reply, middle, rest, step, hrest, hend⟩
      cases hend
      exact ⟨reply, middle, step, rest.notes, hrest⟩

theorem comesTo_run : script.ComesTo (fun _ => False) disk outcome ↔ outcome = script.run disk := by
  induction script generalizing disk outcome with
  | done value => exact Iff.rfl
  | ask request next ih =>
    constructor
    · rintro ⟨reply, middle, rest, step, hrest, rfl⟩
      cases step with
      | performed => rw [(ih _).mp hrest, run]
      | refused _ _ _ _ risk => exact risk.elim
      | cut _ _ _ _ _ risk => exact risk.elim
    · rintro rfl
      exact ⟨_, _, _, .performed request, (ih _).mpr rfl, rfl⟩

theorem comesTo_bind {script : Script β} {next : β → Script α} :
    (script >>= next).ComesTo exposed disk outcome ↔ ∃ first second,
      script.ComesTo exposed disk first ∧ (next first.value).ComesTo exposed first.disk second ∧
        outcome = ⟨second.value, second.disk, first.notes ++ second.notes⟩ := by
  show (script.bind next).ComesTo exposed disk outcome ↔ _
  induction script generalizing disk outcome with
  | done value =>
    constructor
    · intro h
      exact ⟨_, outcome, rfl, h, rfl⟩
    · rintro ⟨_, second, rfl, h, rfl⟩
      exact h
  | ask request more ih =>
    simp only [Script.bind, ComesTo, ih]
    constructor
    · rintro ⟨reply, middle, _, step, ⟨first, second, hfirst, hsecond, rfl⟩, rfl⟩
      refine ⟨_, second, ⟨reply, middle, first, step, hfirst, rfl⟩, hsecond, ?_⟩
      rw [List.append_assoc]
    · rintro ⟨_, second, ⟨reply, middle, first, step, hfirst, rfl⟩, hsecond, rfl⟩
      refine ⟨reply, middle, _, step, ⟨first, second, hfirst, hsecond, rfl⟩, ?_⟩
      rw [List.append_assoc]

/-- What a listener hears of an outcome. -/
def Outcome.heardAt (level : Level) (outcome : Outcome α) : Outcome α :=
  { outcome with notes := outcome.notes.filter (level.hears ·.level) }

theorem comesTo_heardAt {level : Level} : (script.heardAt level).ComesTo exposed disk outcome ↔
    ∃ told, script.ComesTo exposed disk told ∧ outcome = told.heardAt level := by
  induction script generalizing disk outcome with
  | done value =>
    constructor
    · rintro rfl
      exact ⟨_, rfl, rfl⟩
    · rintro ⟨_, rfl, rfl⟩
      rfl
  | ask request next ih =>
    have hheard : request.notes.filter (level.hears ·.level) = request.notes →
        ((ask request fun reply => (next reply).heardAt level).ComesTo exposed disk outcome ↔
          ∃ told, (ask request next).ComesTo exposed disk told ∧ outcome = told.heardAt level) := by
      intro hnotes
      simp only [ComesTo, ih]
      constructor
      · rintro ⟨reply, middle, _, step, ⟨told, htold, rfl⟩, rfl⟩
        refine ⟨_, ⟨reply, middle, told, step, htold, rfl⟩, ?_⟩
        simp only [Outcome.heardAt, List.filter_append, hnotes]
      · rintro ⟨_, ⟨reply, middle, told, step, htold, rfl⟩, rfl⟩
        refine ⟨reply, middle, _, step, ⟨told, htold, rfl⟩, ?_⟩
        simp only [Outcome.heardAt, List.filter_append, hnotes]
    cases request with
    | tell note =>
      rw [heardAt]
      split_ifs with hlevel
      · exact hheard (List.filter_cons_of_pos hlevel)
      · rw [ih]
        constructor
        · rintro ⟨told, htold, rfl⟩
          refine ⟨_, ⟨(), disk, told, .performed _, htold, rfl⟩, ?_⟩
          simp [Outcome.heardAt, Request.notes, hlevel]
        · rintro ⟨_, ⟨reply, middle, told, step, htold, rfl⟩, rfl⟩
          rw [yields_tell step] at htold
          refine ⟨told, htold, ?_⟩
          simp [Outcome.heardAt, Request.notes, hlevel]
    | _ => exact hheard rfl

/-! ### Scripts of two workers -/

variable {worker other : Worker} {script' : Script β} {value : α} {value' : β}
  {like : Disk → α → Disk → β → Prop}

/-- Whatever the script of a worker can come to, that of the other can come to its like, with notes
that are alike. -/
def Matches (worker other : Worker) (exposed : Request → Prop)
    (like : Disk → α → Disk → β → Prop) (disk : Disk) (script : Script α) (disk' : Disk)
    (script' : Script β) : Prop :=
  ∀ outcome, script.ComesTo exposed disk outcome → ∃ outcome',
    script'.ComesTo exposed disk' outcome' ∧
      like outcome.disk outcome.value outcome'.disk outcome'.value ∧
      List.Forall₂ (worker.NoteAlike other) outcome.notes outcome'.notes

theorem matches_pure (h : like disk value disk' value') :
    Matches worker other exposed like disk (pure value) disk' (pure value') := by
  rintro _ rfl
  exact ⟨_, rfl, h, .nil⟩

theorem Matches.mono {like' : Disk → α → Disk → β → Prop}
    (h : Matches worker other exposed like disk script disk' script')
    (hlike : ∀ after value after' value', like after value after' value' →
      like' after value after' value') :
    Matches worker other exposed like' disk script disk' script' := by
  intro outcome hcomes
  obtain ⟨outcome', hcomes', halike, hnotes⟩ := h outcome hcomes
  exact ⟨outcome', hcomes', hlike _ _ _ _ halike, hnotes⟩

theorem matches_self (worker other : Worker) (exposed : Request → Prop) (disk : Disk)
    (script : Script α) : Matches worker other exposed
      (fun after value after' value' => after' = after ∧ value' = value ∧
        script.Ends exposed disk after value) disk script disk script := by
  intro outcome h
  exact ⟨outcome, h, ⟨rfl, rfl, ends_iff_comesTo.mpr ⟨outcome.notes, h⟩⟩,
    List.forall₂_same.mpr fun note _ => .refl note⟩

theorem matches_request_bind {request request' : Request} {next : request.Reply → Script α}
    {next' : request'.Reply → Script β}
    (hnotes : List.Forall₂ (worker.NoteAlike other) request.notes request'.notes)
    (h : ∀ reply middle, request.Yields exposed disk reply middle → ∃ reply' middle',
      request'.Yields exposed disk' reply' middle' ∧
        Matches worker other exposed like middle (next reply) middle' (next' reply')) :
    Matches worker other exposed like disk (Script.request request >>= next) disk'
      (Script.request request' >>= next') := by
  rintro _ ⟨reply, middle, rest, step, hrest, rfl⟩
  obtain ⟨reply', middle', step', hmatches⟩ := h reply middle step
  obtain ⟨rest', hrest', hlike, hnotes'⟩ := hmatches rest hrest
  exact ⟨_, ⟨reply', middle', rest', step', hrest', rfl⟩, hlike,
    List.rel_append hnotes hnotes'⟩

theorem matches_bind {script : Script γ} {script' : Script δ} {next : γ → Script α}
    {next' : δ → Script β} {between : Disk → γ → Disk → δ → Prop}
    (h : Matches worker other exposed between disk script disk' script')
    (hnext : ∀ middle first middle' first', between middle first middle' first' →
      Matches worker other exposed like middle (next first) middle' (next' first')) :
    Matches worker other exposed like disk (script >>= next) disk' (script' >>= next') := by
  intro outcome hcomes
  obtain ⟨first, second, hfirst, hsecond, rfl⟩ := comesTo_bind.mp hcomes
  obtain ⟨first', hfirst', hbetween, hnotes⟩ := h first hfirst
  obtain ⟨second', hsecond', hlike, hnotes'⟩ := hnext _ _ _ _ hbetween second hsecond
  exact ⟨_, comesTo_bind.mpr ⟨first', second', hfirst', hsecond', rfl⟩, hlike,
    List.rel_append hnotes hnotes'⟩

theorem matches_same_bind {script : Script γ} {next : γ → Script α} {next' : γ → Script β}
    (hnext : ∀ middle first, script.Ends exposed disk middle first →
      Matches worker other exposed like middle (next first) middle (next' first)) :
    Matches worker other exposed like disk (script >>= next) disk (script >>= next') := by
  refine matches_bind (matches_self worker other exposed disk script) ?_
  rintro middle first _ _ ⟨rfl, rfl, hends⟩
  exact hnext _ _ hends

end Script

/-! ### Temporary files of two workers -/

/-- Removals meet no faults from outside, and whether another request can meet one does not depend
on the temporary path that it is about. -/
structure Request.Fair (exposed : Request → Prop) : Prop where
  write : ∀ scratch scratch' bytes, exposed (.write scratch bytes) → exposed (.write scratch' bytes)
  setMode : ∀ scratch scratch' mode, exposed (.setMode scratch mode) →
    exposed (.setMode scratch' mode)
  rename : ∀ scratch scratch' target, exposed (.rename scratch target) →
    exposed (.rename scratch' target)
  remove : ∀ scratch, ¬ exposed (.remove scratch)

theorem Request.fair_butRemoval : Request.Fair Request.butRemoval :=
  ⟨fun _ _ _ h => h, fun _ _ _ h => h, fun _ _ _ h => h, fun _ h => h⟩

theorem Request.fair_none : Request.Fair fun _ => False :=
  ⟨fun _ _ _ h => h, fun _ _ _ h => h, fun _ _ _ h => h, fun _ h => h⟩

theorem mayWrite_put (disk : Disk) (location : Location) (node : Node) (mode : Mode) :
    (disk.put location node).mayWrite mode = disk.mayWrite mode := rfl

/-- Two operations fail with the same fault, or leave disks that are related. -/
inductive Agree (related : Disk → Disk → Prop) : Except Fault Disk → Except Fault Disk → Prop where
  | ok {after after' : Disk} (h : related after after') : Agree related (.ok after) (.ok after')
  | error (fault : Fault) : Agree related (.error fault) (.error fault)

/-- **Two disks that differ in the temporary files of two workers**, if in anything. -/
inductive Drafted (disk : Disk) (scratch scratch' : Path) : Disk → Disk → Prop where
  /-- Neither path can be looked up. -/
  | fault (fault : Fault) (left : ∀ follow, disk.locate follow scratch = .error fault)
    (right : ∀ follow, disk.locate follow scratch' = .error fault) :
    Drafted disk scratch scratch' disk disk
  /-- Nothing is there yet. -/
  | vacant (place place' : Location)
    (left : ∀ follow, disk.locate follow scratch = .ok (.vacant place))
    (right : ∀ follow, disk.locate follow scratch' = .ok (.vacant place')) :
    Drafted disk scratch scratch' disk disk
  /-- Each worker has written its file. -/
  | file (place place' : Location) (mode : Mode) (bytes : ByteArray)
    (left : ∀ follow, disk.locate follow scratch = .ok (.vacant place))
    (right : ∀ follow, disk.locate follow scratch' = .ok (.vacant place')) :
    Drafted disk scratch scratch' (disk.put place (.file mode bytes))
      (disk.put place' (.file mode bytes))

section Drafted

variable {exposed : Request → Prop} {disk middle middle' after : Disk}
  {scratch scratch' target : Path} {bytes : ByteArray} {mode : Mode} {reply : Except Fault Unit}

theorem Drafted.write (h : Drafted disk scratch scratch' middle middle') (bytes : ByteArray) :
    Agree (Drafted disk scratch scratch') (middle.write scratch bytes)
      (middle'.write scratch' bytes) := by
  unfold Disk.write
  cases h with
  | fault fault left right =>
    rw [left, right]
    exact .error fault
  | vacant place place' left right =>
    rw [left, right]
    exact .ok (.file place place' _ bytes left right)
  | file place place' mode old left right =>
    rw [locate_put_vacant (left true), locate_put_vacant (right true)]
    dsimp only
    rw [mayWrite_put, mayWrite_put]
    split_ifs
    · rw [put_put, put_put]
      exact .ok (.file place place' mode bytes left right)
    · exact .error .denied

theorem Drafted.setMode (h : Drafted disk scratch scratch' middle middle') (mode : Mode) :
    Agree (Drafted disk scratch scratch') (middle.setMode scratch mode)
      (middle'.setMode scratch' mode) := by
  unfold Disk.setMode
  cases h with
  | fault fault left right =>
    rw [left, right]
    exact .error fault
  | vacant place place' left right =>
    rw [left, right]
    exact .error .notFound
  | file place place' old bytes left right =>
    rw [locate_put_vacant (left true), locate_put_vacant (right true)]
    dsimp only
    rw [put_put, put_put]
    exact .ok (.file place place' mode bytes left right)

theorem Drafted.rename (h : Drafted disk scratch scratch' middle middle')
    (htarget : middle.locate false target.bare = middle'.locate false target.bare) :
    Agree (· = ·) (middle.rename scratch target) (middle'.rename scratch' target) := by
  unfold Disk.rename
  cases h with
  | fault fault left right =>
    rw [left, right]
    exact .error fault
  | vacant place place' left right =>
    rw [left, right]
    exact .error .notFound
  | file place place' mode bytes left right =>
    have hfree := node?_of_locate_vacant (left false)
    have hfree' := node?_of_locate_vacant (right false)
    rw [locate_put_vacant (left false), locate_put_vacant (right false), htarget]
    dsimp only
    rw [erase_put hfree, erase_put hfree']
    split
    · exact .error _
    · split_ifs
      · exact .error .notDirectory
      · split
        · exact .ok rfl
        · exact .error .isDirectory
        · exact .ok rfl

theorem Drafted.remove (h : Drafted disk scratch scratch' middle middle') :
    ∃ reply, Request.settle middle (middle.remove scratch) = (reply, disk) ∧
      Request.settle middle' (middle'.remove scratch') = (reply, disk) := by
  unfold Disk.remove
  cases h with
  | fault fault left right =>
    rw [left, right]
    exact ⟨.error fault, rfl, rfl⟩
  | vacant place place' left right =>
    rw [left, right]
    exact ⟨.error .notFound, rfl, rfl⟩
  | file place place' mode bytes left right =>
    rw [locate_put_vacant (left false), locate_put_vacant (right false)]
    dsimp only
    rw [erase_put (node?_of_locate_vacant (left false)),
      erase_put (node?_of_locate_vacant (right false))]
    exact ⟨.ok (), rfl, rfl⟩

theorem Agree.settle {related : Disk → Disk → Prop} {result result' : Except Fault Disk}
    (h : Agree related result result') (disk disk' : Disk) : ∃ reply after after',
      Request.settle disk result = (reply, after) ∧ Request.settle disk' result' = (reply, after') ∧
        (reply = .ok () ∧ related after after' ∨
          (∃ fault, reply = .error fault) ∧ after = disk ∧ after' = disk') := by
  cases h with
  | ok h => exact ⟨_, _, _, rfl, rfl, Or.inl ⟨rfl, h⟩⟩
  | error fault => exact ⟨_, _, _, rfl, rfl, Or.inr ⟨⟨fault, rfl⟩, rfl, rfl⟩⟩

theorem Agree.settle_same {related : Disk → Disk → Prop} {disk disk' : Disk}
    {result result' : Except Fault Disk} (h : Agree related result result')
    (hstart : related disk disk') : ∃ reply after after',
      Request.settle disk result = (reply, after) ∧
        Request.settle disk' result' = (reply, after') ∧ related after after' := by
  obtain ⟨reply, after, after', hend, hend', ⟨-, hafter⟩ | ⟨-, rfl, rfl⟩⟩ := h.settle disk disk'
  · exact ⟨reply, after, after', hend, hend', hafter⟩
  · exact ⟨reply, after, after', hend, hend', hstart⟩

/-! ### Requests about temporary files -/

theorem Drafted.yields_write (h : Drafted disk scratch scratch' middle middle')
    (hfair : Request.Fair exposed)
    (hstep : (Request.write scratch bytes).Yields exposed middle reply after) :
    ∃ after', (Request.write scratch' bytes).Yields exposed middle' reply after' ∧
      Drafted disk scratch scratch' after after' := by
  cases hstep with
  | performed =>
    obtain ⟨reply, after, after', hend, hend', hdrafted⟩ := (h.write bytes).settle_same h
    have hperform : (Request.write scratch bytes).perform middle = (reply, after) := hend
    rw [hperform]
    exact ⟨after', yields_of_perform hend', hdrafted⟩
  | refused _ code text _ risk refusal =>
    exact ⟨middle', .refused _ code text _ (hfair.write _ _ _ risk) refusal, h⟩
  | cut _ _ code text _ risk halfway =>
    obtain ⟨_, _, count, heq, hpart⟩ := halfway
    cases heq
    have hagree := h.write (bytes.extract 0 count)
    rw [hpart] at hagree
    generalize hpart' : middle'.write scratch' (bytes.extract 0 count) = result at hagree
    cases hagree with
    | ok hdrafted =>
      exact ⟨_, .cut _ _ code text _ (hfair.write _ _ _ risk) ⟨_, _, count, rfl, hpart'⟩, hdrafted⟩

theorem Drafted.yields_setMode (h : Drafted disk scratch scratch' middle middle')
    (hfair : Request.Fair exposed)
    (hstep : (Request.setMode scratch mode).Yields exposed middle reply after) :
    ∃ after', (Request.setMode scratch' mode).Yields exposed middle' reply after' ∧
      Drafted disk scratch scratch' after after' := by
  cases hstep with
  | performed =>
    obtain ⟨reply, after, after', hend, hend', hdrafted⟩ := (h.setMode mode).settle_same h
    have hperform : (Request.setMode scratch mode).perform middle = (reply, after) := hend
    rw [hperform]
    exact ⟨after', yields_of_perform hend', hdrafted⟩
  | refused _ code text _ risk refusal =>
    exact ⟨middle', .refused _ code text _ (hfair.setMode _ _ _ risk) refusal, h⟩

theorem Drafted.yields_rename (h : Drafted disk scratch scratch' middle middle')
    (hfair : Request.Fair exposed)
    (htarget : middle.locate false target.bare = middle'.locate false target.bare)
    (hstep : (Request.rename scratch target).Yields exposed middle reply after) :
    ∃ after', (Request.rename scratch' target).Yields exposed middle' reply after' ∧
      (reply = .ok () ∧ after = after' ∨
        (∃ fault, reply = .error fault) ∧ Drafted disk scratch scratch' after after') := by
  cases hstep with
  | performed =>
    obtain ⟨reply, after, after', hend, hend', hafter⟩ := (h.rename htarget).settle middle middle'
    have hperform : (Request.rename scratch target).perform middle = (reply, after) := hend
    rw [hperform]
    refine ⟨after', yields_of_perform hend', hafter.imp_right ?_⟩
    rintro ⟨hfault, rfl, rfl⟩
    exact ⟨hfault, h⟩
  | refused _ code text _ risk refusal =>
    exact ⟨middle', .refused _ code text _ (hfair.rename _ _ _ risk) refusal,
      Or.inr ⟨⟨_, (Option.some.inj refusal).symm⟩, h⟩⟩

theorem Drafted.yields_remove (h : Drafted disk scratch scratch' middle middle')
    (hfair : Request.Fair exposed)
    (hstep : (Request.remove scratch).Yields exposed middle reply after) :
    after = disk ∧ (Request.remove scratch').Yields exposed middle' reply disk := by
  obtain ⟨reply, hend, hend'⟩ := h.remove
  cases hstep with
  | performed =>
    have hperform : (Request.remove scratch).perform middle = (reply, disk) := hend
    rw [hperform]
    exact ⟨rfl, yields_of_perform hend'⟩
  | refused _ _ _ _ risk => exact absurd risk (hfair.remove _)

/-- New files elsewhere do not change where a path leads. -/
def Steady (disk : Disk) (target : Path) : Prop :=
  ∀ place mode bytes follow, disk.node? place = none →
    (disk.put place (.file mode bytes)).locate follow target = disk.locate follow target

theorem Drafted.locate (h : Drafted disk scratch scratch' middle middle')
    (hsteady : disk.Steady target) (follow : Bool) :
    middle.locate follow target = middle'.locate follow target := by
  cases h with
  | fault => rfl
  | vacant => rfl
  | file place place' mode bytes left right =>
    rw [hsteady _ _ _ _ (node?_of_locate_vacant (left true)),
      hsteady _ _ _ _ (node?_of_locate_vacant (right true))]

theorem Drafted.yields_readMode (h : Drafted disk scratch scratch' middle middle')
    (hsteady : disk.Steady target) {reply : Except Fault Mode}
    (hstep : (Request.readMode target).Yields exposed middle reply after) :
    after = middle ∧ (Request.readMode target).Yields exposed middle' reply middle' := by
  cases hstep with
  | performed =>
    refine ⟨rfl, yields_of_perform ?_⟩
    have hmode : middle'.mode target = middle.mode target := by
      rw [Disk.mode, Disk.mode, h.locate hsteady]
    exact congrArg (·, middle') hmode
  | refused _ code text _ risk refusal => exact ⟨rfl, .refused _ code text _ risk refusal⟩

/-! ### Replacements by two workers -/

variable {worker other : Worker}

/-- Two replacements end on the same disk, or fail with faults that are told alike, on disks that
are related. -/
inductive AlikeEnds (worker other : Worker) (related : Disk → Disk → Prop) :
    Disk → Except ReplaceFault Unit → Disk → Except ReplaceFault Unit → Prop where
  | ok (after : Disk) : AlikeEnds worker other related after (.ok ()) after (.ok ())
  | error {fault fault' : ReplaceFault} {after after' : Disk}
    (message : worker.Alike other fault.message fault'.message) (h : related after after') :
    AlikeEnds worker other related after (.error fault) after' (.error fault')

theorem alike_failed {path path' : Path} (h : worker.Alike other path.quoted path'.quoted)
    (activity : Activity) (fault : Fault) : worker.Alike other
      (ReplaceFault.failed activity path fault).message
      (ReplaceFault.failed activity path' fault).message :=
  (((Worker.Alike.refl _).append h).append (.refl _)).append (.refl _)

theorem matches_takePlace (h : Drafted disk scratch scratch' middle middle')
    (hfair : Request.Fair exposed) (hsteady : disk.Steady target) (hbare : target.bare = target) :
    Script.Matches worker other exposed
      (AlikeEnds worker other (Drafted disk scratch scratch')) middle (takePlace scratch target)
      middle' (takePlace scratch' target) := by
  refine Script.matches_request_bind .nil fun reply after step => ?_
  have hplace : middle.locate false target.bare = middle'.locate false target.bare := by
    rw [hbare]
    exact h.locate hsteady false
  obtain ⟨after', step', hafter⟩ := h.yields_rename hfair hplace step
  refine ⟨reply, after', step', ?_⟩
  rcases hafter with ⟨rfl, rfl⟩ | ⟨⟨fault, rfl⟩, hdrafted⟩
  · exact Script.matches_pure (.ok after)
  · exact Script.matches_pure (.error (alike_failed (.refl _) _ _) hdrafted)

/-- **Two workers attempt the same**, and differ in their temporary files until one of them is
moved. -/
theorem matches_attempt (h : Drafted disk scratch scratch' disk disk)
    (hscratch : worker.Alike other scratch.quoted scratch'.quoted) (hfair : Request.Fair exposed)
    (hsteady : disk.Steady target) (hbare : target.bare = target) (bytes : ByteArray) :
    Script.Matches worker other exposed
      (AlikeEnds worker other (Drafted disk scratch scratch')) disk (attempt scratch target bytes)
      disk (attempt scratch' target bytes) := by
  refine Script.matches_request_bind .nil fun reply written step => ?_
  obtain ⟨written', step', hwritten⟩ := h.yields_write hfair step
  refine ⟨reply, written', step', ?_⟩
  cases reply with
  | error fault => exact Script.matches_pure (.error (alike_failed hscratch _ _) hwritten)
  | ok _ =>
    refine Script.matches_request_bind .nil fun reply middle step => ?_
    obtain ⟨rfl, step'⟩ := hwritten.yields_readMode hsteady step
    refine ⟨reply, written', step', ?_⟩
    split
    · exact matches_takePlace hwritten hfair hsteady hbare
    · exact Script.matches_pure (.error (alike_failed (.refl _) _ _) hwritten)
    · refine Script.matches_request_bind .nil fun reply ready step => ?_
      obtain ⟨ready', step', hready⟩ := hwritten.yields_setMode hfair step
      refine ⟨reply, ready', step', ?_⟩
      cases reply with
      | error fault => exact Script.matches_pure (.error (alike_failed hscratch _ _) hready)
      | ok _ => exact matches_takePlace hready hfair hsteady hbare

theorem matches_discard (h : Drafted disk scratch scratch' middle middle')
    (hscratch : worker.Alike other scratch.quoted scratch'.quoted) (hfair : Request.Fair exposed) :
    Script.Matches worker other exposed (fun after _ after' _ => after = disk ∧ after' = disk)
      middle (discard scratch) middle' (discard scratch') := by
  refine Script.matches_request_bind .nil fun reply after step => ?_
  obtain ⟨rfl, step'⟩ := h.yields_remove hfair step
  refine ⟨reply, after, step', ?_⟩
  split
  · exact Script.matches_pure ⟨rfl, rfl⟩
  · exact Script.matches_pure ⟨rfl, rfl⟩
  · next fault _ =>
    have hnote : worker.Alike other
        ("error deleting temporary file " ++ scratch.quoted ++ ": " ++ fault.message)
        ("error deleting temporary file " ++ scratch'.quoted ++ ": " ++ fault.message) :=
      (((Worker.Alike.refl _).append hscratch).append (.refl _)).append (.refl _)
    refine Script.matches_request_bind (.cons ⟨rfl, hnote⟩ .nil) fun reply told step => ?_
    exact ⟨(), _, .performed _, Script.matches_pure ⟨yields_tell step, rfl⟩⟩

end Drafted

/-! ### Workers that are not hampered -/

/-- A path that cannot be looked up as it is too long, or a name in it. -/
def Path.isTooLong (path : Path) : Bool :=
  maxPath ≤ path.text.utf8ByteSize ||
    (Path.names path.text.toList).any (maxName < ·.utf8ByteSize)

/-- **Neither of two workers is hampered** more than the other at the file of a path: no entry
stands under either temporary name, and both names are short enough or neither is. -/
structure Unhampered (disk : Disk) (worker other : Worker) (path : Path) : Prop where
  clean : disk.Untouched worker path
  clean_other : disk.Untouched other path
  short : (disk.temporary? worker path).map Path.isTooLong =
    (disk.temporary? other path).map Path.isTooLong

theorem Unhampered.symm {disk : Disk} {worker other : Worker} {path : Path}
    (h : disk.Unhampered worker other path) : disk.Unhampered other worker path :=
  ⟨h.clean_other, h.clean, h.short.symm⟩

section Replace

variable {exposed : Request → Prop} {disk : Disk} {worker other : Worker} {path : Path}
  {name : String} {directory : Location} {mode : Mode} {old : ByteArray}

theorem isTooLong_scratch (hdirectory : disk.HasDirectory directory) (hname : IsName name) :
    (Location.path (worker.scratch name :: directory)).isTooLong =
      (decide (maxPath ≤ (Location.path (worker.scratch name :: directory)).text.utf8ByteSize) ||
        decide (maxName < (worker.scratch name).utf8ByteSize)) := by
  have hpieces : ∀ x ∈ worker.scratch name :: directory, IsPiece x :=
    List.forall_mem_cons.mpr
      ⟨worker.isPiece_scratch hname.piece, fun x hx => (hdirectory.isName x hx).piece⟩
  have hshort : directory.any (maxName < ·.utf8ByteSize) = false := by
    rw [List.any_eq_false]
    intro x hx
    simpa using (hdirectory.isName x hx).short
  unfold Path.isTooLong
  rw [Location.names_path hpieces, List.any_reverse, List.any_cons, hshort, Bool.or_false]

theorem locate_temporary (hdirectory : disk.HasDirectory directory) (hname : IsName name)
    (hclean : disk.NoEntry (Location.path (worker.scratch name :: directory))) (follow : Bool) :
    disk.locate follow (Location.path (worker.scratch name :: directory)) =
      if '\x00' ∈ (Location.path (name :: directory)).text.toList then .error .nulInPath
      else if (Location.path (worker.scratch name :: directory)).isTooLong then .error .nameTooLong
      else .ok (.vacant (worker.scratch name :: directory)) := by
  have hnul : '\x00' ∈ (Location.path (worker.scratch name :: directory)).text.toList ↔
      '\x00' ∈ (Location.path (name :: directory)).text.toList := by
    rw [Location.toList_scratch, List.mem_append]
    exact or_iff_left fun hsuffix => absurd (Worker.printable_of_mem_suffix hsuffix).1 (by decide)
  have hfollow : disk.locate follow (Location.path (worker.scratch name :: directory)) =
      disk.locate false (Location.path (worker.scratch name :: directory)) := by
    cases follow with
    | false => rfl
    | true => exact hclean.locate
  have hlocate : disk.locate false (Location.path (worker.scratch name :: directory)) = _ :=
    locate_path hdirectory (worker.isPiece_scratch hname.piece) rfl
  rw [walk_cons, if_neg (worker.scratch_ne_points name).1, if_neg (worker.scratch_ne_points name).2,
    arrive_false] at hlocate
  rw [hfollow, isTooLong_scratch hdirectory hname]
  simp only [hnul] at hlocate
  simp only [Bool.or_eq_true, decide_eq_true_eq]
  by_cases hpath : maxPath ≤ (Location.path (worker.scratch name :: directory)).text.utf8ByteSize
  · simpa only [hpath, if_true, true_or] using hlocate
  by_cases hlong : maxName < (worker.scratch name).utf8ByteSize
  · simpa only [hpath, hlong, if_true, if_false, or_true] using hlocate
  simp only [hpath, hlong, if_false, or_self] at hlocate ⊢
  rw [hlocate]
  cases hnode : disk.node? (worker.scratch name :: directory) with
  | none => rfl
  | some node =>
    rw [hnode] at hlocate
    split_ifs at hlocate ⊢
    · rfl
    · exact absurd hlocate (hclean _ node)

theorem drafted_of_short (hdirectory : disk.HasDirectory directory) (hname : IsName name)
    (hclean : disk.NoEntry (Location.path (worker.scratch name :: directory)))
    (hclean' : disk.NoEntry (Location.path (other.scratch name :: directory)))
    (hshort : (Location.path (worker.scratch name :: directory)).isTooLong =
      (Location.path (other.scratch name :: directory)).isTooLong) :
    Drafted disk (Location.path (worker.scratch name :: directory))
      (Location.path (other.scratch name :: directory)) disk disk := by
  have hleft := locate_temporary hdirectory hname hclean
  have hright := locate_temporary hdirectory hname hclean'
  rw [← hshort] at hright
  by_cases hnul : '\x00' ∈ (Location.path (name :: directory)).text.toList
  · simp only [if_pos hnul] at hleft hright
    exact .fault _ hleft hright
  simp only [if_neg hnul] at hleft hright
  by_cases hlong : (Location.path (worker.scratch name :: directory)).isTooLong = true
  · simp only [if_pos hlong] at hleft hright
    exact .fault _ hleft hright
  · simp only [if_neg hlong] at hleft hright
    exact .vacant _ _ hleft hright

theorem steady_path (hdirectory : disk.HasDirectory directory) (hname : IsName name)
    (hfile : disk.node? (name :: directory) = some (.file mode old)) :
    disk.Steady (Location.path (name :: directory)) := by
  intro place mode' bytes follow hfree
  have hroom : disk.HasRoom place := Or.inl hfree
  have hput : ∀ x, (disk.put place (.file mode' bytes)).node? x =
      if x = place then some (.file mode' bytes) else disk.node? x := node?_put_eq hroom.ne_nil _
  have hkept : (disk.put place (.file mode' bytes)).node? (name :: directory) =
      some (.file mode old) := by
    rw [hput, if_neg, hfile]
    rintro rfl
    cases hfile.symm.trans hfree
  rw [locate_path (hdirectory.of_room hroom hput) hname.piece rfl,
    locate_path hdirectory hname.piece rfl, walk_name hname, walk_name hname, arrive, arrive, hkept,
    hfile]

/-- **Two workers replace a file alike**: they end on the same disk, and what they say is alike. -/
theorem matches_replace (hsound : disk.Sound) (hread : disk.read path = .ok old)
    (h : disk.Unhampered worker other path) (hfair : Request.Fair exposed) (bytes : ByteArray) :
    Script.Matches worker other exposed (AlikeEnds worker other (· = ·)) disk
      (replace worker path bytes) disk (replace other path bytes) := by
  obtain ⟨location, mode, hlocate, -⟩ := read_ok hread
  obtain ⟨hfile, name, directory, rfl, hname, hdirectory⟩ := isEntry_of_locate hsound hlocate
  refine Script.matches_same_bind fun middle found hends => ?_
  obtain ⟨rfl, htargets⟩ := (keeps_target exposed disk path).ends hends
  cases found with
  | error fault => exact Script.matches_pure (.error (.refl _) rfl)
  | ok target =>
    -- the path leads to a file, so it was resolved
    obtain rfl : target = Location.path (name :: directory) := by
      have hresolve := resolve_of_locate hlocate
      rcases htargets target rfl with hfound | ⟨hnone, -⟩
      · rw [hfound] at hresolve
        split_ifs at hresolve
        exact Except.ok.inj hresolve
      · rw [hnone] at hresolve
        split_ifs at hresolve
        cases hresolve
    have hpath : ∀ worker' : Worker, (Location.path (name :: directory)).scratch? worker' =
        some (Location.path (worker'.scratch name :: directory)) := fun worker' =>
      Path.scratch?_path worker' (List.forall_mem_cons.mpr ⟨hname, hdirectory.isName⟩)
    have htemporary : ∀ worker' : Worker, middle.temporary? worker' path =
        some (Location.path (worker'.scratch name :: directory)) := fun worker' =>
      ((htargets _ rfl).temporary? worker').trans (hpath worker')
    have hscratch := worker.alike_scratch other name directory
    have hshort := h.short
    rw [htemporary, htemporary] at hshort
    have hdrafted := drafted_of_short hdirectory hname (h.clean _ (htemporary worker))
      (h.clean_other _ (htemporary other)) (Option.some.inj hshort)
    dsimp only
    rw [hpath, hpath]
    refine Script.matches_bind (matches_attempt hdrafted hscratch hfair
      (steady_path hdirectory hname hfile) (Location.bare_path hname.piece directory) bytes) ?_
    intro attempted outcome attempted' outcome' hattempted
    cases hattempted with
    | ok => exact Script.matches_pure (.ok attempted)
    | error hmessage hleft =>
      refine Script.matches_bind (matches_discard hleft hscratch hfair) ?_
      rintro _ _ _ _ ⟨rfl, rfl⟩
      exact Script.matches_pure (.error hmessage rfl)

end Replace

end Disk

end BenchLedger
