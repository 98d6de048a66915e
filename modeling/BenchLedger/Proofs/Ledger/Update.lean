import BenchLedger.Ledger.Store
import BenchLedger.Proofs.Disk.ReadBack
import BenchLedger.Proofs.Ledger.Aggregation
import BenchLedger.Proofs.Ledger.RoundTrip

/-! # Samples posted to files

An update reads the whole file, posts in memory and replaces the whole file, so what it does is
known from the three parts.

* `written_of_update`: what an update that succeeds leaves in the file.
* `load_update_iff`: the file is read back as the ledger in memory just if the key is legible.
* `updateAll_refines`: updates on the disk do what the same posts in memory do. -/

namespace BenchLedger.Ledger

open Disk (Path Worker Script decode_eq_ok)

variable {disk : Disk} {worker : Worker} {path : Path} {key : Key} {sample : Binary64}
  {posting : Posting} {ledger : Ledger}

/-! ### A ledger that was loaded -/

theorem disk_load (disk : Disk) (path : Path) : ((load path).run disk).disk = disk := by
  rw [load, Script.run_bind]
  dsimp only
  split
  · rfl
  · split
    · rfl
    · rw [Script.run_bind, Script.run_noteAll]
      rfl

theorem value_load (disk : Disk) (path : Path) : ((load path).run disk).value =
    match Disk.decode path (disk.read path) with
    | .error fault => .error (.reading fault)
    | .ok text => (read text).mapError (.parsing path) := by
  have htext : (Disk.readText path).run disk = ⟨Disk.decode path (disk.read path), disk, []⟩ := rfl
  rw [load, Script.run_bind, htext]
  dsimp only
  cases Disk.decode path (disk.read path) with
  | error fault => rfl
  | ok text =>
    dsimp only
    cases read text with
    | error fault => rfl
    | ok ledger =>
      dsimp only
      rw [Script.run_bind, Script.run_noteAll]
      rfl

theorem load_eq_ok : ((load path).run disk).value = .ok ledger ↔
    ∃ text, disk.read path = .ok text.toUTF8 ∧ read text = .ok ledger := by
  rw [value_load]
  simp only [← decode_eq_ok path]
  cases Disk.decode path (disk.read path) with
  | error fault => simp
  | ok text => cases h : read text <;> simp [Except.mapError, h]

theorem load_of_read {text : String} (hread : disk.read path = .ok text.toUTF8) :
    ((load path).run disk).value = (read text).mapError (.parsing path) := by
  rw [value_load, (decode_eq_ok path).mpr hread]

/-! ### One update -/

theorem value_save (disk : Disk) : ((save worker path ledger).run disk).value =
    ((Disk.replace worker path ledger.text.toUTF8).run disk).value.mapError (.writing path) := by
  rw [save, Script.run_bind]
  dsimp only
  cases ((Disk.replace worker path ledger.text.toUTF8).run disk).value <;> rfl

theorem disk_save (disk : Disk) : ((save worker path ledger).run disk).disk =
    ((Disk.replace worker path ledger.text.toUTF8).run disk).disk := by
  rw [save, Script.run_bind]
  dsimp only
  cases ((Disk.replace worker path ledger.text.toUTF8).run disk).value <;> rfl

theorem update_ok (h : ((update worker path key sample).run disk).value = .ok posting) :
    ∃ ledger, ((load path).run disk).value = .ok ledger ∧ posting = (ledger.post key sample).1 ∧
      ((save worker path (ledger.post key sample).2).run disk).value = .ok () ∧
      ((update worker path key sample).run disk).disk =
        ((save worker path (ledger.post key sample).2).run disk).disk := by
  rw [update, Script.run_bind] at h ⊢
  dsimp only at h ⊢
  rw [disk_load] at h ⊢
  cases hload : ((load path).run disk).value with
  | error fault => rw [hload] at h; cases h
  | ok ledger =>
    rw [hload] at h
    dsimp only at h ⊢
    rw [Script.run_bind] at h ⊢
    dsimp only at h ⊢
    cases hsave : ((save worker path (ledger.post key sample).2).run disk).value with
    | error fault => rw [hsave] at h; cases h
    | ok _ =>
      rw [hsave] at h
      cases h
      exact ⟨ledger, rfl, rfl, hsave, rfl⟩

/-- **What an update that succeeds leaves.** It posts the sample to the ledger that the file held,
and writes the new ledger to the file. -/
theorem written_of_update (hsound : disk.Sound)
    (h : ((update worker path key sample).run disk).value = .ok posting) :
    ∃ text ledger, disk.read path = .ok text.toUTF8 ∧ read text = .ok ledger ∧
      posting = (ledger.post key sample).1 ∧
      Disk.Written disk ((update worker path key sample).run disk).disk worker path
        (ledger.post key sample).2.text.toUTF8 := by
  obtain ⟨ledger, hload, hposting, hsave, hdisk⟩ := update_ok h
  obtain ⟨text, hread, hparse⟩ := load_eq_ok.mp hload
  refine ⟨text, ledger, hread, hparse, hposting, ?_⟩
  rw [hdisk, disk_save]
  refine Disk.written_of_replace hsound hread ?_
  rw [value_save] at hsave
  cases hreplace : ((Disk.replace worker path (ledger.post key sample).2.text.toUTF8).run
      disk).value with
  | error fault => rw [hreplace] at hsave; cases hsave
  | ok _ => rfl

/-- **An update is read back just if the key is legible.** The file then holds the ledger that was
in memory, with the row of the key. It can be read at all unless a symbolic link stood under the
temporary name. -/
theorem load_update_iff (hsound : disk.Sound)
    (h : ((update worker path key sample).run disk).value = .ok posting) :
    ∃ ledger, ((load path).run disk).value = .ok ledger ∧ posting = (ledger.post key sample).1 ∧
      (((load path).run ((update worker path key sample).run disk).disk).value =
          .ok (ledger.post key sample).2 ↔
        key.Legible ∧ ∃ bytes, ((update worker path key sample).run disk).disk.read path =
          .ok bytes) ∧
      (disk.hasStaleLink worker path = false →
        ∃ bytes, ((update worker path key sample).run disk).disk.read path = .ok bytes) ∧
      (ledger.post key sample).2.find? key =
        some (((ledger.find? key).map (·.absorb sample)).getD (Row.start key sample)) := by
  obtain ⟨text, ledger, hread, hparse, hposting, hwritten⟩ := written_of_update hsound h
  refine ⟨ledger, load_eq_ok.mpr ⟨text, hread, hparse⟩, hposting, ?_,
    fun hstale => ⟨_, hwritten.readable hstale⟩, find?_post ledger key sample⟩
  rw [load_eq_ok]
  constructor
  · rintro ⟨text', hread', hparse'⟩
    have hsame := hwritten.contents _ hread'
    obtain rfl := String.toByteArray_inj.mp hsame
    exact ⟨(read_text_post_iff hparse key sample).mp hparse', _, hread'⟩
  · rintro ⟨hkey, bytes, hbytes⟩
    refine ⟨_, ?_, (read_text_post_iff hparse key sample).mpr hkey⟩
    rw [hbytes, hwritten.contents bytes hbytes]

/-- A disk with a file in its root, and nothing else. -/
def diskOf (text : String) : Disk := ⟨[(["r"], .file Disk.Node.fileMode text.toUTF8)], {}⟩

theorem sound_diskOf (text : String) : (diskOf text).Sound := trivial

/-- A number that was written. -/
def numberOf (text : String) : Binary64 := (Binary64.read? text.toList).getD .nan

theorem load_update_legible : ∃ ledger, ((load ⟨"r"⟩).run (diskOf heading)).value = .ok ledger ∧
    ((load ⟨"r"⟩).run ((update ⟨7, 8⟩ ⟨"r"⟩ ⟨"a", "op", "1", "8"⟩ (numberOf "1.0")).run
      (diskOf heading)).disk).value =
        .ok (ledger.post ⟨"a", "op", "1", "8"⟩ (numberOf "1.0")).2 := by
  have hok : ((update ⟨7, 8⟩ ⟨"r"⟩ ⟨"a", "op", "1", "8"⟩ (numberOf "1.0")).run
      (diskOf heading)).value = .ok .appended := by decide +kernel
  obtain ⟨ledger, hload, -, hiff, hreadable, -⟩ := load_update_iff (sound_diskOf heading) hok
  exact ⟨ledger, hload, hiff.mpr ⟨by decide, hreadable (by decide +kernel)⟩⟩

/-- A key with a space in it makes a row that is not read back. -/
theorem load_update_spaced :
    ((update ⟨7, 8⟩ ⟨"r"⟩ ⟨"a b", "op", "1", "8"⟩ (numberOf "1.0")).run
        (diskOf (heading ++ "\n"))).value = .ok .appended ∧
      ((load ⟨"r"⟩).run ((update ⟨7, 8⟩ ⟨"r"⟩ ⟨"a b", "op", "1", "8"⟩ (numberOf "1.0")).run
        (diskOf (heading ++ "\n"))).disk).value =
          .error (.parsing ⟨"r"⟩ (.fieldCount 2 8 "a b op 1 8 1.0 ± 0.0")) := by
  decide +kernel

/-! ### Updates one after the other -/

/-- An update to be made, and who makes it. -/
structure Call where
  worker : Worker
  key : Key
  sample : Binary64

/-- What an update posts. -/
def Call.entry (call : Call) : Key × Binary64 := (call.key, call.sample)

/-- Updates of one file, one after the other. -/
def updateAll (path : Path) : List Call → Script (List (Except StoreFault Posting))
  | [] => return []
  | call :: calls => do
    let first ← update call.worker path call.key call.sample
    let others ← updateAll path calls
    return first :: others

theorem run_updateAll_cons (disk : Disk) (path : Path) (call : Call) (calls : List Call) :
    let first := (update call.worker path call.key call.sample).run disk
    let others := (updateAll path calls).run first.disk
    ((updateAll path (call :: calls)).run disk).value = first.value :: others.value ∧
      ((updateAll path (call :: calls)).run disk).disk = others.disk := by
  dsimp only
  rw [updateAll, Script.run_bind]
  dsimp only
  rw [Script.run_bind]
  exact ⟨rfl, rfl⟩

/-- The file is there for the ledger: it cannot be read as anything else. -/
structure Held (disk : Disk) (path : Path) (ledger : Ledger) : Prop where
  sound : disk.Sound
  legible : ledger.Legible
  contents : ∀ contents, disk.read path = .ok contents → contents = ledger.text.toUTF8

/-- No symbolic link stands under a temporary name that the calls use. -/
def Clear (disk : Disk) (path : Path) (calls : List Call) : Prop :=
  ∀ call ∈ calls, disk.hasStaleLink call.worker path = false

/-- **One update.** The file is held for the ledger after the post. -/
theorem held_of_update (hsound : disk.Sound) (hload : ((load path).run disk).value = .ok ledger)
    (hkey : key.Legible) (h : ((update worker path key sample).run disk).value = .ok posting) :
    posting = (ledger.post key sample).1 ∧
      Held ((update worker path key sample).run disk).disk path (ledger.post key sample).2 ∧
      ∀ calls, disk.hasStaleLink worker path = false → Clear disk path calls →
        Clear ((update worker path key sample).run disk).disk path calls ∧
        ((update worker path key sample).run disk).disk.read path =
          .ok (ledger.post key sample).2.text.toUTF8 := by
  obtain ⟨text, ledger', hread, hparse, hposting, hwritten⟩ := written_of_update hsound h
  obtain rfl : ledger = ledger' := by
    rw [load_of_read hread, hparse] at hload
    exact (Except.ok.inj hload).symm
  have hlegible := (legible_post_iff (legible_of_read hparse) key sample).mpr hkey
  exact ⟨hposting, ⟨hwritten.sound, hlegible, hwritten.contents⟩, fun calls hstale hclear =>
    ⟨fun call hcall => hwritten.fresh hstale _ (hclear call hcall), hwritten.readable hstale⟩⟩

theorem Held.load (hheld : Held disk path ledger)
    (h : ((update worker path key sample).run disk).value = .ok posting) :
    ((load path).run disk).value = .ok ledger := by
  obtain ⟨ledger', hload, -⟩ := update_ok h
  obtain ⟨text, hread, -⟩ := load_eq_ok.mp hload
  refine load_eq_ok.mpr ⟨ledger.text, ?_, (read_text_iff ledger).mpr hheld.legible⟩
  rw [hread, hheld.contents _ hread]

/-- **Any number of updates.** -/
theorem Held.updateAll {calls : List Call} (hheld : Held disk path ledger)
    (hlegible : ∀ call ∈ calls, call.key.Legible)
    (hok : ∀ result ∈ ((updateAll path calls).run disk).value, ∃ posting, result = .ok posting) :
    ((updateAll path calls).run disk).value =
        (ledger.postAll (calls.map Call.entry)).1.map .ok ∧
      Held ((updateAll path calls).run disk).disk path
        (ledger.postAll (calls.map Call.entry)).2 ∧
      (Clear disk path calls → disk.read path = .ok ledger.text.toUTF8 →
        ((updateAll path calls).run disk).disk.read path =
          .ok (ledger.postAll (calls.map Call.entry)).2.text.toUTF8) := by
  induction calls generalizing disk ledger with
  | nil => exact ⟨rfl, hheld, fun _ hread => hread⟩
  | cons call calls ih =>
    obtain ⟨hvalue, hdisk⟩ := run_updateAll_cons disk path call calls
    rw [hvalue, List.forall_mem_cons] at hok
    rw [List.forall_mem_cons] at hlegible
    obtain ⟨⟨posting, hfirst⟩, hothers⟩ := hok
    obtain ⟨hposting, hheld', hclear'⟩ :=
      held_of_update hheld.sound (hheld.load hfirst) hlegible.1 hfirst
    obtain ⟨hvalues, hfinal, hread⟩ := ih hheld' hlegible.2 hothers
    rw [hvalue, hdisk, hfirst, hvalues, hposting]
    refine ⟨rfl, hfinal, fun hclear _ => ?_⟩
    obtain ⟨hstale, hclear⟩ := List.forall_mem_cons.mp hclear
    obtain ⟨hclear, hwritten⟩ := hclear' calls hstale hclear
    exact hread hclear hwritten

end BenchLedger.Ledger
