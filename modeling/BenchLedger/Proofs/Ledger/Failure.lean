import BenchLedger.Ledger.Store
import BenchLedger.Proofs.Disk.Rollback

/-! # Ledgers that cannot be stored

Loading a ledger changes nothing, and a save is one replacement. So a sample that is not posted, or
a ledger that is not saved, leaves the disk as it was (`unchanged_of_failure`), whatever goes wrong:
the path, the file, or a request that meets a fault from outside the disk. Only a second fault, when
the temporary file is to be removed, leaves something behind: this file
(`ends_replace_leftover`). -/

namespace BenchLedger.Ledger

open Disk (Path Worker Script)

variable {exposed : Disk.Request → Prop} {disk after : Disk} {worker : Worker} {path : Path}
  {key : Key} {sample : Binary64} {ledger : Ledger} {fault : StoreFault}

theorem ends_load {found : Except StoreFault Ledger}
    (h : (load path).Ends exposed disk after found) : after = disk := by
  unfold load at h
  obtain ⟨text, middle, hread, hrest⟩ := Script.ends_bind.mp h
  rw [← (Disk.ends_readText hread).1]
  split at hrest
  · exact (Script.ends_pure.mp hrest).1
  · split at hrest
    · exact (Script.ends_pure.mp hrest).1
    · obtain ⟨_, noted, hnotes, hend⟩ := Script.ends_bind.mp hrest
      have hnoted := Script.ends_noteAll hnotes
      rw [(Script.ends_pure.mp hend).1, hnoted]

theorem ends_save_error (h : (save worker path ledger).Ends exposed disk after (.error fault)) :
    ∃ why, (Disk.replace worker path ledger.text.toUTF8).Ends exposed disk after (.error why) := by
  unfold save at h
  obtain ⟨outcome, middle, hreplace, h⟩ := Script.ends_bind.mp h
  cases outcome with
  | error why =>
    have hafter : after = middle := (Script.ends_pure.mp h).1
    exact ⟨why, hafter ▸ hreplace⟩
  | ok _ =>
    have hvalue := (Script.ends_pure.mp h).2
    cases hvalue

theorem ends_save_ok (h : (save worker path ledger).Ends exposed disk after (.ok ())) :
    (Disk.replace worker path ledger.text.toUTF8).Ends exposed disk after (.ok ()) := by
  unfold save at h
  obtain ⟨outcome, middle, hreplace, h⟩ := Script.ends_bind.mp h
  cases outcome with
  | error why => cases (Script.ends_pure.mp h).2
  | ok _ =>
    have hafter : after = middle := (Script.ends_pure.mp h).1
    exact hafter ▸ hreplace

theorem ends_update_error (h : (update worker path key sample).Ends exposed disk
      after (.error fault)) :
    after = disk ∨ ∃ posted why,
      (save worker path posted).Ends exposed disk after (.error why) := by
  unfold update at h
  obtain ⟨found, middle, hload, h⟩ := Script.ends_bind.mp h
  obtain rfl := ends_load hload
  cases found with
  | error why => exact Or.inl (Script.ends_pure.mp h).1
  | ok ledger =>
    obtain ⟨outcome, saved, hsave, h⟩ := Script.ends_bind.mp h
    cases outcome with
    | error why =>
      have hafter : after = saved := (Script.ends_pure.mp h).1
      exact Or.inr ⟨_, why, hafter ▸ hsave⟩
    | ok _ =>
      obtain ⟨_, noted, -, h⟩ := Script.ends_bind.mp h
      have hvalue := (Script.ends_pure.mp h).2
      cases hvalue

/-- Something was to be stored under a path, and was not: new contents, a ledger or a sample. -/
def Fails (exposed : Disk.Request → Prop) (worker : Worker) (path : Path) (disk after : Disk) :
    Prop :=
  (∃ bytes why, (Disk.replace worker path bytes).Ends exposed disk after (.error why)) ∨
    (∃ ledger why, (save worker path ledger).Ends exposed disk after (.error why)) ∨
    ∃ key sample why, (update worker path key sample).Ends exposed disk after (.error why)

theorem Fails.replace_or (h : Fails exposed worker path disk after) : after = disk ∨
    ∃ bytes why, (Disk.replace worker path bytes).Ends exposed disk after (.error why) := by
  rcases h with hreplace | ⟨ledger, why, hsave⟩ | ⟨key, sample, why, hupdate⟩
  · exact Or.inr hreplace
  · obtain ⟨why', hreplace⟩ := ends_save_error hsave
    exact Or.inr ⟨_, why', hreplace⟩
  · rcases ends_update_error hupdate with hsame | ⟨posted, why', hsave⟩
    · exact Or.inl hsame
    · obtain ⟨why'', hreplace⟩ := ends_save_error hsave
      exact Or.inr ⟨_, why'', hreplace⟩

theorem Fails.restored (h : Fails exposed worker path disk after)
    (hclean : disk.Untouched worker path) : disk.Restored exposed worker path after := by
  rcases h.replace_or with hsame | ⟨bytes, why, hreplace⟩
  · exact Or.inl hsame
  · exact (Disk.keeps_replace hclean bytes).ends hreplace

/-- **What fails changes nothing.** If no entry stands under the temporary name, then however
something fails to be stored, this ends on the very disk it began on, if no fault can keep the
temporary file from being removed. If one can, there is at most this file besides. -/
theorem unchanged_of_failure (hclean : disk.Untouched worker path)
    (h : Fails exposed worker path disk after) :
    ((∀ scratch ∈ disk.temporary? worker path, ¬ exposed (.remove scratch)) → after = disk) ∧
      (after = disk ∨ ∃ scratch ∈ disk.temporary? worker path, ∃ location mode bytes,
        exposed (.remove scratch) ∧ disk.locate false scratch = .ok (.vacant location) ∧
          after = disk.put location (.file mode bytes)) := by
  have hrestored := h.restored hclean
  refine ⟨hrestored.eq, ?_⟩
  rcases hrestored with hsame | ⟨scratch, htemporary, hrisk, hsame | hleft⟩
  · exact Or.inl hsame
  · exact Or.inl hsame
  · obtain ⟨location, mode, bytes, hvacant, hput⟩ := hleft
    exact Or.inr ⟨scratch, htemporary, location, mode, bytes, hrisk, hvacant, hput⟩

/-- A disk with a directory, and a link to a file that is no ledger. -/
def brokenDisk : Disk :=
  ⟨[(["d"], .directory Disk.Node.directoryMode),
    (["r"], .file Disk.Node.fileMode "DS\na b c".toUTF8), (["l"], .link "r")], {}⟩

theorem ends_target {target : Path} (hresolve : disk.resolve path = .ok target) :
    (Disk.target path).Ends exposed disk disk (.ok target) := by
  have hends := Script.ends_run exposed (Disk.target path) disk
  rwa [Disk.run_target, hresolve] at hends

theorem ends_replace_cut {target scratch : Path} {bytes : ByteArray} {count : ℕ} {seen : Disk}
    (hexposed : exposed (.write scratch bytes))
    (hresolve : disk.resolve path = .ok target) (hscratch : target.scratch? worker = some scratch)
    (hpart : disk.write scratch (bytes.extract 0 count) = .ok seen) (code : ℕ) (text : String) :
    (Disk.replace worker path bytes).Ends exposed disk ((Disk.discard scratch).run seen).disk
      (.error (.failed .writing scratch (.other code text))) := by
  have hattempt : (Disk.attempt scratch target bytes).Ends exposed disk seen
      (.error (.failed .writing scratch (.other code text))) :=
    Script.ends_request_bind.mpr ⟨_, seen,
      .cut scratch bytes code text seen hexposed ⟨scratch, bytes, count, rfl, hpart⟩,
      Script.ends_pure.mpr ⟨rfl, rfl⟩⟩
  refine Script.ends_bind.mpr ⟨_, disk, ends_target hresolve, ?_⟩
  dsimp only
  rw [hscratch]
  exact Script.ends_bind.mpr ⟨_, seen, hattempt, Script.ends_bind.mpr ⟨_, _,
    Script.ends_run exposed (Disk.discard scratch) seen, Script.ends_pure.mpr ⟨rfl, rfl⟩⟩⟩

/-- A write that is cut off is taken back; a directory is not replaced; a file that is no ledger is
kept. -/
theorem unchanged_of_failure_brokenDisk :
    (∃ seen after, brokenDisk.write ⟨"/r.tmp~7-8"⟩ ("new".toUTF8.extract 0 1) = .ok seen ∧
      (Disk.replace ⟨7, 8⟩ ⟨"l"⟩ "new".toUTF8).Ends Disk.Request.butRemoval brokenDisk after
        (.error (.failed .writing ⟨"/r.tmp~7-8"⟩ (.other 28 "No space left on device"))) ∧
      after = brokenDisk) ∧
    (((save ⟨7, 8⟩ ⟨"d"⟩ ⟨[]⟩).run brokenDisk).value =
        .error (.writing ⟨"d"⟩ (.failed .moving ⟨"/d"⟩ .isDirectory)) ∧
      ((save ⟨7, 8⟩ ⟨"d"⟩ ⟨[]⟩).run brokenDisk).disk = brokenDisk) ∧
    ((update ⟨7, 8⟩ ⟨"l"⟩ ⟨"a", "op", "1", "8"⟩ .nan).run brokenDisk).value =
        .error (.parsing ⟨"l"⟩ (.fieldCount 2 3 "a b c")) ∧
      ((update ⟨7, 8⟩ ⟨"l"⟩ ⟨"a", "op", "1", "8"⟩ .nan).run brokenDisk).disk = brokenDisk := by
  have hlink : brokenDisk.Untouched ⟨7, 8⟩ ⟨"l"⟩ := by decide +kernel
  have hdirectory : brokenDisk.Untouched ⟨7, 8⟩ ⟨"d"⟩ := by decide +kernel
  have hsave : ((save ⟨7, 8⟩ ⟨"d"⟩ ⟨[]⟩).run brokenDisk).value =
      .error (.writing ⟨"d"⟩ (.failed .moving ⟨"/d"⟩ .isDirectory)) := by decide +kernel
  have hupdate : ((update ⟨7, 8⟩ ⟨"l"⟩ ⟨"a", "op", "1", "8"⟩ .nan).run brokenDisk).value =
      .error (.parsing ⟨"l"⟩ (.fieldCount 2 3 "a b c")) := by decide +kernel
  have hresolve : brokenDisk.resolve ⟨"l"⟩ = .ok ⟨"/r"⟩ := by decide +kernel
  have hscratch : (⟨"/r"⟩ : Path).scratch? ⟨7, 8⟩ = some ⟨"/r.tmp~7-8"⟩ := by decide +kernel
  have hpart : brokenDisk.write ⟨"/r.tmp~7-8"⟩ ("new".toUTF8.extract 0 1) =
      .ok (brokenDisk.put ["r.tmp~7-8"] (.file Disk.Node.fileMode "n".toUTF8)) := rfl
  have hrisk : Disk.Request.butRemoval (.write ⟨"/r.tmp~7-8"⟩ "new".toUTF8) := trivial
  have hcut := ends_replace_cut hrisk hresolve hscratch hpart 28 "No space left on device"
  have hkept : ∀ worker path after, brokenDisk.Untouched worker path →
      Fails Disk.Request.butRemoval worker path brokenDisk after → after = brokenDisk :=
    fun _ _ _ hclean h => (unchanged_of_failure hclean h).1 fun _ _ hrisk => hrisk
  refine ⟨⟨_, _, hpart, hcut, hkept _ _ _ hlink (Or.inl ⟨_, _, hcut⟩)⟩, ⟨hsave, ?_⟩, hupdate, ?_⟩
  · have hends := Script.ends_run Disk.Request.butRemoval (save ⟨7, 8⟩ ⟨"d"⟩ ⟨[]⟩) brokenDisk
    exact hkept _ _ _ hdirectory (Or.inr (Or.inl ⟨_, _, hsave ▸ hends⟩))
  · have hends := Script.ends_run Disk.Request.butRemoval
      (update ⟨7, 8⟩ ⟨"l"⟩ ⟨"a", "op", "1", "8"⟩ .nan) brokenDisk
    exact hkept _ _ _ hlink (Or.inr (Or.inr ⟨_, _, _, hupdate ▸ hends⟩))

theorem ends_replace_kept {target scratch : Path} {bytes : ByteArray} {mode : Disk.Mode}
    {written ready : Disk} (hmove : exposed (.rename scratch target))
    (hremove : exposed (.remove scratch)) (hresolve : disk.resolve path = .ok target)
    (hscratch : target.scratch? worker = some scratch)
    (hwrite : disk.write scratch bytes = .ok written) (hmode : written.mode target = .ok mode)
    (hset : written.setMode scratch mode = .ok ready) (code : ℕ) (text : String) :
    (Disk.replace worker path bytes).Ends exposed disk ready
      (.error (.failed .moving target (.other code text))) := by
  have hwritten : (Disk.Request.write scratch bytes).Yields exposed disk (.ok ()) written :=
    Disk.yields_of_perform (by rw [Disk.Request.perform, hwrite]; rfl)
  have hread : (Disk.Request.readMode target).Yields exposed written (.ok mode) written :=
    Disk.yields_of_perform (by rw [Disk.Request.perform, hmode])
  have hready : (Disk.Request.setMode scratch mode).Yields exposed written (.ok ()) ready :=
    Disk.yields_of_perform (by rw [Disk.Request.perform, hset]; rfl)
  have hkept : (Disk.Request.rename scratch target).Yields exposed ready
      (.error (.other code text)) ready := .refused _ code text _ hmove rfl
  have hleft : (Disk.Request.remove scratch).Yields exposed ready
      (.error (.other code text)) ready := .refused _ code text _ hremove rfl
  have hattempt : (Disk.attempt scratch target bytes).Ends exposed disk ready
      (.error (.failed .moving target (.other code text))) :=
    Script.ends_request_bind.mpr ⟨_, _, hwritten, Script.ends_request_bind.mpr ⟨_, _, hread,
      Script.ends_request_bind.mpr ⟨_, _, hready, Script.ends_request_bind.mpr ⟨_, _, hkept,
        Script.ends_pure.mpr ⟨rfl, rfl⟩⟩⟩⟩⟩
  have hdiscard : (Disk.discard scratch).Ends exposed ready ready () :=
    Script.ends_request_bind.mpr ⟨_, _, hleft,
      Script.ends_request_bind.mpr ⟨_, _, .performed _, Script.ends_done.mpr ⟨rfl, rfl⟩⟩⟩
  refine Script.ends_bind.mpr ⟨_, disk, ends_target hresolve, ?_⟩
  dsimp only
  rw [hscratch]
  exact Script.ends_bind.mpr ⟨_, _, hattempt, Script.ends_bind.mpr ⟨_, _, hdiscard,
    Script.ends_pure.mpr ⟨rfl, rfl⟩⟩⟩

/-- A file whose replacement meets a fault at the last step, and another one when the temporary file
is to be removed: this file is left. -/
theorem ends_replace_leftover :
    brokenDisk.Untouched ⟨7, 8⟩ ⟨"l"⟩ ∧
      ∃ after, (Disk.replace ⟨7, 8⟩ ⟨"l"⟩ "new".toUTF8).Ends (fun _ => True) brokenDisk after
          (.error (.failed .moving ⟨"/r"⟩ (.other 30 "Read-only file system"))) ∧
        after.read ⟨"r.tmp~7-8"⟩ = .ok "new".toUTF8 ∧ after ≠ brokenDisk := by
  have hresolve : brokenDisk.resolve ⟨"l"⟩ = .ok ⟨"/r"⟩ := by decide +kernel
  have hscratch : (⟨"/r"⟩ : Path).scratch? ⟨7, 8⟩ = some ⟨"/r.tmp~7-8"⟩ := by decide +kernel
  refine ⟨by decide +kernel, _, ends_replace_kept trivial trivial hresolve hscratch rfl rfl rfl 30
    "Read-only file system", rfl, fun hsame => ?_⟩
  have hlength := congrArg (fun disk : Disk => disk.entries.length) hsame
  revert hlength
  decide +kernel

end BenchLedger.Ledger
