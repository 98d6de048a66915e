import BenchLedger.Proofs.Disk.Vacant
import BenchLedger.Proofs.Disk.Watched

/-! # Replacements that fail

The file that is replaced is not touched before the last step, and what was written until then is at
a place where there was nothing (`keeps_attempt`, `keeps_replace`). The temporary file that is
removed is the one that was written. So if a replacement fails, at whatever step and for whatever
reason, the disk is as before, unless a fault keeps that file from being removed (`Restored`). -/

namespace BenchLedger.Disk

variable {exposed : Request → Prop} {disk after : Disk} {worker : Worker}
  {path scratch target : Path} {bytes : ByteArray} {location : Location} {mode : Mode}

/-! ### Attempts -/

/-- The permission bits that a new file gets: those of the target if there are any. -/
def Copies (disk : Disk) (target : Path) (mode : Mode) : Prop :=
  disk.mode target = .ok mode ∨ disk.mode target = .error .notFound ∧ mode = Node.fileMode

/-- The temporary file was moved to the target, from where the temporary path led. -/
def Placed (disk : Disk) (scratch target : Path) (bytes : ByteArray) (after : Disk) : Prop :=
  ∃ location mode, disk.locate false scratch = .ok (.vacant location) ∧
    (disk.put location (.file Node.fileMode bytes)).Copies target mode ∧
    (disk.put location (.file mode bytes)).rename scratch target = .ok after

/-- What an attempt leaves: the new file, or at most the temporary one. -/
def Attempted (disk : Disk) (scratch target : Path) (bytes : ByteArray) (after : Disk) :
    Except ReplaceFault Unit → Prop
  | .ok _ => Placed disk scratch target bytes after
  | .error _ => Scribbled disk scratch after

theorem keeps_takePlace (hvacant : disk.locate false scratch = .ok (.vacant location))
    (hcopies : (disk.put location (.file Node.fileMode bytes)).Copies target mode) :
    (takePlace scratch target).Keeps exposed (disk.put location (.file mode bytes))
      (Scribbled disk scratch) (Attempted disk scratch target bytes) := by
  have hscribbled : Scribbled disk scratch (disk.put location (.file mode bytes)) :=
    Or.inr ⟨location, mode, bytes, hvacant, rfl⟩
  refine Script.keeps_quiet_bind hscribbled (fun _ _ => nofun) fun reply middle step => ?_
  rcases yields_rename step with ⟨rfl, hmove⟩ | ⟨⟨fault, rfl⟩, rfl⟩
  · exact Script.keeps_pure ⟨location, mode, hvacant, hcopies, hmove⟩
  · exact Script.keeps_pure hscribbled

/-- **An attempt touches nothing but its temporary file** until that takes the place of the
target. -/
theorem keeps_attempt (hclean : disk.NoEntry scratch) (target : Path) (bytes : ByteArray) :
    (attempt scratch target bytes).Keeps exposed disk (Scribbled disk scratch)
      (Attempted disk scratch target bytes) := by
  have hwritten : ∀ part written, disk.write scratch part = .ok written →
      Scribbled disk scratch written := by
    intro part written hwrite
    obtain ⟨location, hvacant, hput⟩ := hclean.write hwrite
    exact Or.inr ⟨location, Node.fileMode, part, hvacant, hput⟩
  refine Script.keeps_request_bind (Or.inl rfl) ?_ fun reply written step => ?_
  · rintro half ⟨_, _, _, heq, hwrite⟩
    cases heq
    exact hwritten _ _ hwrite
  rcases yields_write step with ⟨rfl, hwrite⟩ | ⟨⟨fault, rfl⟩, hpart⟩
  · obtain ⟨location, hvacant, rfl⟩ := hclean.write hwrite
    -- nothing but the rename changes the disk from here on, other than the mode of that file
    have hscribbled := hwritten bytes _ hwrite
    refine Script.keeps_quiet_bind hscribbled (fun _ _ => nofun) fun reply middle step => ?_
    obtain ⟨rfl, hreply⟩ := yields_readMode step
    split
    · refine keeps_takePlace hvacant (Or.inr ⟨?_, rfl⟩)
      rcases hreply with hreply | ⟨code, text, hreply⟩
      · exact hreply.symm
      · cases hreply
    · exact Script.keeps_pure hscribbled
    · next mode =>
      have hcopies : (disk.put location (.file Node.fileMode bytes)).Copies target mode := by
        rcases hreply with hreply | ⟨code, text, hreply⟩
        · exact Or.inl hreply.symm
        · cases hreply
      refine Script.keeps_quiet_bind hscribbled (fun _ _ => nofun) fun reply ready step => ?_
      rcases yields_setMode step with ⟨rfl, hset⟩ | ⟨⟨fault, rfl⟩, rfl⟩
      · rw [hclean.setMode hvacant hset]
        exact keeps_takePlace hvacant hcopies
      · exact Script.keeps_pure hscribbled
  · refine Script.keeps_pure ?_
    rcases hpart with rfl | ⟨part, hwrite⟩
    · exact Or.inl rfl
    · exact hwritten part written hwrite

/-! ### Taking it back -/

theorem Scribbled.remove {middle : Disk} (h : Scribbled disk scratch middle)
    (hclean : disk.NoEntry scratch) : middle.remove scratch = .ok disk ∨
      middle = disk ∧ ∃ fault, middle.remove scratch = .error fault := by
  rcases h with rfl | ⟨location, mode, bytes, hvacant, rfl⟩
  · refine Or.inr ⟨rfl, ?_⟩
    unfold Disk.remove
    split
    · exact ⟨_, rfl⟩
    · exact ⟨_, rfl⟩
    · exact ⟨_, rfl⟩
    · next location node _ hfound => exact absurd hfound (hclean location node)
  · left
    unfold Disk.remove
    rw [locate_put_vacant hvacant]
    exact congrArg Except.ok (erase_put (node?_of_locate_vacant hvacant) _)

/-- **What was written is taken back**, unless a fault keeps it from being removed. -/
theorem keeps_discard {middle : Disk} (hclean : disk.NoEntry scratch)
    (hscribbled : Scribbled disk scratch middle) :
    (discard scratch).Keeps exposed middle (Scribbled disk scratch)
      fun after _ => after = disk ∨ exposed (.remove scratch) ∧ Scribbled disk scratch after := by
  refine Script.keeps_quiet_bind hscribbled (fun _ _ => nofun) fun reply removed step => ?_
  have hremoved : removed = disk ∨ exposed (.remove scratch) ∧ Scribbled disk scratch removed := by
    rcases hscribbled.remove hclean, yields_remove step with
      ⟨hdisk | ⟨rfl, fault, hfail⟩, hgone | ⟨hkept, rfl⟩⟩
    · exact Or.inl (Except.ok.inj (hgone.symm.trans hdisk))
    · rcases hkept with hrisk | ⟨fault, hfail⟩
      · exact Or.inr ⟨hrisk, hscribbled⟩
      · cases hdisk.symm.trans hfail
    · cases hfail.symm.trans hgone
    · exact Or.inl rfl
  have hlitter : Scribbled disk scratch removed := hremoved.elim Or.inl And.right
  split
  · exact Script.keeps_pure hremoved
  · exact Script.keeps_pure hremoved
  · refine Script.keeps_quiet_bind hlitter (fun _ _ => nofun) fun reply told step => ?_
    rw [yields_tell step]
    exact Script.keeps_done hremoved

/-! ### The whole replacement -/

/-- The temporary path of a worker for the file that a path leads to, or for the path itself if it
leads nowhere. -/
def temporary? (disk : Disk) (worker : Worker) (path : Path) : Option Path :=
  match disk.resolve path with
  | .ok target => target.scratch? worker
  | .error .notFound => path.scratch? worker
  | .error _ => none

/-- No entry stands under the temporary name of a worker for a path. -/
def Untouched (disk : Disk) (worker : Worker) (path : Path) : Prop :=
  ∀ scratch ∈ disk.temporary? worker path, disk.NoEntry scratch

instance (disk : Disk) (worker : Worker) (path : Path) :
    Decidable (disk.Untouched worker path) := by
  unfold Untouched; infer_instance

/-- The path of the file to be replaced: what a path leads to, or the path itself if it leads
nowhere. -/
def Targets (disk : Disk) (path target : Path) : Prop :=
  disk.resolve path = .ok target ∨ disk.resolve path = .error .notFound ∧ target = path

theorem Targets.temporary? (h : disk.Targets path target) (worker : Worker) :
    disk.temporary? worker path = target.scratch? worker := by
  rcases h with h | ⟨h, rfl⟩ <;> simp [Disk.temporary?, h]

theorem keeps_target (exposed : Request → Prop) (disk : Disk) (path : Path) :
    (Disk.target path).Keeps exposed disk (· = disk)
      fun after found => after = disk ∧ ∀ target,
      found = .ok target → disk.Targets path target := by
  refine Script.keeps_quiet_bind rfl (fun _ _ => nofun) fun reply middle step => ?_
  obtain ⟨rfl, hreply⟩ := yields_resolve step
  have hresolve : ∀ result, (∀ code text, result ≠ .error (.other code text)) → reply = result →
      middle.resolve path = result := by
    rintro result hother rfl
    rcases hreply with hreply | ⟨code, text, hreply⟩
    · exact hreply.symm
    · exact absurd hreply (hother code text)
  split
  · next resolved =>
    refine Script.keeps_pure ⟨rfl, fun target heq => Or.inl ?_⟩
    rw [hresolve (.ok resolved) nofun rfl, Except.ok.inj heq]
  · refine Script.keeps_pure ⟨rfl, fun target heq => Or.inr ?_⟩
    exact ⟨hresolve (.error .notFound) nofun rfl, (Except.ok.inj heq).symm⟩
  · exact Script.keeps_pure ⟨rfl, nofun⟩

/-- The disk is as before, but for a temporary file of a worker where nothing was. -/
def Littered (disk : Disk) (worker : Worker) (path : Path) (after : Disk) : Prop :=
  after = disk ∨ ∃ scratch ∈ disk.temporary? worker path, Scribbled disk scratch after

/-- The disk is as before, but for a temporary file that a fault kept from being removed. -/
def Restored (exposed : Request → Prop) (disk : Disk) (worker : Worker) (path : Path)
    (after : Disk) : Prop :=
  after = disk ∨ ∃ scratch ∈ disk.temporary? worker path,
    exposed (.remove scratch) ∧ Scribbled disk scratch after

theorem Restored.eq (h : disk.Restored exposed worker path after)
    (hremove : ∀ scratch ∈ disk.temporary? worker path, ¬ exposed (.remove scratch)) :
    after = disk := by
  rcases h with hsame | ⟨scratch, htemporary, hrisk, -⟩
  · exact hsame
  · exact absurd hrisk (hremove scratch htemporary)

/-- What a replacement leaves: the new file, or the disk as it was. -/
def Effected (exposed : Request → Prop) (disk : Disk) (worker : Worker) (path : Path)
    (bytes : ByteArray) (after : Disk) : Except ReplaceFault Unit → Prop
  | .ok _ => ∃ target scratch, disk.Targets path target ∧ target.scratch? worker = some scratch ∧
      Placed disk scratch target bytes after
  | .error _ => disk.Restored exposed worker path after

/-- **A replacement touches nothing but its temporary file** until that takes the place of the file,
in the last step. If it fails, it takes that file back. -/
theorem keeps_replace (hclean : disk.Untouched worker path) (bytes : ByteArray) :
    (replace worker path bytes).Keeps exposed disk (disk.Littered worker path)
      (disk.Effected exposed worker path bytes) := by
  have htarget := (keeps_target exposed disk path).mono
    (fun d hd => Or.inl hd : ∀ d, d = disk → disk.Littered worker path d) fun _ _ h => h
  refine Script.keeps_bind htarget ?_
  rintro _ found ⟨rfl, hfound⟩
  cases found with
  | error fault => exact Script.keeps_pure (Or.inl rfl)
  | ok target =>
    have htargets := hfound target rfl
    dsimp only
    cases hscratch : target.scratch? worker with
    | none => exact Script.keeps_pure (Or.inl rfl)
    | some scratch =>
      have htemporary : scratch ∈ Disk.temporary? _ worker path :=
        (htargets.temporary? worker).trans hscratch
      have hnone := hclean scratch htemporary
      have hlitter : ∀ d, Scribbled _ scratch d → Disk.Littered _ worker path d :=
        fun d hd => Or.inr ⟨scratch, htemporary, hd⟩
      refine Script.keeps_bind ((keeps_attempt hnone target bytes).mono hlitter fun _ _ h => h) ?_
      intro middle outcome hattempted
      cases outcome with
      | ok _ => exact Script.keeps_pure ⟨target, scratch, htargets, hscratch, hattempted⟩
      | error fault =>
        refine Script.keeps_bind ((keeps_discard hnone hattempted).mono hlitter fun _ _ h => h) ?_
        intro after _ hafter
        exact Script.keeps_pure (hafter.imp_right fun h => ⟨scratch, htemporary, h⟩)

end BenchLedger.Disk
