import BenchLedger.Disk.Replace
import BenchLedger.Proofs.Disk.Walk

/-! # What a replacement leaves

The new contents are written under the temporary name and moved over the file. If all steps succeed,
the file is there with the new contents, or a symbolic link that stood under the temporary name is.

* `replace_ok`: the steps of a replacement that succeeded.
* `Replaced`: the two ways in which it leaves the disk.
* `replaced_of_attempt`: there are no others. -/

namespace BenchLedger.Disk

variable {disk : Disk} {worker : Worker} {path scratch target : Path} {bytes : ByteArray}

/-! ### The steps of a replacement -/

theorem takePlace_ok (h : ((takePlace scratch target).run disk).value = .ok ()) :
    disk.rename scratch target = .ok ((takePlace scratch target).run disk).disk := by
  unfold takePlace at h ⊢
  rw [Script.run_request_bind] at h ⊢
  simp only [Request.perform] at h ⊢
  cases hrename : disk.rename scratch target with
  | error fault => rw [hrename] at h; cases h
  | ok moved => rfl

theorem attempt_ok (h : ((attempt scratch target bytes).run disk).value = .ok ()) :
    ∃ written ready, disk.write scratch bytes = .ok written ∧
      (written.mode target = .error .notFound ∧ ready = written ∨
        ∃ mode, written.mode target = .ok mode ∧ written.setMode scratch mode = .ok ready) ∧
      ready.rename scratch target = .ok ((attempt scratch target bytes).run disk).disk := by
  unfold attempt at h ⊢
  rw [Script.run_request_bind] at h ⊢
  simp only [Request.perform] at h ⊢
  cases hwrite : disk.write scratch bytes with
  | error fault => rw [hwrite] at h; cases h
  | ok written =>
    rw [hwrite] at h
    simp only [Request.settle] at h ⊢
    rw [Script.run_request_bind] at h ⊢
    simp only [Request.perform] at h ⊢
    refine ⟨written, ?_⟩
    cases hmode : written.mode target with
    | error fault =>
      rw [hmode] at h
      cases fault with
      | notFound =>
        exact ⟨written, rfl, Or.inl ⟨rfl, rfl⟩, takePlace_ok h⟩
      | _ => cases h
    | ok mode =>
      rw [hmode] at h
      dsimp only at h ⊢
      rw [Script.run_request_bind] at h ⊢
      simp only [Request.perform] at h ⊢
      cases hready : written.setMode scratch mode with
      | error fault => rw [hready] at h; cases h
      | ok ready =>
        rw [hready] at h
        exact ⟨ready, trivial, Or.inr ⟨mode, rfl, hready⟩, takePlace_ok h⟩

theorem run_target (disk : Disk) (path : Path) :
    (Disk.target path).run disk = ⟨match disk.resolve path with
      | .ok resolved => .ok resolved
      | .error .notFound => .ok path
      | .error fault => .error (.failed .resolving path fault), disk, []⟩ := by
  unfold Disk.target
  rw [Script.run_request_bind]
  simp only [Request.perform]
  cases disk.resolve path with
  | ok resolved => rfl
  | error fault => cases fault <;> rfl

/-- A replacement is an attempt at the file that the path leads to, or at the path if it leads
nowhere. -/
theorem replace_ok (h : ((replace worker path bytes).run disk).value = .ok ()) :
    ∃ target scratch, (disk.resolve path = .ok target ∨
        disk.resolve path = .error .notFound ∧ target = path) ∧
      target.scratch? worker = some scratch ∧
      ((attempt scratch target bytes).run disk).value = .ok () ∧
      ((replace worker path bytes).run disk).disk =
        ((attempt scratch target bytes).run disk).disk := by
  have htarget := congrArg Script.Outcome.value (run_target disk path)
  have hdisk := congrArg Script.Outcome.disk (run_target disk path)
  dsimp only at htarget hdisk
  unfold replace at h ⊢
  rw [Script.run_bind] at h ⊢
  dsimp only at h ⊢
  rw [hdisk] at h ⊢
  cases hvalue : ((Disk.target path).run disk).value with
  | error fault => rw [hvalue] at h; cases h
  | ok target =>
    rw [hvalue] at h htarget
    dsimp only at h ⊢
    cases hscratch : target.scratch? worker with
    | none => rw [hscratch] at h; cases h
    | some scratch =>
      rw [hscratch] at h
      dsimp only at h ⊢
      rw [Script.run_bind] at h ⊢
      dsimp only at h ⊢
      cases hattempt : ((attempt scratch target bytes).run disk).value with
      | error fault => rw [hattempt, Script.run_bind] at h; cases h
      | ok _ =>
        refine ⟨target, scratch, ?_, hscratch, hattempt, rfl⟩
        cases hresolve : disk.resolve path with
        | ok resolved =>
          rw [hresolve] at htarget
          exact Or.inl (congrArg Except.ok (Except.ok.inj htarget).symm)
        | error fault =>
          rw [hresolve] at htarget
          cases fault with
          | notFound => exact Or.inr ⟨rfl, Except.ok.inj htarget⟩
          | _ => cases htarget

/-! ### What the steps do -/

theorem node?_put_eq {location : Location} (h : location ≠ []) (node : Node) (x : Location) :
    (disk.put location node).node? x = if x = location then some node else disk.node? x := by
  split_ifs with hx
  · rw [hx, node?_put disk h]
  · exact node?_put_of_ne disk (Ne.symm hx) node

theorem node?_erase_eq {location : Location} (h : location ≠ []) (x : Location) :
    (disk.erase location).node? x = if x = location then none else disk.node? x := by
  split_ifs with hx
  · rw [hx, node?_erase disk h]
  · exact node?_erase_of_ne disk (Ne.symm hx)

/-- There is a file, or nothing. -/
def HasRoom (disk : Disk) (location : Location) : Prop :=
  disk.node? location = none ∨ ∃ mode bytes, disk.node? location = some (.file mode bytes)

theorem HasRoom.ne_nil {location : Location} (h : disk.HasRoom location) : location ≠ [] := by
  rintro rfl
  rcases h with h | ⟨mode, bytes, h⟩ <;> simp [Disk.node?] at h

theorem HasRoom.ne_directory {location : Location} (h : disk.HasRoom location) (mode : Mode) :
    disk.node? location ≠ some (.directory mode) := by
  rcases h with h | ⟨mode', bytes, h⟩ <;> simp [h]

theorem HasRoom.ne_link {location : Location} (h : disk.HasRoom location) (target : String) :
    disk.node? location ≠ some (.link target) := by
  rcases h with h | ⟨mode, bytes, h⟩ <;> simp [h]

theorem write_ok {after : Disk} (h : disk.write path bytes = .ok after) :
    ∃ place mode, disk.locate true path = .ok place ∧
      (place.node? = none ∧ mode = Node.fileMode ∨ ∃ old, place.node? = some (.file mode old)) ∧
      after = disk.put place.location (.file mode bytes) := by
  unfold write at h
  split at h
  · cases h
  · next location hplace =>
    exact ⟨_, _, hplace, Or.inl ⟨rfl, rfl⟩, (Except.ok.inj h).symm⟩
  · next location mode old hplace =>
    split_ifs at h
    exact ⟨_, _, hplace, Or.inr ⟨old, rfl⟩, (Except.ok.inj h).symm⟩
  · cases h

theorem hasRoom_of_place {place : Place} {mode : Mode}
    (hnode : disk.node? place.location = place.node?)
    (h : place.node? = none ∧ mode = Node.fileMode ∨ ∃ old, place.node? = some (.file mode old)) :
    disk.HasRoom place.location := by
  rcases h with ⟨hnone, -⟩ | ⟨old, hfile⟩
  · exact Or.inl (hnode.trans hnone)
  · exact Or.inr ⟨mode, old, hnode.trans hfile⟩

theorem rename_ok {after : Disk} (h : disk.rename scratch target = .ok after) :
    ∃ old node place, disk.locate false scratch = .ok (.found old node) ∧
      disk.locate false target.bare = .ok place ∧
      after = (disk.erase old).put place.location node := by
  unfold rename at h
  split at h
  · cases h
  · cases h
  · cases h
  · next old node hnode hold =>
    split at h
    · cases h
    · next place hplace =>
      split_ifs at h
      split at h
      · exact ⟨old, node, _, hold, hplace, (Except.ok.inj h).symm⟩
      · cases h
      · exact ⟨old, node, _, hold, hplace, (Except.ok.inj h).symm⟩

theorem walk_put_agree {links : ℕ} {directory location : Location} {names : List String}
    {place : Place} (hdirectory : disk.HasDirectory directory) (hnames : ∀ x ∈ names, IsPiece x)
    (h : disk.walk true links directory names = .ok place) (hroom : disk.HasRoom location)
    (mode : Mode) (bytes : ByteArray) :
    ∃ k, (disk.put location (.file mode bytes)).walk true links directory names =
      (disk.put location (.file mode bytes)).arrive true k place.location [] := by
  have hsame : ∀ x, x ∉ [location] →
      (disk.put location (.file mode bytes)).node? x = disk.node? x := by
    intro x hx
    rw [node?_put_eq hroom.ne_nil, if_neg (by simpa using hx)]
  have hkept : ∀ x ∈ [location], ∀ mode, disk.node? x ≠ some (.directory mode) :=
    List.forall_mem_singleton.mpr hroom.ne_directory
  rcases walk_agree hsame hkept hdirectory hnames h links with
    ⟨k, -, hwalk⟩ | ⟨hlt, -⟩ | ⟨x, hx, ⟨target, htarget⟩, -⟩
  · exact ⟨k, hwalk⟩
  · exact absurd hlt (Nat.lt_irrefl _)
  · rw [List.mem_singleton.mp hx] at htarget
    exact absurd htarget (hroom.ne_link target)

/-- **What was written is found where it was written.** -/
theorem walk_put {links : ℕ} {directory : Location} {names : List String} {place : Place}
    (hdirectory : disk.HasDirectory directory) (hnames : ∀ x ∈ names, IsPiece x)
    (h : disk.walk true links directory names = .ok place) (hroom : disk.HasRoom place.location)
    (mode : Mode) (bytes : ByteArray) :
    (disk.put place.location (.file mode bytes)).walk true links directory names =
      .ok (.found place.location (.file mode bytes)) := by
  obtain ⟨k, hwalk⟩ := walk_put_agree hdirectory hnames h hroom mode bytes
  rw [hwalk, arrive, node?_put_eq hroom.ne_nil, if_pos rfl]
  dsimp only
  rw [if_pos rfl]

theorem setMode_ok {after : Disk} {mode old : Mode} {location : Location}
    (hlocate : disk.locate true path = .ok (.found location (.file old bytes)))
    (h : disk.setMode path mode = .ok after) : after = disk.put location (.file mode bytes) := by
  unfold setMode at h
  rw [hlocate] at h
  exact (Except.ok.inj h).symm

theorem HasDirectory.of_room {after : Disk} {directory location : Location}
    (h : disk.HasDirectory directory) (hroom : disk.HasRoom location) {mode : Mode}
    (hnode : ∀ x, after.node? x =
      if x = location then some (.file mode bytes) else disk.node? x) :
    after.HasDirectory directory :=
  h.mono fun x mode' hx => by
    rw [hnode, if_neg]
    rintro rfl
    exact hroom.ne_directory mode' hx

theorem isFile_of_write {place : Place} {x : Location} {mode mode' : Mode} {old : ByteArray}
    (h : disk.node? x = some (.file mode old)) (hnode : disk.node? place.location = place.node?)
    (hplace : place.node? = none ∧ mode' = Node.fileMode ∨
      ∃ old, place.node? = some (.file mode' old)) :
    ∃ old, (disk.put place.location (.file mode' bytes)).node? x = some (.file mode old) := by
  rw [node?_put_eq (hasRoom_of_place hnode hplace).ne_nil]
  split_ifs with hx
  · subst hx
    rcases hplace with ⟨hnone, -⟩ | ⟨old', hfile⟩
    · cases (hnode.trans hnone).symm.trans h
    · cases (hnode.trans hfile).symm.trans h
      exact ⟨bytes, rfl⟩
  · exact ⟨old, h⟩

section Attempt

variable {name : String} {directory : Location} {follow : Bool} {place : Place} {mode : Mode}

theorem mode_path {old : ByteArray} (hdirectory : disk.HasDirectory directory) (hname : IsName name)
    (hfile : disk.node? (name :: directory) = some (.file mode old)) :
    disk.mode (Location.path (name :: directory)) ≠ .error .notFound ∧
      ∀ mode', disk.mode (Location.path (name :: directory)) = .ok mode' → mode' = mode := by
  unfold Disk.mode
  rw [locate_path hdirectory hname.piece rfl]
  split_ifs
  · simp
  · simp
  · rw [walk_name hname, arrive, hfile]
    simp [eq_comm]

/-- The path of the temporary file beside an entry can be looked up, wherever its directory is. -/
def Worker.Fits (worker : Worker) (name : String) (directory : Location) : Prop :=
  ∀ disk : Disk, disk.HasDirectory directory → ∀ follow,
    disk.locate follow (Location.path (worker.scratch name :: directory)) =
      disk.arrive follow maxLinks (worker.scratch name :: directory) []

theorem locate_scratch (hdirectory : disk.HasDirectory directory) (hname : IsName name)
    (h : disk.locate follow (Location.path (worker.scratch name :: directory)) = .ok place) :
    IsName (worker.scratch name) ∧ worker.Fits name directory := by
  have hpiece := worker.isPiece_scratch hname.piece
  obtain ⟨hpoint, hpoints⟩ := worker.scratch_ne_points name
  rw [locate_path hdirectory hpiece rfl] at h
  split_ifs at h with hnul hlong
  have hscratch : IsName (worker.scratch name) := by
    refine ⟨hpiece, hpoint, hpoints, ?_⟩
    by_contra hlong
    rw [walk_cons, if_neg hpoint, if_neg hpoints, if_pos (Nat.lt_of_not_le hlong)] at h
    cases h
  refine ⟨hscratch, fun disk' hdirectory' follow' => ?_⟩
  rw [locate_path hdirectory' hpiece rfl, if_neg hnul, if_neg hlong, walk_name hscratch]

theorem ready_of_attempt (hdirectory : disk.HasDirectory directory) (hname : IsName name)
    {old : ByteArray} (hfile : disk.node? (name :: directory) = some (.file mode old))
    {written ready : Disk}
    (hwrite : disk.write (Location.path (worker.scratch name :: directory)) bytes = .ok written)
    (hready : written.mode (Location.path (name :: directory)) = .error .notFound ∧
        ready = written ∨
      ∃ mode, written.mode (Location.path (name :: directory)) = .ok mode ∧
        written.setMode (Location.path (worker.scratch name :: directory)) mode = .ok ready) :
    ∃ place, disk.locate true (Location.path (worker.scratch name :: directory)) = .ok place ∧
      disk.HasRoom place.location ∧ ∀ x, ready.node? x =
        if x = place.location then some (.file mode bytes) else disk.node? x := by
  obtain ⟨place, first, hlocate, hplace, rfl⟩ := write_ok hwrite
  obtain ⟨hscratch, hagain⟩ := locate_scratch hdirectory hname hlocate
  have hpieces : ∀ x ∈ [worker.scratch name], IsPiece x :=
    List.forall_mem_singleton.mpr hscratch.piece
  have hwalk : disk.walk true maxLinks directory [worker.scratch name] = .ok place := by
    rw [walk_name hscratch, ← hagain disk hdirectory, hlocate]
  have hnode := (walk_place hdirectory hpieces hwalk).1
  have hroom := hasRoom_of_place hnode hplace
  have hput : ∀ x, (disk.put place.location (.file first bytes)).node? x =
      if x = place.location then some (.file first bytes) else disk.node? x :=
    node?_put_eq hroom.ne_nil _
  have hkept : (disk.put place.location (.file first bytes)).HasDirectory directory :=
    hdirectory.of_room hroom hput
  obtain ⟨old', hfile'⟩ := isFile_of_write hfile hnode hplace
  obtain ⟨hthere, hmode⟩ := mode_path hkept hname hfile'
  rcases hready with ⟨hgone, -⟩ | ⟨mode', hmode', hready⟩
  · exact absurd hgone hthere
  · obtain rfl := hmode mode' hmode'
    have hfound : (disk.put place.location (.file first bytes)).locate true
        (Location.path (worker.scratch name :: directory)) =
          .ok (.found place.location (.file first bytes)) := by
      rw [hagain _ hkept, ← walk_name hscratch, walk_put hdirectory hpieces hwalk hroom]
    refine ⟨place, hlocate, hroom, fun x => ?_⟩
    rw [setMode_ok hfound hready, node?_put_eq hroom.ne_nil, hput]
    split_ifs <;> rfl

theorem moved_of_rename (hdirectory : disk.HasDirectory directory) (hname : IsName name)
    {after : Disk}
    (h : disk.rename (Location.path (worker.scratch name :: directory))
      (Location.path (name :: directory)) = .ok after) :
    ∃ node, disk.node? (worker.scratch name :: directory) = some node ∧ ∀ x, after.node? x =
      if x = name :: directory then some node
      else if x = worker.scratch name :: directory then none else disk.node? x := by
  obtain ⟨old, node, new, hold, hnew, rfl⟩ := rename_ok h
  rw [(locate_scratch hdirectory hname hold).2 disk hdirectory, arrive_false] at hold
  have hmoved : old = worker.scratch name :: directory ∧
      disk.node? (worker.scratch name :: directory) = some node := by
    cases hs : disk.node? (worker.scratch name :: directory) with
    | none => rw [hs] at hold; cases hold
    | some node' =>
      rw [hs] at hold
      cases hold
      exact ⟨rfl, rfl⟩
  obtain ⟨rfl, hmoved⟩ := hmoved
  have hnew : new.location = name :: directory := by
    rw [Location.bare_path hname.piece, locate_path hdirectory hname.piece rfl] at hnew
    split_ifs at hnew
    rw [walk_name hname, arrive_false] at hnew
    obtain rfl := Except.ok.inj hnew
    cases disk.node? (name :: directory) <;> rfl
  refine ⟨node, hmoved, fun x => ?_⟩
  rw [hnew, node?_put_eq (List.cons_ne_nil _ _), node?_erase_eq (List.cons_ne_nil _ _)]

end Attempt

/-- **What is on the disk after the file at a location was replaced**, with a temporary file at
another. -/
inductive Replaced (disk after : Disk) (location scratch : Location) (mode : Mode)
    (bytes : ByteArray) : Prop where
  /-- The new file is there, the temporary file is gone, and all else is as before. -/
  | plain (room : disk.HasRoom scratch)
    (node? : ∀ x, after.node? x =
      if x = location then some (.file mode bytes) else if x = scratch then none
      else disk.node? x)
  /-- There was a link under the temporary name. The file that it leads to was written, and the link
  itself moved. -/
  | through (link : String) (place : Place)
    (scratch_node : disk.node? scratch = some (.link link))
    (walk : disk.arrive true maxLinks scratch [] = .ok place) (room : disk.HasRoom place.location)
    (node? : ∀ x, after.node? x =
      if x = location then some (.link link) else if x = scratch then none
      else if x = place.location then some (.file mode bytes) else disk.node? x)

/-- **An attempt that succeeds replaces a file**, which keeps its permission bits. -/
theorem replaced_of_attempt {name : String} {directory : Location} {mode : Mode} {old : ByteArray}
    (hdirectory : disk.HasDirectory directory) (hname : IsName name)
    (hfile : disk.node? (name :: directory) = some (.file mode old))
    (h : ((attempt (Location.path (worker.scratch name :: directory))
      (Location.path (name :: directory)) bytes).run disk).value = .ok ()) :
    worker.Fits name directory ∧
    Replaced disk ((attempt (Location.path (worker.scratch name :: directory))
      (Location.path (name :: directory)) bytes).run disk).disk (name :: directory)
      (worker.scratch name :: directory) mode bytes := by
  obtain ⟨written, ready, hwrite, hready, hrename⟩ := attempt_ok h
  obtain ⟨place, hlocate, hroom, hnode⟩ :=
    ready_of_attempt hdirectory hname hfile hwrite hready
  obtain ⟨-, hagain⟩ := locate_scratch hdirectory hname hlocate
  obtain ⟨node, hmoved, hafter⟩ :=
    moved_of_rename (hdirectory.of_room hroom hnode) hname hrename
  refine ⟨hagain, ?_⟩
  rw [hagain disk hdirectory] at hlocate
  by_cases hs : worker.scratch name :: directory = place.location
  · rw [hnode, if_pos hs] at hmoved
    obtain rfl := Option.some.inj hmoved
    refine .plain (hs ▸ hroom) fun x => ?_
    rw [hafter, hnode, ← hs]
    split_ifs <;> rfl
  · rw [hnode, if_neg hs] at hmoved
    have hlink : ∃ link, node = .link link := by
      rw [arrive, hmoved] at hlocate
      rcases node with ⟨mode, bytes⟩ | ⟨mode⟩ | ⟨link⟩
      · exact absurd (congrArg Place.location (Except.ok.inj hlocate)) hs
      · exact absurd (congrArg Place.location (Except.ok.inj hlocate)) hs
      · exact ⟨link, rfl⟩
    obtain ⟨link, rfl⟩ := hlink
    refine .through link place hmoved hlocate hroom fun x => ?_
    rw [hafter, hnode]

end BenchLedger.Disk
