import BenchLedger.Proofs.Disk.Reach
import BenchLedger.Proofs.Disk.ReadBack
import BenchLedger.Proofs.Disk.Rollback

/-! # Where a new file comes to stand

The last step of a replacement moves the temporary file to the target. The temporary file has
another name than the target, so it stands on no way to it (`Placed.lands`): all that the
replacement does is put a file where the path of the target leads on the disk before.

If the path of the replacement leads to a file, the target is that file. Otherwise the target is the
path itself, and its last name is free or a link that leads nowhere. In both cases the path then
leads to the new file (`renewed_of_effected`). -/

namespace BenchLedger.Disk

variable {exposed : Request → Prop} {disk after : Disk} {worker : Worker}
  {path scratch target : Path} {bytes : ByteArray} {location : Location} {place : Place}
  {mode : Mode} {follow : Bool}

/-! ### Looking up -/

theorem seek_of_locate {result : Except Fault Place} (h : disk.locate follow path = result)
    (hresult : result ≠ .error .nameTooLong) : disk.seek follow path = result := by
  unfold locate at h
  split_ifs at h
  · exact absurd h.symm hresult
  · exact h

theorem locate_of_seek (h : disk.seek follow path = .ok place) : disk.locate follow path =
    if maxPath ≤ path.text.utf8ByteSize then .error .nameTooLong else .ok place := by
  have hnul : '\x00' ∉ path.text.toList := by
    intro hnul
    rw [seek, if_pos hnul] at h
    cases h
  unfold locate
  split_ifs with hlong hlong' hlong'
  · rfl
  · exact absurd hlong.2 hlong'
  · exact absurd ⟨hnul, hlong'⟩ hlong
  · exact h

theorem seek_eq_walk (h : disk.seek follow path = .ok place) {disk' : Disk}
    (hworking : disk'.working = disk.working) (follow' : Bool) :
    disk'.seek follow' path = disk'.walk follow' maxLinks (origin disk.working path.text.toList)
      (Path.names path.text.toList) := by
  unfold seek at h ⊢
  split_ifs at h ⊢
  rw [hworking]

theorem walk_of_seek (h : disk.seek follow path = .ok place) :
    disk.walk follow maxLinks (origin disk.working path.text.toList)
      (Path.names path.text.toList) = .ok place :=
  (seek_eq_walk h rfl follow).symm.trans h

theorem seek_put_eq_walk (h : disk.seek follow path = .ok place) (location : Location)
    (node : Node) (follow' : Bool) : (disk.put location node).seek follow' path =
      (disk.put location node).walk follow' maxLinks (origin disk.working path.text.toList)
        (Path.names path.text.toList) :=
  seek_eq_walk h (rfl : (disk.put location node).working = disk.working) follow'

theorem node?_of_seek (hsound : disk.Sound) {node : Node}
    (h : disk.seek follow path = .ok (.found location node)) : disk.node? location = some node :=
  (walk_place (HasDirectory.origin hsound _) (fun _ => Path.isPiece_of_mem_names)
    (walk_of_seek h)).1

theorem resolve_ok (h : disk.resolve path = .ok target) : ∃ location node,
    disk.seek true path = .ok (.found location node) ∧ target = Location.path location := by
  unfold resolve at h
  split at h
  · cases h
  · cases h
  · next location node hseek =>
    split_ifs at h
    exact ⟨location, node, hseek, (Except.ok.inj h).symm⟩

theorem resolve_notFound (h : disk.resolve path = .error .notFound) :
    (∃ location, disk.seek true path = .ok (.vacant location)) ∨
      disk.seek true path = .error .notFound := by
  unfold resolve at h
  split at h
  · next fault hseek =>
    obtain rfl := Except.error.inj h
    exact Or.inr hseek
  · next location hseek => exact Or.inl ⟨location, hseek⟩
  · split_ifs at h
    cases h

/-! ### Moving the temporary file -/

theorem rename_target (h : disk.rename scratch target = .ok after) : target.bare = target ∧
    ∀ location mode, disk.locate false target.bare ≠ .ok (.found location (.directory mode)) := by
  unfold rename at h
  split at h
  · cases h
  · cases h
  · cases h
  · split at h
    · cases h
    · next place hplace =>
      split_ifs at h with hbare
      refine ⟨not_not.mp hbare, fun location mode hdirectory => ?_⟩
      obtain rfl := Except.ok.inj (hplace.symm.trans hdirectory)
      cases h

/-- A file is put where a path leads, as far as its last name. -/
structure Lands (disk : Disk) (target : Path) (bytes : ByteArray) (after : Disk) (place : Place)
    (mode : Mode) : Prop where
  locate : disk.locate false target = .ok place
  not_directory : ∀ mode, place.node? ≠ some (.directory mode)
  reaches : ∃ left, disk.Reaches place.location left maxLinks
    (origin disk.working target.text.toList) (Path.names target.text.toList)
  copies : ∃ vacant, disk.node? vacant = none ∧
    (disk.put vacant (.file Node.fileMode bytes)).Copies target mode
  after_eq : after = disk.put place.location (.file mode bytes)

theorem head?_of_locate {name : String} (h : disk.locate false path = .ok place)
    (hlast : (Path.names path.text.toList).getLast? = some name) (hpoint : name ≠ ".")
    (hpoints : name ≠ "..") : place.location.head? = some name := by
  obtain ⟨left, hreaches⟩ := reaches_of_walk (walk_of_locate h)
    (fun x => Path.isPiece_of_mem_names) hlast hpoint hpoints
  obtain ⟨name', parent, hlast', hentry⟩ := hreaches.entry
  rw [hentry, List.head?_cons, ← hlast', hlast]

theorem locate_of_put {place' : Place} (hne : location ≠ [])
    (h : (disk.put location (.file mode bytes)).locate follow path = .ok place')
    (helse : place'.location ≠ location) : disk.locate follow path = .ok place' := by
  rw [locate_eq_walk h (rfl : disk.working = _)]
  exact walk_of_put hne (walk_of_locate h) helse

theorem last_ne_point (hsound : disk.Sound) (hroom : disk.HasRoom location)
    (hplace : (disk.put location (.file mode bytes)).locate false target = .ok place)
    (hkept : ∀ other mode', (disk.put location (.file mode bytes)).locate false target ≠
      .ok (.found other (.directory mode'))) :
    (Path.names target.text.toList).getLast? ≠ some "." := by
  intro hpoint
  have hdirectory := (HasDirectory.origin hsound target.text.toList).of_room hroom
    (node?_put_eq hroom.ne_nil (.file mode bytes))
  obtain ⟨other, mode', rfl⟩ :=
    walk_point hdirectory (fun x => Path.isPiece_of_mem_names) (walk_of_locate hplace) hpoint
  exact hkept other mode' hplace

/-- **The temporary file lands where the target is**, and none is left. -/
theorem Placed.lands (h : Placed disk scratch target bytes after) (hsound : disk.Sound)
    (hclean : disk.NoEntry scratch) (hscratch : target.scratch? worker = some scratch) :
    ∃ place mode, Lands disk target bytes after place mode ∧ after.NoEntry scratch := by
  obtain ⟨vacant, mode, hvacant, hcopies, hrename⟩ := h
  obtain ⟨hbare, hkept⟩ := rename_target hrename
  obtain ⟨last, hscratchLast, htargetLast⟩ := Path.scratch?_last hbare hscratch
  obtain ⟨old, node, place, hold, hplace, rfl⟩ := rename_ok hrename
  rw [locate_put_vacant hvacant] at hold
  obtain ⟨rfl, rfl⟩ := Place.found.inj (Except.ok.inj hold)
  rw [hbare] at hkept hplace
  have hfree := node?_of_locate_vacant hvacant
  have hroom : disk.HasRoom vacant := Or.inl hfree
  rw [erase_put hfree]
  rcases htargetLast with hpoint | ⟨hlast, hne, hne'⟩
  · exact absurd hpoint (last_ne_point hsound hroom hplace hkept)
  have hscratchHead : ∀ {disk' : Disk} {place' : Place}, disk'.locate false scratch = .ok place' →
      place'.location.head? = some (worker.scratch last) := fun h' =>
    head?_of_locate h' hscratchLast (worker.scratch_ne_points last).1
        (worker.scratch_ne_points last).2
  have hhead := head?_of_locate hplace hlast hne hne'
  have hother : ∀ location : Location, location.head? = some (worker.scratch last) →
      location ≠ place.location := by
    rintro location hlocation rfl
    exact worker.scratch_ne last (Option.some.inj (hlocation.symm.trans hhead))
  have hlocate := locate_of_put hroom.ne_nil hplace (hother vacant (hscratchHead hvacant)).symm
  have hreaches : ∃ left, disk.Reaches place.location left maxLinks
      (origin disk.working target.text.toList) (Path.names target.text.toList) :=
    reaches_of_walk (walk_of_locate hlocate) (fun x => Path.isPiece_of_mem_names) hlast hne hne'
  refine ⟨place, mode, ⟨hlocate, ?_, hreaches, ⟨vacant, hfree, hcopies⟩, rfl⟩,
    fun location node hfound => ?_⟩
  · intro mode' hdirectory
    cases place with
    | found location node =>
      obtain rfl : node = .directory mode' := Option.some.inj hdirectory
      exact hkept location mode' hplace
    | vacant location => cases hdirectory
  · have hne : place.location ≠ [] := by
      rintro hnil
      rw [hnil] at hhead
      cases hhead
    exact hclean location node (locate_of_put hne hfound (hother location (hscratchHead hfound)))

/-! ### The file of a path -/

/-- The location of the file that a replacement makes: what the path leads to, or the entry for its
last name if it leads nowhere. -/
def destination? (disk : Disk) (path : Path) : Option Location :=
  match disk.seek true path with
  | .ok (.found location _) => some location
  | .ok (.vacant _) | .error .notFound =>
    match disk.seek false path with
    | .ok place => some place.location
    | .error _ => none
  | .error _ => none

/-- The permission bits of a new file: those of the file in whose place it comes, if there is
one. -/
def Node.inherited : Option Node → Mode
  | some (.file mode _) => mode
  | _ => Node.fileMode

/-- A file was put where a path leads, and the path leads to it. If the path led to a file before,
it was that one. -/
structure Renewed (disk after : Disk) (path : Path) (bytes : ByteArray) (location : Location)
    (mode : Mode) : Prop where
  destination : disk.destination? path = some location
  ne_nil : location ≠ []
  mode_eq : mode = Node.inherited (disk.node? location)
  after_eq : after = disk.put location (.file mode bytes)
  seek : after.seek true path = .ok (.found location (.file mode bytes))
  file : ∀ target, disk.resolve path = .ok target →
    ∃ mode old, disk.node? location = some (.file mode old)

/-- **What is moved over, where a path leads, is a file.** -/
theorem file_of_locate (hsound : disk.Sound) {node : Node} (hne : location ≠ [])
    (hseek : disk.seek true path = .ok (.found location node))
    (hlocate : disk.locate false (Location.path location) = .ok place)
    (hkept : ∀ mode, place.node? ≠ some (.directory mode)) :
    place = .found location node ∧ ∃ name directory mode old, location = name :: directory ∧
      IsName name ∧ disk.HasDirectory directory ∧ node = .file mode old := by
  have hstart := HasDirectory.origin hsound path.text.toList
  have hwalk := walk_of_seek hseek
  obtain ⟨hnode, hentry⟩ := walk_place hstart (fun x => Path.isPiece_of_mem_names) hwalk
  dsimp only [Place.location, Place.node?] at hnode hentry
  obtain ⟨name, directory, rfl⟩ := List.exists_cons_of_ne_nil hne
  obtain ⟨hname, hdirectory⟩ : IsName name ∧ disk.HasDirectory directory := by
    rcases hentry with hdirectory | ⟨name', directory', heq, hname, hdirectory⟩
    · exact ⟨hdirectory.1, hdirectory.2.2⟩
    · obtain ⟨rfl, rfl⟩ := List.cons.inj heq
      exact ⟨hname, hdirectory⟩
  rw [locate_path hdirectory hname.piece rfl] at hlocate
  split_ifs at hlocate
  rw [walk_name hname, arrive_false, hnode] at hlocate
  dsimp only at hlocate
  obtain rfl := Except.ok.inj hlocate
  cases node with
  | file mode old => exact ⟨rfl, name, directory, mode, old, rfl, hname, hdirectory, rfl⟩
  | directory mode => exact absurd rfl (hkept mode)
  | link link => exact absurd hwalk (walk_ne_link hstart fun x => Path.isPiece_of_mem_names)

theorem Copies.eq_of_file {name : String} {directory : Location} {mode' : Mode} {old : ByteArray}
    (hcopies : disk.Copies (Location.path (name :: directory)) mode)
    (hdirectory : disk.HasDirectory directory) (hname : IsName name)
    (hfile : disk.node? (name :: directory) = some (.file mode' old)) : mode = mode' := by
  obtain ⟨hthere, hmode⟩ := mode_path hdirectory hname hfile
  rcases hcopies with hcopied | ⟨hgone, -⟩
  · exact hmode mode hcopied
  · exact absurd hgone hthere

theorem Lands.renewed_found (h : Lands disk target bytes after place mode) (hsound : disk.Sound)
    (hresolve : disk.resolve path = .ok target) (hscratch : target.scratch? worker = some scratch) :
    ∃ location, Renewed disk after path bytes location mode := by
  obtain ⟨location, node, hseek, rfl⟩ := resolve_ok hresolve
  have hne : location ≠ [] := by
    rintro rfl
    cases hscratch
  obtain ⟨rfl, name, directory, mode', old, rfl, hname, hdirectory, rfl⟩ :=
    file_of_locate hsound hne hseek h.locate h.not_directory
  have hnode := node?_of_seek hsound hseek
  have hroom : disk.HasRoom (name :: directory) := Or.inr ⟨mode', old, hnode⟩
  have hmode : mode = mode' := by
    obtain ⟨vacant, hfree, hcopies⟩ := h.copies
    have hvacant : disk.HasRoom vacant := Or.inl hfree
    have hkept : (disk.put vacant (.file Node.fileMode bytes)).node? (name :: directory) =
        some (.file mode' old) := by
      rw [node?_put_eq hvacant.ne_nil, if_neg, hnode]
      rintro rfl
      cases hnode.symm.trans hfree
    exact hcopies.eq_of_file (hdirectory.of_room hvacant (node?_put_eq hvacant.ne_nil _))
        hname hkept
  refine ⟨name :: directory, by simp [destination?, hseek], hne, by rw [hnode, hmode]; rfl,
    h.after_eq, ?_, fun _ _ => ⟨mode', old, hnode⟩⟩
  rw [h.after_eq, seek_put_eq_walk hseek]
  exact walk_put (HasDirectory.origin hsound _) (fun x => Path.isPiece_of_mem_names)
    (walk_of_seek hseek) hroom mode bytes

theorem Lands.vacant_or_dangling (h : Lands disk path bytes after place mode)
    (hresolve : disk.resolve path = .error .notFound) : place = .vacant place.location ∨
      ∃ link, place = .found place.location (.link link) ∧
        disk.node? place.location = some (.link link) ∧ disk.Dangling place.location link := by
  have hseek := seek_of_locate h.locate (by simp)
  have hwalk := walk_of_seek hseek
  have hgone := resolve_notFound hresolve
  rw [seek_eq_walk hseek rfl] at hgone
  obtain ⟨left, hreaches⟩ := h.reaches
  cases place with
  | vacant location => exact Or.inl rfl
  | found location node =>
    have hnode : disk.node? location = some node := by
      rw [hreaches.walk false, arrive_false] at hwalk
      dsimp only [Place.location] at hwalk
      split at hwalk <;> cases hwalk
      assumption
    cases node with
    | directory mode' => exact absurd rfl (h.not_directory mode')
    | file mode' old =>
      -- the path would have led to this file
      rw [hreaches.walk true] at hgone
      simp [arrive, Place.location, hnode] at hgone
    | link link =>
      refine Or.inr ⟨link, rfl, hnode, ?_⟩
      rcases hgone with ⟨vacant, hgone⟩ | hgone
      · exact hreaches.dangling hnode hgone (by simp) (by simp)
      · exact hreaches.dangling hnode hgone (by simp) (by simp)

theorem Lands.seek_vacant (h : Lands disk path bytes after place mode)
    (hresolve : disk.resolve path = .error .notFound) :
    after.seek true path = .ok (.found place.location (.file mode bytes)) := by
  have hseek := seek_of_locate h.locate (by simp)
  have hwalk := walk_of_seek hseek
  obtain ⟨left, hreaches⟩ := h.reaches
  rw [h.after_eq, seek_put_eq_walk hseek]
  rcases h.vacant_or_dangling hresolve with hvacant | ⟨link, -, hnode, hdangling⟩
  · refine walk_put_vacant ?_ mode bytes
    rw [hvacant] at hwalk
    rw [walk_of_not_found (by simp [hwalk])]
    exact hwalk
  · -- the file takes the place of the link; no walk to the link can have led through it
    have hne : place.location ≠ [] := by
      rintro hnil
      simp [hnil, Disk.node?] at hnode
    rw [(hreaches.put hnode hdangling mode bytes).walk true]
    simp [arrive, node?_put disk hne]

theorem Copies.eq_of_not_found {vacant : Location} (hsound : disk.Sound)
    (hresolve : disk.resolve path = .error .notFound) (hfree : disk.node? vacant = none)
    (hcopies : (disk.put vacant (.file Node.fileMode bytes)).Copies path mode) :
    mode = Node.fileMode := by
  have hroom : disk.HasRoom vacant := Or.inl hfree
  have hstart := (HasDirectory.origin hsound path.text.toList).of_room hroom
    (node?_put_eq hroom.ne_nil (.file Node.fileMode bytes))
  have hnew : ∀ location node, (disk.put vacant (.file Node.fileMode bytes)).locate true path =
      .ok (.found location node) → node = .file Node.fileMode bytes := by
    intro location node hlocate
    by_cases hhere : location = vacant
    · have hnode := (walk_place hstart (fun x => Path.isPiece_of_mem_names)
        (walk_of_locate hlocate)).1
      rw [Place.location, hhere, node?_put disk hroom.ne_nil] at hnode
      exact (Option.some.inj hnode).symm
    · have hbefore := seek_of_locate (locate_of_put hroom.ne_nil hlocate hhere) (by simp)
      rcases resolve_notFound hresolve with ⟨other, hgone⟩ | hgone
      · cases hgone.symm.trans hbefore
      · cases hgone.symm.trans hbefore
  rcases hcopies with hcopied | ⟨-, rfl⟩
  · unfold Disk.mode at hcopied
    split at hcopied
    · cases hcopied
    · next hlocate =>
      cases hnew _ _ hlocate
      exact (Except.ok.inj hcopied).symm
    · next hlocate => cases hnew _ _ hlocate
    · cases hcopied
  · rfl

theorem Lands.renewed_vacant (h : Lands disk path bytes after place mode) (hsound : disk.Sound)
    (hresolve : disk.resolve path = .error .notFound) :
    Renewed disk after path bytes place.location mode := by
  have hdestination : disk.destination? path = some place.location := by
    unfold destination?
    rcases resolve_notFound hresolve with ⟨vacant, hseek⟩ | hseek
    · simp [hseek, seek_of_locate h.locate]
    · simp [hseek, seek_of_locate h.locate]
  have hmode : mode = Node.inherited (disk.node? place.location) := by
    obtain ⟨vacant, hfree, hcopies⟩ := h.copies
    rw [hcopies.eq_of_not_found hsound hresolve hfree]
    rcases h.vacant_or_dangling hresolve with hvacant | ⟨link, -, hnode, -⟩
    · rw [node?_of_locate_vacant (h.locate.trans (congrArg Except.ok hvacant))]
      rfl
    · rw [hnode]
      rfl
  obtain ⟨left, hreaches⟩ := h.reaches
  obtain ⟨name, parent, -, hentry⟩ := hreaches.entry
  refine ⟨hdestination, hentry ▸ List.cons_ne_nil name parent, hmode, h.after_eq,
    h.seek_vacant hresolve, ?_⟩
  intro target hfound
  cases hfound.symm.trans hresolve

/-- **A replacement that succeeds renews the file of its path**, and leaves no temporary file. -/
theorem renewed_of_effected (hsound : disk.Sound) (hclean : disk.Untouched worker path)
    (h : disk.Effected exposed worker path bytes after (.ok ())) :
    ∃ location mode, Renewed disk after path bytes location mode ∧
      ∀ scratch ∈ disk.temporary? worker path, after.NoEntry scratch := by
  obtain ⟨target, scratch, htargets, hscratch, hplaced⟩ := h
  have htemporary : disk.temporary? worker path = some scratch :=
    (htargets.temporary? worker).trans hscratch
  obtain ⟨place, mode, hlands, hgone⟩ :=
    hplaced.lands hsound (hclean scratch htemporary) hscratch
  have hgone' : ∀ scratch ∈ disk.temporary? worker path, after.NoEntry scratch := by
    rintro other hother
    obtain rfl := Option.some.inj (htemporary.symm.trans hother)
    exact hgone
  rcases htargets with hresolve | ⟨hresolve, rfl⟩
  · obtain ⟨location, hrenewed⟩ := hlands.renewed_found hsound hresolve hscratch
    exact ⟨location, mode, hrenewed, hgone'⟩
  · exact ⟨place.location, mode, hlands.renewed_vacant hsound hresolve, hgone'⟩

end BenchLedger.Disk
