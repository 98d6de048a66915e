import BenchLedger.Proofs.Disk.Placement

/-! # What a replacement that succeeds has moved

A replacement writes where the path of its temporary file leads and then moves the entry of that
path over the target, whatever stood there before (`Moved`, `moved_of_ends`). So the target becomes
the new file, or else the symbolic link that stood under the temporary name: then it is the file
behind this link that was written. -/

namespace BenchLedger.Disk

variable {exposed : Request → Prop} {disk after : Disk} {worker : Worker}
  {path scratch target : Path} {bytes : ByteArray} {location : Location} {place : Place}
  {mode : Mode}

/-! ### The steps of a replacement that succeeded -/

theorem ends_takePlace_ok (h : (takePlace scratch target).Ends exposed disk after (.ok ())) :
    disk.rename scratch target = .ok after := by
  obtain ⟨reply, moved, hmove, h⟩ := Script.ends_request_bind.mp h
  rcases yields_rename hmove with ⟨rfl, hrename⟩ | ⟨⟨fault, rfl⟩, -⟩
  · rw [(Script.ends_pure.mp h).1]
    exact hrename
  · cases (Script.ends_pure.mp h).2

theorem ends_attempt_ok (h : (attempt scratch target bytes).Ends exposed disk after (.ok ())) :
    ∃ written ready, disk.write scratch bytes = .ok written ∧
      (ready = written ∨ ∃ mode, written.setMode scratch mode = .ok ready) ∧
      ready.rename scratch target = .ok after := by
  obtain ⟨reply, written, hwrite, hrest⟩ := Script.ends_request_bind.mp h
  rcases yields_write hwrite with ⟨rfl, hwritten⟩ | ⟨⟨fault, rfl⟩, -⟩
  · obtain ⟨reply, middle, hmode, hmoved⟩ := Script.ends_request_bind.mp hrest
    obtain ⟨rfl, -⟩ := yields_readMode hmode
    split at hmoved
    · exact ⟨middle, middle, hwritten, Or.inl rfl, ends_takePlace_ok hmoved⟩
    · cases (Script.ends_pure.mp hmoved).2
    · next mode =>
      obtain ⟨reply, ready, hset, hlast⟩ := Script.ends_request_bind.mp hmoved
      rcases yields_setMode hset with ⟨rfl, hready⟩ | ⟨⟨fault, rfl⟩, -⟩
      · exact ⟨middle, ready, hwritten, Or.inr ⟨mode, hready⟩, ends_takePlace_ok hlast⟩
      · cases (Script.ends_pure.mp hlast).2
  · cases (Script.ends_pure.mp hrest).2

theorem ends_replace_ok (h : (replace worker path bytes).Ends exposed disk after (.ok ())) :
    ∃ target scratch, disk.Targets path target ∧ target.scratch? worker = some scratch ∧
      (attempt scratch target bytes).Ends exposed disk after (.ok ()) := by
  obtain ⟨found, middle, htarget, h⟩ := Script.ends_bind.mp h
  obtain ⟨rfl, hfound⟩ := (keeps_target exposed disk path).ends htarget
  cases found with
  | error fault => cases (Script.ends_pure.mp h).2
  | ok target =>
    dsimp only at h
    cases hscratch : target.scratch? worker with
    | none =>
      rw [hscratch] at h
      cases (Script.ends_pure.mp h).2
    | some scratch =>
      rw [hscratch] at h
      obtain ⟨outcome, last, hattempt, h⟩ := Script.ends_bind.mp h
      cases outcome with
      | error fault =>
        obtain ⟨_, _, -, h⟩ := Script.ends_bind.mp h
        cases (Script.ends_pure.mp h).2
      | ok _ =>
        rw [(Script.ends_pure.mp h).1]
        exact ⟨target, scratch, hfound target rfl, hscratch, hattempt⟩

/-! ### Where the temporary file is -/

theorem ready_eq_put (hsound : disk.Sound) {written ready : Disk}
    (hwrite : disk.write scratch bytes = .ok written)
    (hready : ready = written ∨ ∃ mode, written.setMode scratch mode = .ok ready) :
    ∃ place mode, disk.locate true scratch = .ok place ∧ disk.HasRoom place.location ∧
      ready = disk.put place.location (.file mode bytes) := by
  obtain ⟨place, mode, hlocate, hplace, rfl⟩ := write_ok hwrite
  have hstart := HasDirectory.origin hsound scratch.text.toList
  have hpieces : ∀ x ∈ Path.names scratch.text.toList, IsPiece x := fun x =>
    Path.isPiece_of_mem_names
  have hwalk := walk_of_locate hlocate
  have hroom := hasRoom_of_place (walk_place hstart hpieces hwalk).1 hplace
  rcases hready with rfl | ⟨mode', hset⟩
  · exact ⟨place, mode, hlocate, hroom, rfl⟩
  · have hfound : (disk.put place.location (.file mode bytes)).locate true scratch =
        .ok (.found place.location (.file mode bytes)) := by
      rw [locate_eq_walk hlocate (rfl : (disk.put _ _).working = disk.working)]
      exact walk_put hstart hpieces hwalk hroom mode bytes
    exact ⟨place, mode', hlocate, hroom, by rw [setMode_ok hfound hset, put_put]⟩

theorem Reaches.node?_eq {left links : ℕ} {directory here : Location} {names : List String}
    (h : disk.Reaches here left links directory names)
    (hwalk : disk.walk false links directory names = .ok place) :
    place.location = here ∧ place.node? = disk.node? here := by
  rw [h.walk false, arrive_false] at hwalk
  obtain rfl := Except.ok.inj hwalk
  cases hnode : disk.node? here <;> exact ⟨rfl, rfl⟩

/-- **The entry that a path names**, with what is there. -/
structure Names (disk : Disk) (path : Path) (place : Place) : Prop where
  locate : disk.locate false path = .ok place
  node?_eq : place.node? = disk.node? place.location
  reaches : ∃ left, disk.Reaches place.location left maxLinks
    (origin disk.working path.text.toList) (Path.names path.text.toList)

theorem Names.ne_nil (h : disk.Names path place) : place.location ≠ [] := by
  obtain ⟨left, hreaches⟩ := h.reaches
  obtain ⟨name, parent, -, hentry⟩ := hreaches.entry
  rw [hentry]
  exact List.cons_ne_nil name parent

theorem names_of_locate {name : String} (h : disk.locate false path = .ok place)
    (hlast : (Path.names path.text.toList).getLast? = some name) (hpoint : name ≠ ".")
    (hpoints : name ≠ "..") : disk.Names path place := by
  obtain ⟨left, hreaches⟩ := reaches_of_walk (walk_of_locate h)
    (fun x => Path.isPiece_of_mem_names) hlast hpoint hpoints
  exact ⟨h, (hreaches.node?_eq (walk_of_locate h)).2, left, hreaches⟩

theorem Names.of_put (hne : location ≠ [])
    (h : (disk.put location (.file mode bytes)).Names path place) :
    ∃ before, disk.Names path before ∧ before.location = place.location := by
  obtain ⟨hlocate, -, left, hreaches⟩ := h
  have hbefore := hreaches.of_put hne
  have hworking : disk.working = (disk.put location (.file mode bytes)).working := rfl
  have hwalk := locate_eq_walk hlocate hworking false
  cases hplace : disk.locate false path with
  | error fault =>
    rw [hplace, hbefore.walk false, arrive_false] at hwalk
    cases hwalk
  | ok before =>
    obtain ⟨hlocation, hnode⟩ := hbefore.node?_eq (walk_of_locate hplace)
    exact ⟨before, ⟨hplace, by rw [hnode, hlocation], left, hlocation ▸ hbefore⟩, hlocation⟩

/-! ### Over the target -/

theorem arrive_of_le {left more : ℕ} {link : String}
    (hlink : disk.node? location = some (.link link))
    (h : disk.arrive true left location [] = .ok place) (hle : left ≤ more) :
    disk.arrive true more location [] = .ok place := by
  cases left with
  | zero =>
    rw [arrive, hlink] at h
    cases h
  | succ left =>
    cases more with
    | zero => cases hle
    | succ more =>
      rw [arrive_link hlink (Or.inr rfl)] at h ⊢
      exact walk_of_le h (by simp) (Nat.le_of_succ_le_succ hle)

theorem link_of_arrive {left : ℕ} {node : Node} (hnode : disk.node? location = some node)
    (h : disk.arrive true left location [] = .ok place) (helse : place.location ≠ location) :
    ∃ link, node = .link link := by
  rw [arrive, hnode] at h
  rcases node with ⟨mode, bytes⟩ | ⟨mode⟩ | ⟨link⟩
  · exact absurd (congrArg Place.location (Except.ok.inj h)).symm helse
  · exact absurd (congrArg Place.location (Except.ok.inj h)).symm helse
  · exact ⟨link, rfl⟩

theorem replaced_of_move {file : Place} {old new : Location} {node : Node} {left : ℕ}
    (hold : old ≠ []) (hnew : new ≠ []) (hroom : disk.HasRoom file.location)
    (harrive : disk.arrive true left old [] = .ok file) (hleft : left ≤ maxLinks)
    (hnode : (disk.put file.location (.file mode bytes)).node? old = some node) :
    Replaced disk (((disk.put file.location (.file mode bytes)).erase old).put new node) new old
      mode bytes := by
  have hafter : ∀ x,
      (((disk.put file.location (.file mode bytes)).erase old).put new node).node? x =
      if x = new then some node else if x = old then none
      else if x = file.location then some (.file mode bytes) else disk.node? x := by
    intro x
    rw [node?_put_eq hnew, node?_erase_eq hold, node?_put_eq hroom.ne_nil]
  rw [node?_put_eq hroom.ne_nil] at hnode
  by_cases hhere : old = file.location
  · rw [if_pos hhere] at hnode
    obtain rfl := Option.some.inj hnode
    refine .plain (hhere ▸ hroom) fun x => ?_
    rw [hafter, ← hhere]
    split_ifs <;> rfl
  · rw [if_neg hhere] at hnode
    obtain ⟨link, rfl⟩ := link_of_arrive hnode harrive (Ne.symm hhere)
    exact .through link file hnode (arrive_of_le hnode harrive hleft) hroom hafter

/-- **The entry of the temporary path was moved over that of the target.** -/
structure Moved (disk : Disk) (worker : Worker) (scratch target : Path) (bytes : ByteArray)
    (after : Disk) (place stood : Place) : Prop where
  working : after.working = disk.working
  target : disk.Names target place
  scratch : disk.Names scratch stood
  not_directory : ∀ mode, place.node? ≠ some (.directory mode)
  heads : ∃ name, place.location.head? = some name ∧
    stood.location.head? = some (worker.scratch name)
  replaced : ∃ mode, Replaced disk after place.location stood.location mode bytes

/-- **An attempt that succeeds moves the entry of the temporary path over the target.** -/
theorem moved_of_attempt (hsound : disk.Sound) (hscratch : target.scratch? worker = some scratch)
    (h : (attempt scratch target bytes).Ends exposed disk after (.ok ())) :
    ∃ place stood, Moved disk worker scratch target bytes after place stood := by
  obtain ⟨written, ready, hwrite, hready, hrename⟩ := ends_attempt_ok h
  obtain ⟨file, mode, hlocate, hroom, rfl⟩ := ready_eq_put hsound hwrite hready
  obtain ⟨hbare, hkept⟩ := rename_target hrename
  obtain ⟨last, hscratchLast, htargetLast⟩ := Path.scratch?_last hbare hscratch
  obtain ⟨old, node, new, hold, hnew, rfl⟩ := rename_ok hrename
  rw [hbare] at hkept hnew
  rcases htargetLast with hpoint | ⟨hlast, hne, hne'⟩
  · exact absurd hpoint (last_ne_point hsound hroom hnew hkept)
  obtain ⟨hpoint, hpoints⟩ := worker.scratch_ne_points last
  have hnewNames := names_of_locate hnew hlast hne hne'
  have holdNames := names_of_locate hold hscratchLast hpoint hpoints
  obtain ⟨place, hplace, hplaceAt⟩ := hnewNames.of_put hroom.ne_nil
  obtain ⟨stood, hstood, hstoodAt⟩ := holdNames.of_put hroom.ne_nil
  refine ⟨place, stood, rfl, hplace, hstood, ?_, ?_, ?_⟩
  · intro mode' hdirectory
    rw [hplace.node?_eq, hplaceAt] at hdirectory
    have hnewNode := hnewNames.node?_eq
    rw [node?_put_eq hroom.ne_nil, if_neg, hdirectory] at hnewNode
    · cases new with
      | found location node =>
        obtain rfl := Option.some.inj hnewNode
        exact hkept location mode' hnew
      | vacant location => cases hnewNode
    · rintro heq
      exact hroom.ne_directory mode' (heq ▸ hdirectory)
  · exact ⟨last, hplaceAt ▸ head?_of_locate hnew hlast hne hne',
      hstoodAt ▸ head?_of_locate hold hscratchLast hpoint hpoints⟩
  · rw [hplaceAt, hstoodAt]
    obtain ⟨left, hreaches⟩ := hstood.reaches
    rw [hstoodAt] at hreaches
    have harrive := (hreaches.walk true).symm.trans (walk_of_locate hlocate)
    exact ⟨mode, replaced_of_move holdNames.ne_nil hnewNames.ne_nil hroom harrive hreaches.left_le
      holdNames.node?_eq.symm⟩

/-- **A replacement that succeeds** does so with the target of its path. -/
theorem moved_of_ends (hsound : disk.Sound)
    (h : (replace worker path bytes).Ends exposed disk after (.ok ())) :
    ∃ target scratch place stood, disk.Targets path target ∧
      target.scratch? worker = some scratch ∧
      Moved disk worker scratch target bytes after place stood := by
  obtain ⟨target, scratch, htargets, hscratch, hattempt⟩ := ends_replace_ok h
  obtain ⟨place, stood, hmoved⟩ := moved_of_attempt hsound hscratch hattempt
  exact ⟨target, scratch, place, stood, htargets, hscratch, hmoved⟩

/-! ### Links -/

/-- The symbolic link under the temporary name of a worker for a path, with what it says. -/
def staleLink? (disk : Disk) (worker : Worker) (path : Path) : Option (Location × String) :=
  match (disk.temporary? worker path).map (disk.locate false) with
  | some (.ok (.found location (.link link))) => some (location, link)
  | _ => none

/-- A path leads somewhere, through links or not. -/
def Leads (disk : Disk) (path : Path) : Prop :=
  ∃ location node, disk.seek true path = .ok (.found location node)

theorem Targets.leads_or (h : disk.Targets path target) :
    (disk.Leads path ∧ ∃ location node, disk.seek true path = .ok (.found location node) ∧
      target = Location.path location) ∨ ¬ disk.Leads path ∧ target = path := by
  rcases h with hresolve | ⟨hresolve, rfl⟩
  · obtain ⟨location, node, hseek, htarget⟩ := resolve_ok hresolve
    exact Or.inl ⟨⟨location, node, hseek⟩, location, node, hseek, htarget⟩
  · refine Or.inr ⟨?_, rfl⟩
    rintro ⟨location, node, hseek⟩
    rcases resolve_notFound hresolve with ⟨vacant, hvacant⟩ | hgone
    · cases hseek.symm.trans hvacant
    · cases hseek.symm.trans hgone

section Moved

variable {stood : Place} (hmoved : Moved disk worker scratch target bytes after place stood)
  (htargets : disk.Targets path target) (hscratch : target.scratch? worker = some scratch)

include hmoved htargets hscratch

theorem staleLink?_eq : disk.staleLink? worker path =
    match disk.node? stood.location with
    | some (.link link) => some (stood.location, link)
    | _ => none := by
  unfold staleLink?
  rw [htargets.temporary?, hscratch, Option.map_some, hmoved.scratch.locate,
    ← hmoved.scratch.node?_eq]
  rcases stood with ⟨location, node⟩ | ⟨location⟩
  · cases node <;> rfl
  · rfl

theorem plain_of_no_link (hstale : disk.staleLink? worker path = none) :
    disk.HasRoom stood.location ∧ ∃ mode, ∀ x, after.node? x =
      if x = place.location then some (.file mode bytes)
      else if x = stood.location then none else disk.node? x := by
  obtain ⟨mode, ⟨hroom, hafter⟩ | ⟨link, file, hlink, -, -, -⟩⟩ := hmoved.replaced
  · exact ⟨hroom, mode, hafter⟩
  · rw [staleLink?_eq hmoved htargets hscratch, hlink] at hstale
    cases hstale

theorem through_of_link {stale : Location} {other : String}
    (hstale : disk.staleLink? worker path = some (stale, other)) :
    stood.location = stale ∧ ∃ file mode, disk.HasRoom file ∧ ∀ x, after.node? x =
      if x = place.location then some (.link other) else if x = stale then none
      else if x = file then some (.file mode bytes) else disk.node? x := by
  rw [staleLink?_eq hmoved htargets hscratch] at hstale
  obtain ⟨mode, ⟨hroom, hafter⟩ | ⟨link, file, hlink, -, hroom, hafter⟩⟩ := hmoved.replaced
  · rcases hroom with hnone | ⟨mode', old, hfile⟩
    · rw [hnone] at hstale
      cases hstale
    · rw [hfile] at hstale
      cases hstale
  · rw [hlink] at hstale
    obtain ⟨rfl, rfl⟩ := Prod.mk.inj (Option.some.inj hstale)
    exact ⟨rfl, file.location, mode, hroom, hafter⟩

end Moved

theorem Moved.beside {stood : Place} {node : Node} (hsound : disk.Sound)
    (hmoved : Moved disk worker scratch (Location.path location) bytes after place stood)
    (hscratch : (Location.path location).scratch? worker = some scratch)
    (hseek : disk.seek true path = .ok (.found location node)) :
    place.location = location ∧ ∃ name directory mode old, location = name :: directory ∧
      stood.location = worker.scratch name :: directory ∧ disk.HasDirectory directory ∧
      disk.node? location = some (.file mode old) := by
  have hne : location ≠ [] := by
    rintro rfl
    cases hscratch
  obtain ⟨rfl, name, directory, mode, old, rfl, hname, hdirectory, rfl⟩ :=
    file_of_locate hsound hne hseek hmoved.target.locate hmoved.not_directory
  rw [Path.scratch?_path worker (List.forall_mem_cons.mpr ⟨hname, hdirectory.isName⟩)] at hscratch
  obtain rfl := Option.some.inj hscratch
  have hstood := hmoved.scratch.locate
  rw [(locate_scratch hdirectory hname hstood).2 disk hdirectory, arrive_false] at hstood
  obtain rfl := Except.ok.inj hstood
  refine ⟨rfl, name, directory, mode, old, rfl, ?_, hdirectory, node?_of_seek hsound hseek⟩
  cases disk.node? (worker.scratch name :: directory) <;> rfl

/-- **A link that is kept**, and leads to the new contents. -/
structure LinkKept (after : Disk) (path : Path) (here : Location) (link : String)
    (bytes : ByteArray) : Prop where
  link : after.node? here = some (.link link)
  leads : ∃ location mode, after.seek true path = .ok (.found location (.file mode bytes))

section LinkKept

variable {here : Location} {link : String}

theorem kept_of_leads (hsound : disk.Sound)
    (hlink : disk.seek false path = .ok (.found here (.link link)))
    (h : (replace worker path bytes).Ends exposed disk after (.ok ())) (hleads : disk.Leads path)
    (hstale : disk.staleLink? worker path = none) : LinkKept after path here link bytes := by
  obtain ⟨target, scratch, place, stood, htargets, hscratch, hmoved⟩ := moved_of_ends hsound h
  obtain ⟨hroom, mode, hafter⟩ := plain_of_no_link hmoved htargets hscratch hstale
  rcases htargets.leads_or with ⟨-, location, node, hseek, rfl⟩ | ⟨hnot, -⟩
  · obtain ⟨rfl, -, -, mode', old, -, -, -, hfile⟩ := hmoved.beside hsound hscratch hseek
    have hnode := node?_of_seek hsound hlink
    constructor
    · rw [hafter, if_neg, if_neg, hnode]
      · rintro rfl
        exact hroom.ne_link link hnode
      · rintro rfl
        cases hnode.symm.trans hfile
    · refine ⟨place.location, mode, ?_⟩
      rw [seek_eq_walk hseek hmoved.working]
      exact walk_plain hroom hafter (Or.inr ⟨mode', old, hfile⟩) (HasDirectory.origin hsound _)
        (fun x => Path.isPiece_of_mem_names) (walk_of_seek hseek)
  · exact absurd hleads hnot

theorem kept_of_stale {stale : Location} {other : String} (hsound : disk.Sound)
    (hlink : disk.seek false path = .ok (.found here (.link link)))
    (h : (replace worker path bytes).Ends exposed disk after (.ok ())) (hleads : disk.Leads path)
    (hstale : disk.staleLink? worker path = some (stale, other)) :
    (after.node? here = some (.link link) ↔ stale ≠ here) ∧ ∀ location mode contents,
      after.seek true path = .ok (.found location (.file mode contents)) → contents = bytes := by
  obtain ⟨target, scratch, place, stood, htargets, hscratch, hmoved⟩ := moved_of_ends hsound h
  obtain ⟨rfl, file, mode, hroom, hafter⟩ := through_of_link hmoved htargets hscratch hstale
  rcases htargets.leads_or with ⟨-, location, node, hseek, rfl⟩ | ⟨hnot, -⟩
  · obtain ⟨rfl, name, directory, mode', old, hplace, hstood, hdirectory, hfile⟩ :=
      hmoved.beside hsound hscratch hseek
    have hnode := node?_of_seek hsound hlink
    constructor
    · rw [hafter, if_neg]
      · constructor
        · rintro hkept rfl
          rw [if_pos rfl] at hkept
          cases hkept
        · intro hne
          rw [if_neg hne.symm, if_neg, hnode]
          rintro rfl
          exact hroom.ne_link link hnode
      · rintro rfl
        cases hnode.symm.trans hfile
    · intro found mode'' contents hfound
      rw [seek_eq_walk hseek hmoved.working] at hfound
      obtain ⟨_, hreplaced⟩ := hmoved.replaced
      have hwalk := walk_of_seek hseek
      rw [hplace, hstood] at hreplaced
      rw [hplace] at hwalk hfile
      exact hreplaced.contents hdirectory (worker.scratch_ne name) (Or.inr ⟨mode', old, hfile⟩)
        (HasDirectory.origin hsound _) (fun x => Path.isPiece_of_mem_names) hwalk hfound
  · exact absurd hleads hnot

/-- **A link that leads nowhere is replaced** itself. -/
theorem replaced_of_dangling (hsound : disk.Sound)
    (hlink : disk.seek false path = .ok (.found here (.link link)))
    (h : (replace worker path bytes).Ends exposed disk after (.ok ())) (hnot : ¬ disk.Leads path) :
    match disk.staleLink? worker path with
    | none => ∃ mode, after.node? here = some (.file mode bytes)
    | some (_, other) => after.node? here = some (.link other) := by
  obtain ⟨target, scratch, place, stood, htargets, hscratch, hmoved⟩ := moved_of_ends hsound h
  rcases htargets.leads_or with ⟨hleads, -⟩ | ⟨-, rfl⟩
  · exact absurd hleads hnot
  · obtain rfl : place = .found here (.link link) :=
      Except.ok.inj ((seek_of_locate hmoved.target.locate (by simp)).symm.trans hlink)
    cases hstale : disk.staleLink? worker target with
    | none =>
      obtain ⟨-, mode, hafter⟩ := plain_of_no_link hmoved htargets hscratch hstale
      exact ⟨mode, by rw [hafter]; exact if_pos rfl⟩
    | some stale =>
      obtain ⟨-, file, mode, -, hafter⟩ := through_of_link hmoved htargets hscratch hstale
      show after.node? here = some (.link stale.2)
      rw [hafter]
      exact if_pos rfl

end LinkKept

end BenchLedger.Disk
