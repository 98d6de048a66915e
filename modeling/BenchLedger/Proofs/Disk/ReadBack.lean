import BenchLedger.Proofs.Disk.Replace

/-! # Reading a file that was replaced

A replacement that succeeded can be read back (`written_of_replace`). It can go wrong in one way: a
symbolic link that stands under the temporary name is written through, and then takes the place of
the file (`Replaced.through`). What it leads to holds the new contents, but it may also lead to
itself. -/

namespace BenchLedger.Disk

variable {disk after : Disk} {worker : Worker} {path : Path} {location scratch : Location}
  {bytes : ByteArray}

/-- The working directory is there, with the directories above it. -/
def Sound (disk : Disk) : Prop := disk.HasDirectory disk.working

/-! ### Texts of files -/

theorem fromUTF8?_eq_some {bytes : ByteArray} {text : String} :
    String.fromUTF8? bytes = some text ↔ bytes = text.toUTF8 := by
  unfold String.fromUTF8?
  constructor
  · intro h
    split_ifs at h
    cases h
    rfl
  · rintro rfl
    exact dif_pos text.isValidUTF8

theorem decode_eq_ok (path : Path) {contents : Except Fault ByteArray} {text : String} :
    decode path contents = .ok text ↔ contents = .ok text.toUTF8 := by
  unfold decode
  constructor
  · intro h
    split at h
    · cases h
    · cases h
    · next bytes =>
      split at h
      · next hbytes =>
        cases h
        rw [fromUTF8?_eq_some.mp hbytes]
      · cases h
  · rintro rfl
    dsimp only
    rw [fromUTF8?_eq_some.mpr rfl]

/-! ### Who works on the disk -/

theorem perform_user (disk : Disk) (request : Request) :
    (request.perform disk).2.user = disk.user := by
  have hsettle : ∀ result : Except Fault Disk, (∀ changed, result = .ok changed →
      changed.user = disk.user) → (Request.settle disk result).2.user = disk.user := by
    intro result h
    cases result with
    | ok changed => exact h changed rfl
    | error fault => rfl
  cases request with
  | write path bytes =>
    refine hsettle _ fun changed h => ?_
    obtain ⟨place, mode, -, -, rfl⟩ := write_ok h
    rfl
  | setMode path mode =>
    refine hsettle _ fun changed h => ?_
    unfold setMode at h
    split at h <;> cases h
    · rfl
    · rfl
  | rename source target =>
    refine hsettle _ fun changed h => ?_
    obtain ⟨old, node, place, -, -, rfl⟩ := rename_ok h
    rfl
  | remove path =>
    refine hsettle _ fun changed h => ?_
    unfold remove at h
    split at h <;> cases h
    rfl
  | _ => rfl

theorem run_user {α : Type} (script : Script α) (disk : Disk) :
    (script.run disk).disk.user = disk.user := by
  induction script generalizing disk with
  | done value => rfl
  | ask request next ih => exact (ih _ _).trans (perform_user disk request)

theorem locate_eq_walk {follow : Bool} {place : Place} (h : disk.locate follow path = .ok place)
    {disk' : Disk} (hworking : disk'.working = disk.working) (follow' : Bool) :
    disk'.locate follow' path = disk'.walk follow' maxLinks (origin disk.working path.text.toList)
      (Path.names path.text.toList) := by
  unfold locate seek at h ⊢
  split_ifs at h ⊢
  rw [hworking]

theorem walk_of_locate {follow : Bool} {place : Place} (h : disk.locate follow path = .ok place) :
    disk.walk follow maxLinks (origin disk.working path.text.toList)
      (Path.names path.text.toList) = .ok place :=
  (locate_eq_walk h rfl follow).symm.trans h

/-! ### The new contents -/

section Replaced

variable {links : ℕ} {directory : Location} {names : List String} {mode : Mode}

theorem Replaced.directory_same (hfile : ∃ mode old, disk.node? location = some (.file mode old))
    (h : Replaced disk after location scratch mode bytes) (x : Location) (mode' : Mode)
    (hx : disk.node? x = some (.directory mode')) : after.node? x = disk.node? x := by
  have hlocation : x ≠ location := by
    rintro rfl
    obtain ⟨_, old, hfile⟩ := hfile
    rw [hx] at hfile
    cases hfile
  rcases h with ⟨hroom, hnode⟩ | ⟨link, place, hlink, -, hroom, hnode⟩
  · have hscratch : x ≠ scratch := by
      rintro rfl
      exact hroom.ne_directory mode' hx
    rw [hnode, if_neg hlocation, if_neg hscratch]
  · have hscratch : x ≠ scratch := by
      rintro rfl
      rw [hx] at hlink
      cases hlink
    have hplace : x ≠ place.location := by
      rintro rfl
      exact hroom.ne_directory mode' hx
    rw [hnode, if_neg hlocation, if_neg hscratch, if_neg hplace]

theorem walk_plain (hroom : disk.HasRoom scratch)
    (hnode : ∀ x, after.node? x = if x = location then some (.file mode bytes)
      else if x = scratch then none else disk.node? x)
    (hfile : disk.HasRoom location) (hdirectory : disk.HasDirectory directory)
    (hnames : ∀ x ∈ names, IsPiece x) {node : Node}
    (h : disk.walk true links directory names = .ok (.found location node)) :
    after.walk true links directory names = .ok (.found location (.file mode bytes)) := by
  have hsame : ∀ x, x ∉ [location, scratch] → after.node? x = disk.node? x := by
    intro x hx
    simp only [List.mem_cons, List.not_mem_nil, or_false, not_or] at hx
    rw [hnode, if_neg hx.1, if_neg hx.2]
  have hrooms : ∀ x ∈ [location, scratch], disk.HasRoom x := by
    simp only [List.forall_mem_cons]
    exact ⟨hfile, hroom, by simp⟩
  rcases walk_agree hsame (fun x hx => (hrooms x hx).ne_directory) hdirectory hnames h links with
    ⟨k, -, hwalk⟩ | ⟨hlt, -⟩ | ⟨x, hx, ⟨target, htarget⟩, -⟩
  · rw [hwalk, arrive, Place.location, hnode, if_pos rfl]
    dsimp only
    rw [if_pos rfl]
  · exact absurd hlt (Nat.lt_irrefl _)
  · exact absurd htarget ((hrooms x hx).ne_link target)

section Through

variable {link name other : String} {place : Place}
  (hlink : disk.node? (name :: directory) = some (.link link))
  (hroom : disk.HasRoom place.location) (hfile : disk.HasRoom (other :: directory))
  (hne : name :: directory ≠ other :: directory)
  (hnode : ∀ x, after.node? x = if x = other :: directory then some (.link link)
    else if x = name :: directory then none
    else if x = place.location then some (.file mode bytes) else disk.node? x)

include hlink hroom hfile hne hnode

theorem walk_through {start : Location} (hstart : disk.HasDirectory start)
    (hnames : ∀ x ∈ names, IsPiece x) {old : Place}
    (h : disk.walk true links start names = .ok old) {links' : ℕ} {found : Location}
    {mode' : Mode} {contents : ByteArray}
    (hfound : after.walk true links' start names = .ok (.found found (.file mode' contents))) :
    ∃ k ≤ links',
      after.arrive true k old.location [] = .ok (.found found (.file mode' contents)) := by
  have hsame : ∀ x, x ∉ [other :: directory, name :: directory, place.location] →
      after.node? x = disk.node? x := by
    intro x hx
    simp only [List.mem_cons, List.not_mem_nil, or_false, not_or] at hx
    rw [hnode, if_neg hx.1, if_neg hx.2.1, if_neg hx.2.2]
  have hkept : ∀ x ∈ [other :: directory, name :: directory, place.location], ∀ mode,
      disk.node? x ≠ some (.directory mode) := by
    simp only [List.forall_mem_cons]
    exact ⟨hfile.ne_directory, fun mode => by simp [hlink], hroom.ne_directory, by simp⟩
  rcases walk_agree hsame hkept hstart hnames h links' with
    ⟨k, hk, hwalk⟩ | ⟨-, hloop⟩ | ⟨x, hx, ⟨target, htarget⟩, k, left, hwalk⟩
  · exact ⟨k, hk, hwalk ▸ hfound⟩
  · rw [hloop] at hfound
    cases hfound
  · obtain rfl : x = name :: directory := by
      simp only [List.mem_cons, List.not_mem_nil, or_false] at hx
      rcases hx with rfl | rfl | rfl
      · exact absurd htarget (hfile.ne_link target)
      · rfl
      · exact absurd htarget (hroom.ne_link target)
    rw [hwalk, arrive, hnode, if_neg hne, if_pos rfl] at hfound
    dsimp only at hfound
    split_ifs at hfound
    cases hfound

omit hlink hroom hfile hne in
theorem arrive_through {k : ℕ} {found : Location} {mode' : Mode} {contents : ByteArray}
    (h : after.arrive true k (other :: directory) [] = .ok (.found found (.file mode' contents))) :
    ∃ fewer < k, after.walk true fewer (origin directory link.toList)
      (Path.names link.toList) = .ok (.found found (.file mode' contents)) := by
  rw [arrive, hnode, if_pos rfl] at h
  dsimp only at h
  rw [if_neg (fun hno => Bool.noConfusion hno.2)] at h
  cases k with
  | zero => cases h
  | succ k =>
    dsimp only at h
    rw [List.append_nil] at h
    exact ⟨k, Nat.lt_succ_self k, h⟩

theorem contents_of_link (hdirectory : disk.HasDirectory directory)
    (hwalk : disk.arrive true maxLinks (name :: directory) [] = .ok place) {k : ℕ}
    {found : Location} {mode' : Mode} {contents : ByteArray}
    (h : after.walk true k (origin directory link.toList) (Path.names link.toList) =
      .ok (.found found (.file mode' contents))) : contents = bytes := by
  have hold : disk.walk true (maxLinks - 1) (origin directory link.toList)
      (Path.names link.toList) = .ok place := by
    rw [arrive, hlink] at hwalk
    dsimp only at hwalk
    rw [if_neg (fun hno => Bool.noConfusion hno.2), List.append_nil] at hwalk
    exact hwalk
  induction k using Nat.strongRecOn with
  | ind k ih =>
    obtain ⟨k', hk', harrive⟩ := walk_through hlink hroom hfile hne hnode (hdirectory.origin _)
      (fun x => Path.isPiece_of_mem_names) hold h
    by_cases hplace : place.location = other :: directory
    · rw [hplace] at harrive
      obtain ⟨fewer, hlt, hnext⟩ := arrive_through hnode harrive
      exact ih fewer (Nat.lt_of_lt_of_le hlt hk') hnext
    · have hscratch : place.location ≠ name :: directory := by
        intro heq
        exact hroom.ne_link link (heq ▸ hlink)
      rw [arrive, hnode, if_neg hplace, if_neg hscratch, if_pos rfl] at harrive
      cases harrive
      rfl

end Through

/-- **What is read where a file was replaced is what was written.** -/
theorem Replaced.contents {name other : String} (hdirectory : disk.HasDirectory directory)
    (hne : name ≠ other) (hfile : disk.HasRoom (other :: directory))
    (hreplaced : Replaced disk after (other :: directory) (name :: directory) mode bytes)
    {start : Location} (hstart : disk.HasDirectory start) (hnames : ∀ x ∈ names, IsPiece x)
    {node : Node} (h : disk.walk true links start names = .ok (.found (other :: directory) node))
    {found : Location} {mode' : Mode} {contents : ByteArray}
    (hfound : after.walk true links start names = .ok (.found found (.file mode' contents))) :
    contents = bytes := by
  have hne : name :: directory ≠ other :: directory := fun heq => hne (List.cons.inj heq).1
  rcases hreplaced with ⟨hroom, hnode⟩ | ⟨link, place, hlink, hwalk, hroom, hnode⟩
  · rw [walk_plain hroom hnode hfile hstart hnames h] at hfound
    cases hfound
    rfl
  · obtain ⟨k, -, harrive⟩ := walk_through hlink hroom hfile hne hnode hstart hnames h hfound
    obtain ⟨fewer, -, hnext⟩ := arrive_through hnode harrive
    exact contents_of_link hlink hroom hfile hne hnode hdirectory hwalk hnext

end Replaced

/-! ### Replacing what a path leads to -/

/-- A symbolic link stands where a worker would put the temporary file for a path. -/
def hasStaleLink (disk : Disk) (worker : Worker) (path : Path) : Bool :=
  match disk.resolve path with
  | .error _ => false
  | .ok target =>
    match target.scratch? worker with
    | none => false
    | some scratch =>
      match disk.locate false scratch with
      | .ok (.found _ (.link _)) => true
      | _ => false

theorem read_ok (h : disk.read path = .ok bytes) :
    ∃ location mode, disk.locate true path = .ok (.found location (.file mode bytes)) ∧
      disk.mayRead mode = true := by
  unfold read at h
  split at h
  · cases h
  · cases h
  · next location mode contents hlocate =>
    split_ifs at h with hmay
    obtain rfl := Except.ok.inj h
    exact ⟨location, mode, hlocate, hmay⟩
  · cases h

theorem read_of_locate {mode : Mode}
    (h : disk.locate true path = .ok (.found location (.file mode bytes)))
    (hmay : disk.mayRead mode = true) : disk.read path = .ok bytes := by
  rw [read, h]
  exact if_pos hmay

theorem mayRead_of_user (h : after.user = disk.user) (mode : Mode) :
    after.mayRead mode = disk.mayRead mode := by
  rw [mayRead, mayRead, h]

theorem resolve_of_locate {node : Node} (h : disk.locate true path = .ok (.found location node)) :
    disk.resolve path =
      if maxPath ≤ (Location.path location).text.utf8ByteSize then .error .nameTooLong
      else .ok (Location.path location) := by
  unfold locate at h
  split_ifs at h
  unfold resolve
  rw [h]

theorem isEntry_of_locate (hsound : disk.Sound) {mode : Mode}
    (h : disk.locate true path = .ok (.found location (.file mode bytes))) :
    disk.node? location = some (.file mode bytes) ∧ disk.IsEntry location := by
  obtain ⟨hnode, hentry⟩ := walk_place (HasDirectory.origin hsound _)
    (fun x => Path.isPiece_of_mem_names) (walk_of_locate h)
  refine ⟨hnode, hentry.resolve_left fun hdirectory => ?_⟩
  obtain ⟨mode', hnode'⟩ := hdirectory.node?
  exact absurd (hnode.symm.trans hnode') (by simp [Place.node?])

section Replace

variable {name : String} {directory : Location} {mode : Mode} {old : ByteArray}

theorem replaced_of_replace (hname : IsName name) (hdirectory : disk.HasDirectory directory)
    (hlocate : disk.locate true path = .ok (.found (name :: directory) (.file mode old)))
    (hnode : disk.node? (name :: directory) = some (.file mode old))
    (h : ((replace worker path bytes).run disk).value = .ok ()) :
    disk.resolve path = .ok (Location.path (name :: directory)) ∧
    worker.Fits name directory ∧
    Replaced disk ((replace worker path bytes).run disk).disk (name :: directory)
      (worker.scratch name :: directory) mode bytes := by
  obtain ⟨target, scratch, htarget, hscratch, hattempt, hdisk⟩ := replace_ok h
  have hresolve : disk.resolve path = .ok (Location.path (name :: directory)) ∧
      target = Location.path (name :: directory) := by
    rw [resolve_of_locate hlocate] at htarget ⊢
    split_ifs at htarget ⊢ with hlong
    · rcases htarget with htarget | ⟨htarget, -⟩ <;> cases htarget
    · rcases htarget with htarget | ⟨htarget, -⟩
      · exact ⟨rfl, (Except.ok.inj htarget).symm⟩
      · cases htarget
  obtain ⟨hresolve, rfl⟩ := hresolve
  rw [Path.scratch?_path worker (List.forall_mem_cons.mpr ⟨hname, hdirectory.isName⟩)] at hscratch
  obtain rfl := Option.some.inj hscratch
  rw [hdisk]
  obtain ⟨hagain, hreplaced⟩ := replaced_of_attempt hdirectory hname hnode hattempt
  exact ⟨hresolve, hagain, hreplaced⟩

theorem hasStaleLink_iff (hname : IsName name) (hdirectory : disk.HasDirectory directory)
    (hresolve : disk.resolve path = .ok (Location.path (name :: directory))) :
    disk.hasStaleLink worker path = true ↔ worker.Fits name directory ∧
      ∃ link, disk.node? (worker.scratch name :: directory) = some (.link link) := by
  unfold hasStaleLink
  rw [hresolve]
  dsimp only
  rw [Path.scratch?_path worker (List.forall_mem_cons.mpr ⟨hname, hdirectory.isName⟩)]
  dsimp only
  constructor
  · intro h
    split at h
    · next location link hlocate =>
      obtain ⟨-, hfits⟩ := locate_scratch hdirectory hname hlocate
      refine ⟨hfits, ?_⟩
      rw [hfits disk hdirectory, arrive_false] at hlocate
      cases hnode : disk.node? (worker.scratch name :: directory) with
      | none => rw [hnode] at hlocate; cases hlocate
      | some node =>
        rw [hnode] at hlocate
        cases hlocate
        exact ⟨link, rfl⟩
    · cases h
  · rintro ⟨hfits, link, hlink⟩
    rw [hfits disk hdirectory, arrive_false, hlink]

theorem Replaced.plain_of_clear (hname : IsName name) (hdirectory : disk.HasDirectory directory)
    (hresolve : disk.resolve path = .ok (Location.path (name :: directory)))
    (hfits : worker.Fits name directory)
    (hreplaced : Replaced disk after (name :: directory) (worker.scratch name :: directory) mode
      bytes)
    (hstale : disk.hasStaleLink worker path = false) :
    disk.HasRoom (worker.scratch name :: directory) ∧ ∀ x, after.node? x =
      if x = name :: directory then some (.file mode bytes)
      else if x = worker.scratch name :: directory then none else disk.node? x := by
  rcases hreplaced with ⟨hroom, hafter⟩ | ⟨link, place, hlink, -, -, -⟩
  · exact ⟨hroom, hafter⟩
  · have hlinked := (hasStaleLink_iff hname hdirectory hresolve).mpr ⟨hfits, link, hlink⟩
    exact absurd (hstale.symm.trans hlinked) Bool.false_ne_true

end Replace

/-- **A path is read as what was written to it.** -/
structure Written (disk after : Disk) (worker : Worker) (path : Path) (bytes : ByteArray) :
    Prop where
  sound : after.Sound
  /-- It is never read as anything else. -/
  contents : ∀ contents, after.read path = .ok contents → contents = bytes
  /-- It can be read, unless a symbolic link stood under the temporary name. -/
  readable : disk.hasStaleLink worker path = false → after.read path = .ok bytes
  /-- No such links come up for other workers. -/
  fresh : disk.hasStaleLink worker path = false → ∀ other, disk.hasStaleLink other path = false →
    after.hasStaleLink other path = false

theorem written_of_replace (hsound : disk.Sound) {old : ByteArray}
    (hread : disk.read path = .ok old)
    (h : ((replace worker path bytes).run disk).value = .ok ()) :
    Written disk ((replace worker path bytes).run disk).disk worker path bytes := by
  obtain ⟨location, mode, hlocate, hmay⟩ := read_ok hread
  obtain ⟨hnode, name, directory, rfl, hname, hdirectory⟩ := isEntry_of_locate hsound hlocate
  obtain ⟨hresolve, hfits, hreplaced⟩ := replaced_of_replace hname hdirectory hlocate hnode h
  have huser := run_user (replace worker path bytes) disk
  generalize ((replace worker path bytes).run disk).disk = after at hreplaced huser ⊢
  have hworking : after.working = disk.working := congrArg User.working huser
  have hsame := hreplaced.directory_same ⟨mode, old, hnode⟩
  have hfile : disk.HasRoom (name :: directory) := Or.inr ⟨mode, old, hnode⟩
  have hstart := HasDirectory.origin hsound path.text.toList
  have hpieces : ∀ x ∈ Path.names path.text.toList, IsPiece x := fun x =>
    Path.isPiece_of_mem_names
  have hwalk := walk_of_locate hlocate
  have hfound : disk.hasStaleLink worker path = false →
      after.locate true path = .ok (.found (name :: directory) (.file mode bytes)) := by
    intro hstale
    obtain ⟨hroom, hafter⟩ := hreplaced.plain_of_clear hname hdirectory hresolve hfits hstale
    rw [locate_eq_walk hlocate hworking]
    exact walk_plain hroom hafter hfile hstart hpieces hwalk
  constructor
  · unfold Sound
    rw [hworking]
    exact hsound.mono hsame
  · intro contents hcontents
    obtain ⟨found, mode', hfound, -⟩ := read_ok hcontents
    rw [locate_eq_walk hlocate hworking] at hfound
    exact hreplaced.contents hdirectory (worker.scratch_ne name) hfile hstart hpieces hwalk hfound
  · intro hstale
    exact read_of_locate (hfound hstale) (by rwa [mayRead_of_user huser])
  · intro hstale other hother
    obtain ⟨-, hafter⟩ := hreplaced.plain_of_clear hname hdirectory hresolve hfits hstale
    have hresolve' : after.resolve path = .ok (Location.path (name :: directory)) := by
      rw [resolve_of_locate (hfound hstale), ← resolve_of_locate hlocate, hresolve]
    rw [Bool.eq_false_iff, Ne, hasStaleLink_iff hname hdirectory hresolve] at hother
    rw [Bool.eq_false_iff, Ne, hasStaleLink_iff hname (hdirectory.mono hsame) hresolve']
    rintro ⟨hfits', link, hlink⟩
    refine hother ⟨hfits', link, ?_⟩
    rw [hafter] at hlink
    split_ifs at hlink
    · cases hlink
    · exact hlink

end BenchLedger.Disk
