import BenchLedger.Proofs.Disk.Replace

/-! # Places where nothing is

A path that leads to no entry leads to what is put there (`locate_put_vacant`), and taking it away
again leaves the disk as it was (`erase_put`). So what a replacement writes under a temporary name
that was free is a single new file (`Scribbled`). -/

namespace BenchLedger.Disk

variable {disk after : Disk} {path scratch : Path} {bytes : ByteArray} {follow : Bool} {links : ℕ}
  {directory location : Location} {names : List String}

/-! ### Putting and taking away -/

theorem put_put (disk : Disk) (location : Location) (node node' : Node) :
    (disk.put location node).put location node' = disk.put location node' := by
  have hentries : ∀ entries : List (Location × Node), putInto location node'
      (putInto location node entries) = putInto location node' entries := by
    intro entries
    induction entries with
    | nil => simp [putInto]
    | cons entry entries ih =>
      by_cases he : entry.1 = location
      · simp [putInto, he]
      · simp [putInto, he, ih]
  simp [put, hentries]

/-- What was put where there was nothing can be taken away again. -/
theorem erase_put (h : disk.node? location = none) (node : Node) :
    (disk.put location node).erase location = disk := by
  have hentries : ∀ entries : List (Location × Node), firstAt location entries = none →
      (putInto location node entries).filter (fun entry => entry.1 ≠ location) = entries := by
    intro entries hnone
    induction entries with
    | nil => simp [putInto]
    | cons entry entries ih =>
      have he : entry.1 ≠ location := by
        intro he
        simp [firstAt, he] at hnone
      have hrest : firstAt location entries = none := by simpa [firstAt, he] using hnone
      simpa [putInto, he] using ih hrest
  have hfirst : firstAt location disk.entries = none := by
    unfold Disk.node? at h
    split_ifs at h
    exact h
  simp only [put, erase, hentries disk.entries hfirst]

/-! ### Paths that lead to no entry -/

theorem arrive_vacant {here : Location}
    (h : disk.arrive follow links here names = .ok (.vacant location)) :
    (disk.node? here = none ∧ names = [] ∧ here = location) ∨
    (∃ mode, disk.node? here = some (.directory mode) ∧ names ≠ [] ∧
      disk.walk follow links here names = .ok (.vacant location)) ∨
    ∃ link fewer, disk.node? here = some (.link link) ∧ ¬ (names = [] ∧ follow = false) ∧
      links = fewer + 1 ∧ disk.walk follow fewer (origin here.tail link.toList)
        (Path.names link.toList ++ names) = .ok (.vacant location) := by
  unfold arrive at h
  split at h
  · next hnode =>
    split_ifs at h with hlast
    cases h
    exact Or.inl ⟨hnode, hlast, rfl⟩
  · next mode hnode =>
    split_ifs at h with hlast
    · cases h
    · exact Or.inr (Or.inl ⟨mode, hnode, hlast, h⟩)
  · split_ifs at h
    cases h
  · next link hnode =>
    split_ifs at h with hlast
    · cases h
    · cases links with
      | zero => cases h
      | succ fewer => exact Or.inr (Or.inr ⟨link, fewer, hnode, hlast, rfl, h⟩)

theorem node?_of_walk_vacant (h : disk.walk follow links directory names = .ok (.vacant location)) :
    disk.node? location = none := by
  induction links, directory, names using walk_induct with
  | nil links directory =>
    rw [walk_nil] at h
    cases h
  | cons links directory name names ihnames ihlinks =>
    rw [walk_cons] at h
    split_ifs at h
    · exact ihnames _ h
    · exact ihnames _ h
    rcases arrive_vacant h with ⟨hnode, -, rfl⟩ | ⟨mode, -, -, hwalk⟩ |
      ⟨link, fewer, -, -, rfl, hwalk⟩
    · exact hnode
    · exact ihnames _ hwalk
    · exact ihlinks fewer _ _ (Nat.lt_succ_self fewer) hwalk

theorem walk_put_vacant (h : disk.walk follow links directory names = .ok (.vacant location))
    (mode : Mode) (bytes : ByteArray) :
    (disk.put location (.file mode bytes)).walk follow links directory names =
      .ok (.found location (.file mode bytes)) := by
  have hvacant := node?_of_walk_vacant h
  have hne : location ≠ [] := by
    rintro rfl
    simp [Disk.node?] at hvacant
  have hput : ∀ x, (disk.put location (.file mode bytes)).node? x =
      if x = location then some (.file mode bytes) else disk.node? x := node?_put_eq hne _
  have hother : ∀ x node, disk.node? x = some node →
      (disk.put location (.file mode bytes)).node? x = some node := by
    intro x node hx
    have hxne : x ≠ location := by
      rintro rfl
      simp [hvacant] at hx
    rw [hput, if_neg hxne, hx]
  induction links, directory, names using walk_induct with
  | nil links directory =>
    rw [walk_nil] at h
    cases h
  | cons links directory name names ihnames ihlinks =>
    rw [walk_cons] at h ⊢
    split_ifs at h ⊢
    · exact ihnames _ h
    · exact ihnames _ h
    unfold arrive
    rcases arrive_vacant h with ⟨hnode, hlast, hhere⟩ | ⟨mode', hnode, hlast, hwalk⟩ |
      ⟨link, fewer, hnode, hlast, rfl, hwalk⟩
    · simp [hput, hhere, hlast]
    · simp only [hother _ _ hnode, if_neg hlast]
      exact ihnames _ hwalk
    · simp only [hother _ _ hnode, if_neg hlast]
      exact ihlinks fewer _ _ (Nat.lt_succ_self fewer) hwalk

theorem walk_of_not_found
    (h : ∀ location node, disk.walk false links directory names ≠ .ok (.found location node)) :
    disk.walk true links directory names = disk.walk false links directory names := by
  induction links, directory, names using walk_induct with
  | nil links directory => exact absurd (walk_nil disk false links directory) (h _ _)
  | cons links directory name names ihnames ihlinks =>
    simp only [walk_cons] at h ⊢
    split_ifs at h ⊢
    · exact ihnames _ h
    · exact ihnames _ h
    · rfl
    rw [arrive, arrive]
    unfold arrive at h
    cases hnode : disk.node? (name :: directory) with
    | none => rfl
    | some node =>
      rw [hnode] at h
      cases node with
      | file mode bytes => rfl
      | directory mode =>
        dsimp only at h ⊢
        split_ifs at h ⊢
        · rfl
        · exact ihnames _ h
      | link link =>
        dsimp only at h ⊢
        by_cases hlast : names = []
        · simp [hlast] at h
        · simp only [hlast, false_and, if_false] at h ⊢
          cases links with
          | zero => rfl
          | succ fewer => exact ihlinks fewer _ _ (Nat.lt_succ_self fewer) h

theorem locate_put_vacant (h : disk.locate follow path = .ok (.vacant location)) (mode : Mode)
    (bytes : ByteArray) : (disk.put location (.file mode bytes)).locate follow path =
      .ok (.found location (.file mode bytes)) := by
  unfold locate seek at h ⊢
  split_ifs at h ⊢
  exact walk_put_vacant h mode bytes

theorem node?_of_locate_vacant (h : disk.locate follow path = .ok (.vacant location)) :
    disk.node? location = none := by
  unfold locate seek at h
  split_ifs at h
  exact node?_of_walk_vacant h

/-- No entry stands where the path leads, as far as its last name. -/
def NoEntry (disk : Disk) (path : Path) : Prop :=
  ∀ location node, disk.locate false path ≠ .ok (.found location node)

instance (disk : Disk) (path : Path) : Decidable (disk.NoEntry path) :=
  match h : disk.locate false path with
  | .ok (.found location node) => isFalse fun hno => hno location node h
  | .ok (.vacant _) => isTrue fun _ _ hfound => nomatch h.symm.trans hfound
  | .error _ => isTrue fun _ _ hfound => nomatch h.symm.trans hfound

theorem NoEntry.locate (h : disk.NoEntry path) :
    disk.locate true path = disk.locate false path := by
  unfold NoEntry at h
  unfold Disk.locate seek at h ⊢
  split_ifs at h ⊢
  · rfl
  · rfl
  · rfl
  · exact walk_of_not_found h

/-! ### Files written there -/

/-- The disk is as before, but for a file where the temporary path led to nothing. -/
def Scribbled (disk : Disk) (scratch : Path) (after : Disk) : Prop :=
  after = disk ∨ ∃ location mode bytes, disk.locate false scratch = .ok (.vacant location) ∧
    after = disk.put location (.file mode bytes)

theorem NoEntry.write (h : disk.NoEntry scratch) (hwrite : disk.write scratch bytes = .ok after) :
    ∃ location, disk.locate false scratch = .ok (.vacant location) ∧
      after = disk.put location (.file Node.fileMode bytes) := by
  obtain ⟨place, mode, hplace, hmode, rfl⟩ := write_ok hwrite
  rw [h.locate] at hplace
  cases place with
  | found location node => exact absurd hplace (h location node)
  | vacant location =>
    rcases hmode with ⟨-, rfl⟩ | ⟨old, hfile⟩
    · exact ⟨location, hplace, rfl⟩
    · cases hfile

theorem NoEntry.setMode {location : Location} {old mode : Mode} {ready : Disk}
    (h : disk.NoEntry scratch) (hvacant : disk.locate false scratch = .ok (.vacant location))
    (hready : (disk.put location (.file old bytes)).setMode scratch mode = .ok ready) :
    ready = disk.put location (.file mode bytes) := by
  have hplace := hvacant
  rw [← h.locate] at hplace
  rw [setMode_ok (locate_put_vacant hplace old bytes) hready, put_put]

end BenchLedger.Disk
