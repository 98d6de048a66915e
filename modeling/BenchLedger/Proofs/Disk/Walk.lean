import BenchLedger.Proofs.Disk.Names

/-! # Where paths lead

A walk takes one name at a time (`walk_cons`); what it does at an entry is `arrive`. From a
directory that is really there, it stays among entries with proper names below such directories
(`walk_place`), and the path of an entry leads to the entry (`locate_path`).

Two disks that differ in a few places lead a walk the same way up to the first of these places
(`walk_agree`). If none of them is a directory or a link on the first disk, a walk that ends there
on the one ends there on the other. -/

namespace BenchLedger.Disk

variable {disk disk' : Disk} {follow : Bool} {links : ℕ} {name : String} {names : List String}
  {directory : Location}

/-! ### One name at a time -/

/-- What a walk does at an entry, with names left. -/
def arrive (disk : Disk) (follow : Bool) (links : ℕ) (location : Location) (names : List String) :
    Except Fault Place :=
  match disk.node? location with
  | none => if names = [] then .ok (.vacant location) else .error .notFound
  | some (.directory mode) =>
    if names = [] then .ok (.found location (.directory mode))
    else disk.walk follow links location names
  | some (.file mode bytes) =>
    if names = [] then .ok (.found location (.file mode bytes)) else .error .notDirectory
  | some (.link target) =>
    if names = [] ∧ follow = false then .ok (.found location (.link target))
    else match links with
      | 0 => .error .linkLoop
      | links + 1 =>
        disk.walk follow links (origin location.tail target.toList)
          (Path.names target.toList ++ names)

theorem walk_nil (disk : Disk) (follow : Bool) (links : ℕ) (directory : Location) :
    disk.walk follow links directory [] =
      .ok (.found directory ((disk.node? directory).getD (.directory Node.directoryMode))) := by
  cases links <;> rfl

theorem walk_cons (disk : Disk) (follow : Bool) (links : ℕ) (directory : Location) (name : String)
    (names : List String) :
    disk.walk follow links directory (name :: names) =
      if name = "." then disk.walk follow links directory names
      else if name = ".." then disk.walk follow links directory.tail names
      else if maxName < name.utf8ByteSize then .error .nameTooLong
      else disk.arrive follow links (name :: directory) names := by
  rw [walk.eq_def, advance]
  by_cases hpoint : name = "."
  · rw [if_pos hpoint, if_pos hpoint, walk.eq_def]
  by_cases hpoints : name = ".."
  · rw [if_neg hpoint, if_pos hpoints, if_neg hpoint, if_pos hpoints, walk.eq_def]
  by_cases hlong : maxName < name.utf8ByteSize
  · rw [if_neg hpoint, if_neg hpoints, if_pos hlong, if_neg hpoint, if_neg hpoints, if_pos hlong]
  rw [if_neg hpoint, if_neg hpoints, if_neg hlong, if_neg hpoint, if_neg hpoints, if_neg hlong]
  unfold arrive
  dsimp only
  rcases disk.node? (name :: directory) with _ | ⟨mode, bytes⟩ | ⟨mode⟩ | ⟨target⟩
  · dsimp only; split_ifs <;> rfl
  · dsimp only; split_ifs <;> rfl
  · dsimp only
    split_ifs
    · rfl
    · rw [walk.eq_def]
  · dsimp only; split_ifs <;> rfl

theorem walk_induct {motive : ℕ → Location → List String → Prop}
    (nil : ∀ links directory, motive links directory [])
    (cons : ∀ links directory name names, (∀ directory', motive links directory' names) →
      (∀ fewer directory' names', fewer < links → motive fewer directory' names') →
        motive links directory (name :: names))
    (links : ℕ) (directory : Location) (names : List String) : motive links directory names := by
  induction links using Nat.strongRecOn generalizing directory names with
  | ind links ihlinks =>
    induction names generalizing directory with
    | nil => exact nil links directory
    | cons name names ihnames =>
      exact cons links directory name names ihnames fun fewer directory' names' hlt =>
        ihlinks fewer hlt directory' names'

/-! ### Directories that are there -/

/-- The location is one of a directory, with directories above it up to the root, all under proper
names. -/
def HasDirectory (disk : Disk) : Location → Prop
  | [] => True
  | name :: directory => IsName name ∧
      (∃ mode, disk.node? (name :: directory) = some (.directory mode)) ∧
      disk.HasDirectory directory

/-- The location is in a directory that is there, under a proper name. -/
def IsEntry (disk : Disk) (location : Location) : Prop :=
  ∃ name directory, location = name :: directory ∧ IsName name ∧ disk.HasDirectory directory

namespace HasDirectory

theorem tail (h : disk.HasDirectory directory) : disk.HasDirectory directory.tail := by
  cases directory with
  | nil => exact h
  | cons name directory => exact h.2.2

theorem node? (h : disk.HasDirectory directory) :
    ∃ mode, disk.node? directory = some (.directory mode) := by
  cases directory with
  | nil => exact ⟨Node.directoryMode, by rw [Disk.node?, if_pos rfl]⟩
  | cons name directory => exact h.2.1

theorem isName (h : disk.HasDirectory directory) : ∀ x ∈ directory, IsName x := by
  induction directory with
  | nil => simp
  | cons name directory ih => exact List.forall_mem_cons.mpr ⟨h.1, ih h.2.2⟩

theorem origin (h : disk.HasDirectory directory) (text : List Char) :
    disk.HasDirectory (origin directory text) := by
  unfold Disk.origin
  split_ifs
  · trivial
  · exact h

theorem mono (h : disk.HasDirectory directory)
    (hsame : ∀ x mode, disk.node? x = some (.directory mode) → disk'.node? x = disk.node? x) :
    disk'.HasDirectory directory := by
  induction directory with
  | nil => trivial
  | cons name directory ih =>
    obtain ⟨hname, ⟨mode, hnode⟩, hdirectory⟩ := h
    exact ⟨hname, ⟨mode, (hsame _ mode hnode).trans hnode⟩, ih hdirectory⟩

end HasDirectory

theorem walk_name (h : IsName name) (names : List String) :
    disk.walk follow links directory (name :: names) =
      disk.arrive follow links (name :: directory) names := by
  rw [walk_cons, if_neg h.ne_point, if_neg h.ne_points, if_neg (Nat.not_lt.mpr h.short)]

theorem arrive_false (disk : Disk) (links : ℕ) (location : Location) :
    disk.arrive false links location [] = .ok (match disk.node? location with
      | none => .vacant location
      | some node => .found location node) := by
  unfold arrive
  rcases disk.node? location with _ | ⟨mode, bytes⟩ | ⟨mode⟩ | ⟨target⟩ <;> simp

/-- Where a place is. -/
def Place.location : Place → Location
  | .found location _ => location
  | .vacant location => location

/-- What is at a place. -/
def Place.node? : Place → Option Node
  | .found _ node => some node
  | .vacant _ => none

/-- **A walk from a directory ends in a directory or at an entry.** -/
theorem walk_place {place : Place} (hdirectory : disk.HasDirectory directory)
    (hnames : ∀ x ∈ names, IsPiece x) (h : disk.walk follow links directory names = .ok place) :
    disk.node? place.location = place.node? ∧
      (disk.HasDirectory place.location ∨ disk.IsEntry place.location) := by
  induction links, directory, names using walk_induct with
  | nil links directory =>
    rw [walk_nil] at h
    obtain rfl := Except.ok.inj h
    obtain ⟨mode, hnode⟩ := hdirectory.node?
    exact ⟨by simp [Place.location, Place.node?, hnode], Or.inl hdirectory⟩
  | cons links directory name names ihnames ihlinks =>
    rw [List.forall_mem_cons] at hnames
    rw [walk_cons] at h
    split_ifs at h with hpoint hpoints hlong
    · exact ihnames directory hdirectory hnames.2 h
    · exact ihnames directory.tail hdirectory.tail hnames.2 h
    have hname : IsName name := ⟨hnames.1, hpoint, hpoints, Nat.not_lt.mp hlong⟩
    have hentry : disk.IsEntry (name :: directory) := ⟨name, directory, rfl, hname, hdirectory⟩
    unfold arrive at h
    split at h
    · next hnode =>
      split_ifs at h
      obtain rfl := Except.ok.inj h
      exact ⟨hnode, Or.inr hentry⟩
    · next mode hnode =>
      split_ifs at h
      · obtain rfl := Except.ok.inj h
        exact ⟨hnode, Or.inr hentry⟩
      · exact ihnames (name :: directory) ⟨hname, ⟨mode, hnode⟩, hdirectory⟩ hnames.2 h
    · next mode bytes hnode =>
      split_ifs at h
      obtain rfl := Except.ok.inj h
      exact ⟨hnode, Or.inr hentry⟩
    · next target hnode =>
      split_ifs at h
      · obtain rfl := Except.ok.inj h
        exact ⟨hnode, Or.inr hentry⟩
      · cases links with
        | zero => cases h
        | succ links =>
          refine ihlinks links _ _ (Nat.lt_succ_self _) (hdirectory.origin _) ?_ h
          intro x hx
          rcases List.mem_append.mp hx with hx | hx
          · exact Path.isPiece_of_mem_names hx
          · exact hnames.2 x hx

/-! ### The path of an entry -/

theorem walk_reverse_append (h : disk.HasDirectory directory) (hne : names ≠ []) :
    disk.walk follow links [] (directory.reverse ++ names) =
      disk.walk follow links directory names := by
  induction directory generalizing names with
  | nil => rfl
  | cons name directory ih =>
    obtain ⟨hname, ⟨mode, hnode⟩, hdirectory⟩ := h
    rw [List.reverse_cons, List.append_assoc, List.singleton_append,
      ih hdirectory (List.cons_ne_nil _ _), walk_name hname]
    unfold arrive
    rw [hnode]
    dsimp only
    rw [if_neg hne]

/-- **The path of an entry leads to the entry**, unless it cannot be looked up. -/
theorem locate_path (hdirectory : disk.HasDirectory directory) (hpiece : IsPiece name) {path : Path}
    (hpath : path = Location.path (name :: directory)) :
    disk.locate follow path =
      if '\x00' ∈ path.text.toList then .error .nulInPath
      else if maxPath ≤ path.text.utf8ByteSize then .error .nameTooLong
      else disk.walk follow maxLinks directory [name] := by
  have hpieces : ∀ x ∈ name :: directory, IsPiece x :=
    List.forall_mem_cons.mpr ⟨hpiece, fun x hx => (hdirectory.isName x hx).piece⟩
  have hhead : path.text.toList.head? = some '/' := by rw [hpath, Location.head?_path]
  have hne : path.text ≠ "" := by
    intro hempty
    rw [hempty] at hhead
    cases hhead
  have hnames : Path.names path.text.toList = (name :: directory).reverse := by
    rw [hpath, Location.names_path hpieces]
  unfold locate seek
  by_cases hnul : '\x00' ∈ path.text.toList
  · rw [if_neg (fun h => h.1 hnul), if_pos hnul, if_pos hnul]
  · by_cases hlong : maxPath ≤ path.text.utf8ByteSize
    · rw [if_pos ⟨hnul, hlong⟩, if_neg hnul, if_pos hlong]
    · rw [if_neg (fun h => hlong h.2), if_neg hnul, if_neg hne, if_neg hnul, if_neg hlong, hnames,
        origin, if_pos hhead, List.reverse_cons, walk_reverse_append hdirectory (by simp)]

/-! ### Two disks -/

section Agree

variable {changed : List Location}

/-- **Disks lead a walk the same way up to the first place where they differ.** A walk that succeeds
on the first disk comes to its end on the second also, whatever is there now, unless it runs out of
links or comes to a link that was changed. -/
theorem walk_agree (hsame : ∀ x, x ∉ changed → disk'.node? x = disk.node? x)
    (hkept : ∀ x ∈ changed, ∀ mode, disk.node? x ≠ some (.directory mode)) {place : Place}
    (hdirectory : disk.HasDirectory directory) (hnames : ∀ x ∈ names, IsPiece x)
    (h : disk.walk true links directory names = .ok place) (links' : ℕ) :
    (∃ k ≤ links', disk'.walk true links' directory names =
      disk'.arrive true k place.location []) ∨
    (links' < links ∧ disk'.walk true links' directory names = .error .linkLoop) ∨
    ∃ x ∈ changed, (∃ target, disk.node? x = some (.link target)) ∧
      ∃ k left, disk'.walk true links' directory names = disk'.arrive true k x left := by
  induction links', directory, names using walk_induct generalizing links with
  | nil links' directory =>
    rw [walk_nil] at h
    obtain rfl := Except.ok.inj h
    obtain ⟨mode, hnode⟩ := hdirectory.node?
    have hnode' : disk'.node? directory = some (.directory mode) := by
      rw [hsame directory fun hmem => hkept directory hmem mode hnode, hnode]
    refine Or.inl ⟨links', Nat.le_refl _, ?_⟩
    unfold arrive
    rw [walk_nil]
    simp [Place.location, hnode']
  | cons links' directory name names ihnames ihlinks =>
    rw [List.forall_mem_cons] at hnames
    rw [walk_cons] at h
    rw [walk_cons]
    split_ifs at h ⊢ with hpoint hpoints hlong
    · exact ihnames directory hdirectory hnames.2 h
    · exact ihnames directory.tail hdirectory.tail hnames.2 h
    have hname : IsName name := ⟨hnames.1, hpoint, hpoints, Nat.not_lt.mp hlong⟩
    rw [arrive] at h
    split at h
    · split_ifs at h with hlast
      obtain rfl := Except.ok.inj h
      exact Or.inl ⟨links', Nat.le_refl _, by rw [hlast]; rfl⟩
    · next mode hnode =>
      have hnode' : disk'.node? (name :: directory) = some (.directory mode) := by
        rw [hsame _ fun hmem => hkept _ hmem mode hnode, hnode]
      split_ifs at h with hlast
      · obtain rfl := Except.ok.inj h
        exact Or.inl ⟨links', Nat.le_refl _, by rw [hlast]; rfl⟩
      · have hnext := ihnames (name :: directory) ⟨hname, ⟨mode, hnode⟩, hdirectory⟩ hnames.2 h
        rw [arrive, hnode']
        dsimp only
        rwa [if_neg hlast]
    · split_ifs at h with hlast
      obtain rfl := Except.ok.inj h
      exact Or.inl ⟨links', Nat.le_refl _, by rw [hlast]; rfl⟩
    · next target hnode =>
      rw [if_neg (fun hno => Bool.noConfusion hno.2)] at h
      by_cases hmem : name :: directory ∈ changed
      · exact Or.inr (Or.inr ⟨name :: directory, hmem, ⟨target, hnode⟩, links', names, rfl⟩)
      rw [arrive, hsame _ hmem, hnode]
      dsimp only
      rw [if_neg (fun hno => Bool.noConfusion hno.2)]
      cases links with
      | zero => cases h
      | succ links =>
        cases links' with
        | zero => exact Or.inr (Or.inl ⟨Nat.succ_pos _, rfl⟩)
        | succ links' =>
          have hpieces : ∀ x ∈ Path.names target.toList ++ names, IsPiece x := by
            intro x hx
            rcases List.mem_append.mp hx with hx | hx
            · exact Path.isPiece_of_mem_names hx
            · exact hnames.2 x hx
          rcases ihlinks links' _ _ (Nat.lt_succ_self _) (hdirectory.origin _) hpieces h with
            ⟨k, hk, harrive⟩ | ⟨hlt, hloop⟩ | hlink
          · exact Or.inl ⟨k, Nat.le_succ_of_le hk, harrive⟩
          · exact Or.inr (Or.inl ⟨Nat.succ_lt_succ hlt, hloop⟩)
          · exact Or.inr (Or.inr hlink)

end Agree

end BenchLedger.Disk
