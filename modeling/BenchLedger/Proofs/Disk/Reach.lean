import BenchLedger.Proofs.Disk.Replace

/-! # The entry that a path stands for

A walk whose last name is a proper one comes to the entry of that name, which may be a link
(`Reaches`, `reaches_of_walk`); from there it goes on if it is to follow links (`Reaches.walk`).

A file that is put somewhere is either where a walk ends or not on its way at all (`walk_of_put`);
put over a link that leads nowhere, it is found where the link was (`Reaches.put`). -/

namespace BenchLedger.Disk

variable {disk : Disk} {follow : Bool} {links more left : ℕ} {name : String} {names : List String}
  {directory location here : Location} {place : Place} {mode : Mode} {bytes : ByteArray}
  {link : String}

/-! ### One more name -/

theorem arrive_on (hmore : names ≠ []) (h : disk.arrive follow links here names = .ok place) :
    (∃ mode, disk.node? here = some (.directory mode) ∧
      disk.walk follow links here names = .ok place) ∨
    ∃ link fewer, disk.node? here = some (.link link) ∧ links = fewer + 1 ∧
      disk.walk follow fewer (origin here.tail link.toList) (Path.names link.toList ++ names) =
        .ok place := by
  unfold arrive at h
  split at h
  · rw [if_neg hmore] at h
    cases h
  · next mode hnode =>
    rw [if_neg hmore] at h
    exact Or.inl ⟨mode, hnode, h⟩
  · rw [if_neg hmore] at h
    cases h
  · next link hnode =>
    rw [if_neg fun hno => hmore hno.1] at h
    cases links with
    | zero => cases h
    | succ fewer => exact Or.inr ⟨link, fewer, hnode, rfl, h⟩

theorem arrive_directory (hnode : disk.node? here = some (.directory mode)) (hmore : names ≠ []) :
    disk.arrive follow links here names = disk.walk follow links here names := by
  rw [arrive, hnode]
  exact if_neg hmore

theorem arrive_link (hnode : disk.node? here = some (.link link))
    (hfollow : names ≠ [] ∨ follow = true) :
    disk.arrive follow (links + 1) here names =
      disk.walk follow links (origin here.tail link.toList) (Path.names link.toList ++ names) := by
  rw [arrive, hnode]
  refine if_neg ?_
  rintro ⟨hend, hstay⟩
  rcases hfollow with hmore | hfollow
  · exact hmore hend
  · rw [hfollow] at hstay
    cases hstay

theorem isPiece_of_link (hnames : ∀ x ∈ names, IsPiece x) (link : String) :
    ∀ x ∈ Path.names link.toList ++ names, IsPiece x := by
  intro x hx
  rcases List.mem_append.mp hx with hx | hx
  · exact Path.isPiece_of_mem_names hx
  · exact hnames x hx

theorem getLast?_of_cons {first last : String} (hne : names ≠ [])
    (h : (first :: names).getLast? = some last) : names.getLast? = some last := by
  obtain ⟨next, names, rfl⟩ := List.exists_cons_of_ne_nil hne
  rwa [List.getLast?_cons_cons] at h

theorem getLast?_append_names {last : String} (h : names.getLast? = some last)
    (before : List String) : (before ++ names).getLast? = some last := by
  rw [List.getLast?_append, h]
  rfl

/-! ### To the last name -/

/-- **A walk comes to the entry of its last name**, with some links left to spare. -/
inductive Reaches (disk : Disk) (here : Location) (left : ℕ) :
    ℕ → Location → List String → Prop where
  | last {name : String} {directory : Location} (isName : IsName name)
    (entry : name :: directory = here) : Reaches disk here left left directory [name]
  | point {links : ℕ} {directory : Location} {names : List String}
    (rest : Reaches disk here left links directory names) :
    Reaches disk here left links directory ("." :: names)
  | points {links : ℕ} {directory : Location} {names : List String}
    (rest : Reaches disk here left links directory.tail names) :
    Reaches disk here left links directory (".." :: names)
  | directory {links : ℕ} {name : String} {directory : Location} {names : List String} {mode : Mode}
    (isName : IsName name) (more : names ≠ [])
    (node : disk.node? (name :: directory) = some (.directory mode))
    (rest : Reaches disk here left links (name :: directory) names) :
    Reaches disk here left links directory (name :: names)
  | link {links : ℕ} {name : String} {directory : Location} {names : List String} {target : String}
    (isName : IsName name) (more : names ≠ [])
    (node : disk.node? (name :: directory) = some (.link target))
    (rest : Reaches disk here left links (origin directory target.toList)
      (Path.names target.toList ++ names)) :
    Reaches disk here left (links + 1) directory (name :: names)

/-- A walk that does not follow the last link comes to the entry of the last name. -/
theorem reaches_of_walk (h : disk.walk false links directory names = .ok place)
    (hnames : ∀ x ∈ names, IsPiece x) (hlast : names.getLast? = some name) (hpoint : name ≠ ".")
    (hpoints : name ≠ "..") : ∃ left, disk.Reaches place.location left links directory names := by
  induction links, directory, names using walk_induct with
  | nil links directory => cases hlast
  | cons links directory first names ihnames ihlinks =>
    rw [List.forall_mem_cons] at hnames
    rw [walk_cons] at h
    by_cases hend : names = []
    · subst hend
      obtain rfl : first = name := Option.some.inj hlast
      rw [if_neg hpoint, if_neg hpoints] at h
      split_ifs at h with hlong
      have hname : IsName first := ⟨hnames.1, hpoint, hpoints, Nat.not_lt.mp hlong⟩
      rw [arrive_false] at h
      refine ⟨links, .last hname ?_⟩
      rw [← Except.ok.inj h]
      cases disk.node? (first :: directory) <;> rfl
    have hlast' := getLast?_of_cons hend hlast
    split_ifs at h with hfirst hfirst' hlong
    · obtain ⟨left, hrest⟩ := ihnames _ h hnames.2 hlast'
      exact ⟨left, hfirst ▸ .point hrest⟩
    · obtain ⟨left, hrest⟩ := ihnames _ h hnames.2 hlast'
      exact ⟨left, hfirst' ▸ .points hrest⟩
    have hname : IsName first := ⟨hnames.1, hfirst, hfirst', Nat.not_lt.mp hlong⟩
    rcases arrive_on hend h with ⟨mode, hnode, hwalk⟩ | ⟨target, fewer, hnode, rfl, hwalk⟩
    · obtain ⟨left, hrest⟩ := ihnames _ hwalk hnames.2 hlast'
      exact ⟨left, .directory hname hend hnode hrest⟩
    · obtain ⟨left, hrest⟩ := ihlinks fewer _ _ (Nat.lt_succ_self fewer) hwalk
        (isPiece_of_link hnames.2 target) (getLast?_append_names hlast' _)
      exact ⟨left, .link hname hend hnode hrest⟩

namespace Reaches

/-- **From the entry the walk goes on**, whether it is to follow links or not. -/
theorem walk (h : disk.Reaches here left links directory names) (follow : Bool) :
    disk.walk follow links directory names = disk.arrive follow left here [] := by
  induction h with
  | last isName entry => rw [walk_name isName, entry]
  | point rest ih => rw [walk_cons, if_pos rfl, ih]
  | points rest ih => rw [walk_cons, if_neg (by decide), if_pos rfl, ih]
  | directory isName more node rest ih => rw [walk_name isName, arrive_directory node more, ih]
  | link isName more node rest ih =>
    rw [walk_name isName, arrive_link node (Or.inl more), List.tail_cons, ih]

theorem entry (h : disk.Reaches here left links directory names) :
    ∃ name parent, names.getLast? = some name ∧ here = name :: parent := by
  have hcons : ∀ {first : String} {names : List String},
      (∃ name parent, names.getLast? = some name ∧ here = name :: parent) →
        ∃ name parent, (first :: names).getLast? = some name ∧ here = name :: parent := by
    rintro first names ⟨name, parent, hlast, hhere⟩
    exact ⟨name, parent, getLast?_append_names hlast [first], hhere⟩
  induction h with
  | last isName entry => exact ⟨_, _, rfl, entry.symm⟩
  | point rest ih => exact hcons ih
  | points rest ih => exact hcons ih
  | directory isName more node rest ih => exact hcons ih
  | @link _ _ _ names target _ more _ _ ih =>
    obtain ⟨name, parent, hlast, hhere⟩ := ih
    obtain ⟨last, hmore⟩ := Option.isSome_iff_exists.mp (List.getLast?_isSome.mpr more)
    rw [getLast?_append_names hmore] at hlast
    exact hcons ⟨name, parent, hmore.trans hlast, hhere⟩

end Reaches

namespace Reaches

theorem left_le (h : disk.Reaches here left links directory names) : left ≤ links := by
  induction h with
  | last isName entry => exact Nat.le_refl left
  | point rest ih => exact ih
  | points rest ih => exact ih
  | directory isName more node rest ih => exact ih
  | link isName more node rest ih => exact Nat.le_succ_of_le ih

theorem of_put (hne : location ≠ [])
    (h : (disk.put location (.file mode bytes)).Reaches here left links directory names) :
    disk.Reaches here left links directory names := by
  have hnode : ∀ {x : Location} {node : Node},
      (disk.put location (.file mode bytes)).node? x = some node →
        (∀ mode bytes, node ≠ .file mode bytes) → disk.node? x = some node := by
    intro x node hx hfile
    rw [node?_put_eq hne] at hx
    split_ifs at hx
    · exact absurd (Option.some.inj hx).symm (hfile mode bytes)
    · exact hx
  induction h with
  | last isName entry => exact .last isName entry
  | point rest ih => exact .point ih
  | points rest ih => exact .points ih
  | directory isName more node rest ih =>
    exact .directory isName more (hnode node fun _ _ => nofun) ih
  | link isName more node rest ih => exact .link isName more (hnode node fun _ _ => nofun) ih

end Reaches

theorem walk_point (hdirectory : disk.HasDirectory directory) (hnames : ∀ x ∈ names, IsPiece x)
    (h : disk.walk follow links directory names = .ok place) (hlast : names.getLast? = some ".") :
    ∃ location mode, place = .found location (.directory mode) := by
  induction links, directory, names using walk_induct with
  | nil links directory => cases hlast
  | cons links directory first names ihnames ihlinks =>
    rw [List.forall_mem_cons] at hnames
    by_cases hend : names = []
    · subst hend
      obtain rfl : first = "." := Option.some.inj hlast
      obtain ⟨mode, hnode⟩ := hdirectory.node?
      rw [walk_cons, if_pos rfl, walk_nil, hnode] at h
      exact ⟨directory, mode, (Except.ok.inj h).symm⟩
    have hlast' := getLast?_of_cons hend hlast
    rw [walk_cons] at h
    split_ifs at h with hpoint hpoints hlong
    · exact ihnames _ hdirectory hnames.2 h hlast'
    · exact ihnames _ hdirectory.tail hnames.2 h hlast'
    have hname : IsName first := ⟨hnames.1, hpoint, hpoints, Nat.not_lt.mp hlong⟩
    rcases arrive_on hend h with ⟨mode, hnode, hwalk⟩ | ⟨target, fewer, -, rfl, hwalk⟩
    · exact ihnames (first :: directory) ⟨hname, ⟨mode, hnode⟩, hdirectory⟩ hnames.2 hwalk hlast'
    · exact ihlinks fewer _ _ (Nat.lt_succ_self fewer) (hdirectory.origin _)
        (isPiece_of_link hnames.2 target) hwalk (getLast?_append_names hlast' _)

theorem walk_ne_link (hdirectory : disk.HasDirectory directory) (hnames : ∀ x ∈ names, IsPiece x) :
    disk.walk true links directory names ≠ .ok (.found location (.link link)) := by
  intro h
  induction links, directory, names using walk_induct with
  | nil links directory =>
    obtain ⟨mode, hnode⟩ := hdirectory.node?
    rw [walk_nil, hnode] at h
    cases h
  | cons links directory name names ihnames ihlinks =>
    rw [List.forall_mem_cons] at hnames
    rw [walk_cons] at h
    split_ifs at h with hpoint hpoints hlong
    · exact ihnames _ hdirectory hnames.2 h
    · exact ihnames _ hdirectory.tail hnames.2 h
    have hname : IsName name := ⟨hnames.1, hpoint, hpoints, Nat.not_lt.mp hlong⟩
    unfold arrive at h
    split at h
    · split_ifs at h
      cases h
    · next mode hnode =>
      split_ifs at h
      · cases h
      · exact ihnames (name :: directory) ⟨hname, ⟨mode, hnode⟩, hdirectory⟩ hnames.2 h
    · split_ifs at h
      cases h
    · next target hnode =>
      rw [if_neg fun hno => Bool.noConfusion hno.2] at h
      cases links with
      | zero => cases h
      | succ fewer =>
        exact ihlinks fewer _ _ (Nat.lt_succ_self fewer) (hdirectory.origin _)
          (isPiece_of_link hnames.2 target) h

/-! ### Files that are put -/

/-- **A walk that does not end at a file that was put never came by it.** -/
theorem walk_of_put (hne : location ≠ [])
    (h : (disk.put location (.file mode bytes)).walk follow links directory names = .ok place)
    (helse : place.location ≠ location) :
    disk.walk follow links directory names = .ok place := by
  have hother : ∀ x, x ≠ location → (disk.put location (.file mode bytes)).node? x =
      disk.node? x := fun x hx => node?_put_of_ne disk (Ne.symm hx) _
  induction links, directory, names using walk_induct with
  | nil links directory =>
    rw [walk_nil] at h ⊢
    obtain rfl := Except.ok.inj h
    rw [hother directory helse]
  | cons links directory name names ihnames ihlinks =>
    rw [walk_cons] at h ⊢
    split_ifs at h ⊢
    · exact ihnames _ h
    · exact ihnames _ h
    by_cases hhere : name :: directory = location
    · rw [arrive, hhere, node?_put disk hne] at h
      dsimp only at h
      split_ifs at h
      exact absurd (congrArg Place.location (Except.ok.inj h)).symm helse
    · rw [arrive, hother _ hhere] at h
      rw [arrive]
      cases hnode : disk.node? (name :: directory) with
      | none => rwa [hnode] at h
      | some node =>
        rw [hnode] at h
        cases node with
        | file mode bytes => exact h
        | directory mode =>
          dsimp only at h ⊢
          split_ifs at h ⊢
          · exact h
          · exact ihnames _ h
        | link target =>
          dsimp only at h ⊢
          split_ifs at h ⊢
          · exact h
          · cases links with
            | zero => cases h
            | succ fewer => exact ihlinks fewer _ _ (Nat.lt_succ_self fewer) h

/-! ### Links that lead nowhere -/

theorem walk_of_le {result : Except Fault Place}
    (h : disk.walk follow links directory names = result) (hloop : result ≠ .error .linkLoop)
    (hle : links ≤ more) : disk.walk follow more directory names = result := by
  induction links, directory, names using walk_induct generalizing more with
  | nil links directory => rwa [walk_nil] at h ⊢
  | cons links directory name names ihnames ihlinks =>
    rw [walk_cons] at h ⊢
    split_ifs at h ⊢
    · exact ihnames _ h hle
    · exact ihnames _ h hle
    · exact h
    rw [arrive] at h ⊢
    cases hnode : disk.node? (name :: directory) with
    | none => rwa [hnode] at h
    | some node =>
      rw [hnode] at h
      cases node with
      | file mode bytes => exact h
      | directory mode =>
        dsimp only at h ⊢
        split_ifs at h ⊢
        · exact h
        · exact ihnames _ h hle
      | link target =>
        dsimp only at h ⊢
        split_ifs at h ⊢
        · exact h
        · cases links with
          | zero => exact absurd h.symm hloop
          | succ fewer =>
            cases more with
            | zero => cases hle
            | succ more =>
              exact ihlinks fewer _ _ (Nat.lt_succ_self fewer) h (Nat.le_of_succ_le_succ hle)

/-- A link leads nowhere. -/
def Dangling (disk : Disk) (location : Location) (link : String) : Prop :=
  ∀ links found node, disk.walk true links (origin location.tail link.toList)
    (Path.names link.toList) ≠ .ok (.found found node)

theorem exists_walk_of_append {after : List String} (hafter : after ≠ [])
    (h : disk.Reaches here left links directory (names ++ after)) :
    ∃ location node, disk.walk true links directory names = .ok (.found location node) := by
  induction links, directory, names using walk_induct with
  | nil links directory => exact ⟨_, _, walk_nil disk true links directory⟩
  | cons links directory name names ihnames ihlinks =>
    have hmore : names ++ after ≠ [] := List.append_ne_nil_of_right_ne_nil _ hafter
    rw [List.cons_append] at h
    generalize hall : names ++ after = all at h hmore
    cases h with
    | last isName entry => exact absurd rfl hmore
    | point rest =>
      rw [walk_cons, if_pos rfl]
      exact ihnames _ (hall ▸ rest)
    | points rest =>
      rw [walk_cons, if_neg (by decide), if_pos rfl]
      exact ihnames _ (hall ▸ rest)
    | directory isName more node rest =>
      rw [walk_name isName]
      by_cases hend : names = []
      · exact ⟨_, _, by rw [arrive, node]; exact if_pos hend⟩
      · rw [arrive_directory node hend]
        exact ihnames _ (hall ▸ rest)
    | @link fewer _ _ _ target isName more node rest =>
      rw [walk_name isName, arrive_link node (Or.inr rfl)]
      rw [← hall, ← List.append_assoc] at rest
      exact ihlinks fewer _ _ (Nat.lt_succ_self fewer) rest

namespace Reaches

/-- **A link is dangling** if the walk that follows it finds nothing. -/
theorem dangling (h : disk.Reaches location left links directory names)
    (hlink : disk.node? location = some (.link link)) {result : Except Fault Place}
    (hwalk : disk.walk true links directory names = result) (hloop : result ≠ .error .linkLoop)
    (hgone : ∀ found node, result ≠ .ok (.found found node)) : disk.Dangling location link := by
  rw [h.walk true] at hwalk
  cases left with
  | zero =>
    rw [arrive, hlink] at hwalk
    exact absurd hwalk.symm hloop
  | succ left =>
    rw [arrive_link hlink (Or.inr rfl), List.append_nil] at hwalk
    intro links' found node hfound
    rcases Nat.le_total links' left with hle | hle
    · have hsame := walk_of_le hfound (by simp) hle
      exact hgone found node (hwalk.symm.trans hsame)
    · have hsame := walk_of_le hwalk hloop hle
      exact hgone found node (hsame.symm.trans hfound)

/-- **A file put over a dangling link** is reached as the link was: no walk to the link can have
passed it before. -/
theorem put (h : disk.Reaches location left links directory names)
    (hlink : disk.node? location = some (.link link)) (hdangling : disk.Dangling location link)
    (mode : Mode) (bytes : ByteArray) :
    (disk.put location (.file mode bytes)).Reaches location left links directory names := by
  have hother : ∀ x, x ≠ location → (disk.put location (.file mode bytes)).node? x =
      disk.node? x := fun x hx => node?_put_of_ne disk (Ne.symm hx) _
  induction h with
  | last isName entry => exact .last isName entry
  | point rest ih => exact .point ih
  | points rest ih => exact .points ih
  | directory isName more node rest ih =>
    refine .directory isName more ((hother _ ?_).trans node) ih
    rintro heq
    rw [heq, hlink] at node
    cases node
  | link isName more node rest ih =>
    refine .link isName more ((hother _ ?_).trans node) ih
    rintro rfl
    obtain rfl : link = _ := Node.link.inj (Option.some.inj (hlink.symm.trans node))
    obtain ⟨found, node, hfound⟩ := exists_walk_of_append more rest
    exact hdangling _ found node hfound

end Reaches

end BenchLedger.Disk
