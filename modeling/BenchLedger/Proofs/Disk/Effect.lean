import BenchLedger.Proofs.Disk.Placement

/-! # The effect of a replacement

A replacement that succeeds makes one change: the file that its path leads to has the new contents,
or is a new one (`effect_of_replace`). Its text can be read back under the same path, with two
exceptions that a replacement does not mind. A path may be too long to be looked up at once, as a
replacement follows it name by name; and a file whose permission bits keep its owner from reading
keeps them.

* `read_of_seek`: what is read where a path leads to a file.
* `slashed`: paths of any length that lead to the same file. -/

namespace BenchLedger.Disk

variable {exposed : Request → Prop} {disk after : Disk} {worker : Worker} {path path' : Path}
  {bytes : ByteArray} {location : Location} {mode : Mode} {target : Path}

/-- What is read under a path that leads to a file with some permission bits. -/
def reading (disk : Disk) (path : Path) (mode : Mode) (bytes : ByteArray) :
    Except Fault ByteArray :=
  if maxPath ≤ path.text.utf8ByteSize then .error .nameTooLong
  else if disk.mayRead mode then .ok bytes
  else .error .denied

theorem read_of_seek (h : disk.seek true path = .ok (.found location (.file mode bytes))) :
    disk.read path = disk.reading path mode bytes := by
  rw [read, locate_of_seek h, reading]
  by_cases hlong : maxPath ≤ path.text.utf8ByteSize
  · rw [if_pos hlong, if_pos hlong]
  · rw [if_neg hlong, if_neg hlong]

/-- **A replacement that succeeds** puts a file with the text where its path leads, with all links
followed, or at the last name of the path if that leads nowhere. The permission bits of a file stay.
All else is as before; if the path led to a file, this includes all links. No temporary file is
left, and the text is read back, unless the path is too long or the permission bits forbid it. -/
theorem effect_of_replace {text : String} (hsound : disk.Sound)
    (hclean : disk.Untouched worker path)
    (h : (replace worker path text.toUTF8).Ends exposed disk after (.ok ())) :
    ∃ location mode, disk.destination? path = some location ∧
      mode = Node.inherited (disk.node? location) ∧
      after.node? location = some (.file mode text.toUTF8) ∧
      (∀ other, other ≠ location → after.node? other = disk.node? other) ∧
      (∀ target, disk.resolve path = .ok target → ∀ other link,
        disk.node? other = some (.link link) → after.node? other = some (.link link)) ∧
      (∀ scratch ∈ disk.temporary? worker path, after.NoEntry scratch) ∧
      ((readText path).run after).value =
        if maxPath ≤ path.text.utf8ByteSize then .error (.unreadable path .nameTooLong)
        else if disk.mayRead mode then .ok text
        else .error (.unreadable path .denied) := by
  obtain ⟨location, mode, hrenewed, hgone⟩ :=
    renewed_of_effected hsound hclean ((keeps_replace hclean _).ends h)
  have hother : ∀ other, other ≠ location → after.node? other = disk.node? other := by
    intro other hne
    rw [hrenewed.after_eq, node?_put_of_ne disk (Ne.symm hne)]
  refine ⟨location, mode, hrenewed.destination, hrenewed.mode_eq, ?_, hother, ?_, hgone, ?_⟩
  · rw [hrenewed.after_eq, node?_put disk hrenewed.ne_nil]
  · intro target hresolve other link hlink
    rw [hother other, hlink]
    rintro rfl
    obtain ⟨mode', old, hfile⟩ := hrenewed.file target hresolve
    cases hlink.symm.trans hfile
  · have huser : after.user = disk.user := by rw [hrenewed.after_eq]; rfl
    show decode path (after.read path) = _
    rw [read_of_seek hrenewed.seek, reading, mayRead_of_user huser]
    split_ifs
    · rfl
    · exact (decode_eq_ok path).mpr rfl
    · rfl

/-- A directory with a file, and a chain of links to it. -/
def linkedDisk : Disk :=
  ⟨[(["d"], .directory Node.directoryMode), (["r", "d"], .file 0o600 "old".toUTF8),
    (["l"], .link "d/../m"), (["m"], .link "d/r")], {}⟩

/-- The file behind the links is replaced, not a link. -/
theorem effect_of_replace_linkedDisk :
    ∃ after,
      (replace ⟨7, 8⟩ ⟨"d/../l"⟩ "new".toUTF8).Ends (fun _ => True) linkedDisk after (.ok ()) ∧
        after.node? ["r", "d"] = some (.file 0o600 "new".toUTF8) ∧
        after.node? ["l"] = some (.link "d/../m") ∧ after.node? ["m"] = some (.link "d/r") ∧
        ((readText ⟨"d/../l"⟩).run after).value = .ok "new" := by
  have hclean : linkedDisk.Untouched ⟨7, 8⟩ ⟨"d/../l"⟩ := by decide +kernel
  have hresolve : linkedDisk.resolve ⟨"d/../l"⟩ = .ok ⟨"/d/r"⟩ := by decide +kernel
  have hdestination : linkedDisk.destination? ⟨"d/../l"⟩ = some ["r", "d"] := by decide +kernel
  have hvalue : ((replace ⟨7, 8⟩ ⟨"d/../l"⟩ "new".toUTF8).run linkedDisk).value = .ok () := by
    decide +kernel
  have hends := Script.ends_run (fun _ => True) (replace ⟨7, 8⟩ ⟨"d/../l"⟩ "new".toUTF8) linkedDisk
  rw [hvalue] at hends
  refine ⟨_, hends, ?_⟩
  have hsound : linkedDisk.Sound := trivial
  obtain ⟨location, mode, hlocation, hmode, hfile, -, hlinks, -, hread⟩ :=
    effect_of_replace hsound hclean hends
  obtain rfl : location = ["r", "d"] := Option.some.inj (hlocation.symm.trans hdestination)
  obtain rfl : mode = 0o600 := hmode
  exact ⟨hfile, hlinks _ hresolve _ _ rfl, hlinks _ hresolve _ _ rfl, hread⟩

/-! ### Paths that are too long -/

theorem read_of_long (hnul : '\x00' ∉ path.text.toList) (hlong : maxPath ≤ path.text.utf8ByteSize)
    (disk : Disk) : disk.read path = .error .nameTooLong := by
  rw [read, locate, if_pos ⟨hnul, hlong⟩]

/-- A path to a file, with many slashes. -/
def slashed (count : ℕ) : Path := ⟨String.ofList ('.' :: (List.replicate (count + 1) '/' ++ ['r']))⟩

theorem names_slashed (count : ℕ) : Path.names (slashed count).text.toList = [".", "r"] := by
  have hpieces : ∀ count, (Path.pieces (List.replicate count '/' ++ ['r'])).filter (· ≠ []) =
      [['r']] := by
    intro count
    induction count with
    | zero => rfl
    | succ count ih =>
      rw [List.replicate_succ, List.cons_append, Path.pieces, if_pos rfl,
        List.filter_cons_of_neg (by simp), ih]
  have hfilter : (Path.pieces ('.' :: (List.replicate (count + 1) '/' ++ ['r']))).filter (· ≠ []) =
      [['.'], ['r']] := by
    have hslash : Path.pieces (List.replicate (count + 1) '/' ++ ['r']) =
        [] :: Path.pieces (List.replicate count '/' ++ ['r']) := rfl
    rw [Path.pieces, if_neg (by decide), hslash, List.filter_cons_of_pos (by simp), hpieces]
  have hlast : ('.' :: (List.replicate (count + 1) '/' ++ ['r'])).getLast? = some 'r' := by
    rw [← List.cons_append, List.getLast?_concat]
  unfold Path.names slashed
  rw [String.toList_ofList]
  simp only [hfilter, hlast]
  rfl

theorem length_le_size (text : List Char) : text.length ≤ (String.ofList text).utf8ByteSize := by
  induction text with
  | nil => exact Nat.zero_le _
  | cons c text ih =>
    have hc := Char.utf8Size_pos c
    rw [String.ofList_cons, String.utf8ByteSize_append, String.utf8ByteSize_singleton,
      List.length_cons]
    omega

theorem seek_slashed (disk : Disk) (follow : Bool) (count : ℕ) :
    disk.seek follow (slashed count) = disk.walk follow maxLinks disk.working [".", "r"] := by
  have hnul : '\x00' ∉ (slashed count).text.toList := by
    simp [slashed, List.mem_replicate]
  have hne : (slashed count).text ≠ "" := by
    intro hempty
    have hlist := congrArg String.toList hempty
    rw [slashed, String.toList_ofList] at hlist
    cases hlist
  rw [seek, if_neg hnul, if_neg hne, names_slashed, slashed, String.toList_ofList]
  rfl

theorem read_slashed (disk : Disk) {count : ℕ} (h : maxPath ≤ count) :
    disk.read (slashed count) = .error .nameTooLong := by
  have hlength := length_le_size ('.' :: (List.replicate (count + 1) '/' ++ ['r']))
  have hlong : maxPath ≤ (slashed count).text.utf8ByteSize := by
    refine Nat.le_trans ?_ hlength
    simp only [List.length_cons, List.length_append, List.length_replicate]
    omega
  refine read_of_long ?_ hlong disk
  simp [slashed, List.mem_replicate]

theorem run_replace_congr (h : disk.resolve path = .ok target)
    (h' : disk.resolve path' = .ok target)
    (worker : Worker) (bytes : ByteArray) :
    (replace worker path bytes).run disk = (replace worker path' bytes).run disk := by
  unfold replace
  rw [Script.run_bind, Script.run_bind, run_target, run_target, h, h']

/-- **A path that is too long** to be read under can still be replaced. -/
theorem replace_slashed {count : ℕ} (hlong : maxPath ≤ count) (disk : Disk)
    (hresolve : disk.resolve (slashed 0) = .ok target) (hclean : disk.Untouched worker (slashed 0))
    (hvalue : ((replace worker (slashed 0) bytes).run disk).value = .ok ()) :
    disk.Untouched worker (slashed count) ∧
      ((replace worker (slashed count) bytes).run disk).value = .ok () ∧
      ((readText (slashed count)).run
        ((replace worker (slashed count) bytes).run disk).disk).value =
        .error (.unreadable (slashed count) .nameTooLong) := by
  have hsame : disk.resolve (slashed count) = .ok target := by
    rw [← hresolve, resolve, resolve, seek_slashed, seek_slashed]
  refine ⟨?_, ?_, ?_⟩
  · unfold Untouched at hclean ⊢
    rwa [Targets.temporary? (Or.inl hsame), ← Targets.temporary? (Or.inl hresolve)]
  · rwa [run_replace_congr hsame hresolve]
  · show decode (slashed count) (Disk.read _ (slashed count)) = _
    rw [read_slashed _ hlong]
    rfl

/-- A disk with a single file. -/
def singleDisk : Disk := ⟨[(["r"], .file Node.fileMode "old\n".toUTF8)], {}⟩

/-- A disk with a file that its owner may write but not read. -/
def guardedDisk : Disk := ⟨[(["r"], .file 0o200 "old\n".toUTF8)], {}⟩

/-- Two texts that are not read back: one under a path that is too long, one in a guarded file. -/
theorem replace_singleDisk_unreadable :
    (singleDisk.Sound ∧ singleDisk.Untouched ⟨7, 8⟩ (slashed 4096) ∧
      ((replace ⟨7, 8⟩ (slashed 4096) "new\n".toUTF8).run singleDisk).value = .ok () ∧
      ((readText (slashed 4096)).run
        ((replace ⟨7, 8⟩ (slashed 4096) "new\n".toUTF8).run singleDisk).disk).value =
          .error (.unreadable (slashed 4096) .nameTooLong)) ∧
    guardedDisk.Sound ∧ guardedDisk.Untouched ⟨7, 8⟩ ⟨"r"⟩ ∧
      ((replace ⟨7, 8⟩ ⟨"r"⟩ "new\n".toUTF8).run guardedDisk).value = .ok () ∧
      ((readText ⟨"r"⟩).run ((replace ⟨7, 8⟩ ⟨"r"⟩ "new\n".toUTF8).run guardedDisk).disk).value =
        .error (.unreadable ⟨"r"⟩ .denied) := by
  have hresolve : singleDisk.resolve (slashed 0) = .ok ⟨"/r"⟩ := by decide +kernel
  have hclean : singleDisk.Untouched ⟨7, 8⟩ (slashed 0) := by decide +kernel
  have hvalue : ((replace ⟨7, 8⟩ (slashed 0) "new\n".toUTF8).run singleDisk).value = .ok () := by
    decide +kernel
  exact ⟨⟨trivial, replace_slashed (Nat.le_refl maxPath) singleDisk hresolve hclean hvalue⟩,
    trivial, by decide +kernel, by decide +kernel, by decide +kernel⟩

end BenchLedger.Disk
