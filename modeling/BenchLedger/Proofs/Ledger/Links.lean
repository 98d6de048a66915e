import BenchLedger.Proofs.Disk.Effect
import BenchLedger.Proofs.Disk.Moved
import BenchLedger.Proofs.Ledger.Failure

/-! # Symbolic links to be written through

Contents are to be written through a symbolic link, so that the link stays. This is so if the link
leads somewhere, but a path that leads nowhere is taken for one of a new file: a dangling link is
itself replaced (`link_kept_iff_leads`). -/

namespace BenchLedger.Ledger

open Disk (Path Worker Script Location Node)

variable {exposed : Disk.Request → Prop} {disk after : Disk} {worker : Worker} {path : Path}
  {bytes : ByteArray} {here : Location} {link : String}

/-- **The contents were written to the path**: the file was replaced, or the ledger that they spell
was saved. -/
def Stores (exposed : Disk.Request → Prop) (worker : Worker) (path : Path) (bytes : ByteArray)
    (disk after : Disk) : Prop :=
  (Disk.replace worker path bytes).Ends exposed disk after (.ok ()) ∨
    ∃ ledger : Ledger, ledger.text.toUTF8 = bytes ∧
      (save worker path ledger).Ends exposed disk after (.ok ())

theorem Stores.ends_replace (h : Stores exposed worker path bytes disk after) :
    (Disk.replace worker path bytes).Ends exposed disk after (.ok ()) := by
  rcases h with h | ⟨ledger, rfl, h⟩
  · exact h
  · exact ends_save_ok h

/-- **A link to which contents are written is kept just if it leads somewhere**, when no link stands
under the temporary name of the worker: then it leads to the contents. A link that leads nowhere
becomes the new file itself. A link under the temporary name is moved over what is to be replaced:
over the file, so that nothing but the contents is found through it, or over the dangling link. -/
theorem link_kept_iff_leads (hsound : disk.Sound)
    (hlink : disk.seek false path = .ok (.found here (.link link)))
    (h : Stores exposed worker path bytes disk after) :
    (disk.staleLink? worker path = none →
      (Disk.LinkKept after path here link bytes ↔ disk.Leads path) ∧
        (¬ disk.Leads path → ∃ mode, after.node? here = some (.file mode bytes))) ∧
    ∀ stale other, disk.staleLink? worker path = some (stale, other) →
      (disk.Leads path → (after.node? here = some (.link link) ↔ stale ≠ here) ∧
        ∀ location mode contents,
          after.seek true path = .ok (.found location (.file mode contents)) → contents = bytes) ∧
      (¬ disk.Leads path → after.node? here = some (.link other)) := by
  have hends := h.ends_replace
  refine ⟨fun hstale => ?_, fun stale other hstale => ⟨fun hleads => ?_, fun hnot => ?_⟩⟩
  · have hfile : ¬ disk.Leads path → ∃ mode, after.node? here = some (.file mode bytes) := by
      intro hnot
      have hreplaced := Disk.replaced_of_dangling hsound hlink hends hnot
      rwa [hstale] at hreplaced
    refine ⟨⟨fun hkept => ?_, fun hleads => Disk.kept_of_leads hsound hlink hends hleads hstale⟩,
      hfile⟩
    by_contra hnot
    obtain ⟨mode, hmode⟩ := hfile hnot
    cases hkept.link.symm.trans hmode
  · exact Disk.kept_of_stale hsound hlink hends hleads hstale
  · have hreplaced := Disk.replaced_of_dangling hsound hlink hends hnot
    rwa [hstale] at hreplaced

/-- A chain of links to a file: the first link is kept. -/
theorem link_kept_iff_leads_linkedDisk :
    ∃ after, Stores (fun _ => True) ⟨7, 8⟩ ⟨"d/../l"⟩ "new".toUTF8 Disk.linkedDisk after ∧
      Disk.LinkKept after ⟨"d/../l"⟩ ["l"] "d/../m" "new".toUTF8 := by
  have hvalue : ((Disk.replace ⟨7, 8⟩ ⟨"d/../l"⟩ "new".toUTF8).run Disk.linkedDisk).value =
      .ok () := by
    decide +kernel
  have hends := Script.ends_run (fun _ => True)
    (Disk.replace ⟨7, 8⟩ ⟨"d/../l"⟩ "new".toUTF8) Disk.linkedDisk
  rw [hvalue] at hends
  have hresolve : Disk.linkedDisk.resolve ⟨"d/../l"⟩ = .ok ⟨"/d/r"⟩ := by decide +kernel
  obtain ⟨location, node, hseek, -⟩ := Disk.resolve_ok hresolve
  have hstale : Disk.linkedDisk.staleLink? ⟨7, 8⟩ ⟨"d/../l"⟩ = none := by decide +kernel
  have hsound : Disk.linkedDisk.Sound := trivial
  have hkept := link_kept_iff_leads hsound rfl (Or.inl hends)
  exact ⟨_, Or.inl hends, (hkept.1 hstale).1.mpr ⟨location, node, hseek⟩⟩

/-- A link to a file that does not exist. -/
def danglingDisk : Disk := ⟨[(["l"], .link "missing")], {}⟩

/-- The link is replaced, and the file that it says is not made. -/
theorem not_linkKept_danglingDisk :
    danglingDisk.seek false ⟨"l"⟩ = .ok (.found ["l"] (.link "missing")) ∧
      ∃ after, Stores (fun _ => False) ⟨7, 8⟩ ⟨"l"⟩ "new\n".toUTF8 danglingDisk after ∧
        (∃ mode, after.node? ["l"] = some (.file mode "new\n".toUTF8)) ∧
        after.node? ["missing"] = none ∧
        ¬ Disk.LinkKept after ⟨"l"⟩ ["l"] "missing" "new\n".toUTF8 := by
  have hvalue : ((Disk.replace ⟨7, 8⟩ ⟨"l"⟩ "new\n".toUTF8).run danglingDisk).value = .ok () := by
    decide +kernel
  have hends := Script.ends_run (fun _ => False) (Disk.replace ⟨7, 8⟩ ⟨"l"⟩ "new\n".toUTF8)
    danglingDisk
  rw [hvalue] at hends
  refine ⟨rfl, _, Or.inl hends, ⟨_, rfl⟩, rfl, fun hkept => ?_⟩
  cases hkept.link

end BenchLedger.Ledger
