import BenchLedger.Proofs.Disk.Endings

/-! # What is seen on the way

A script keeps a property if all disks that can be seen on its way have it; what is true of the last
disk and of the result is known besides (`Script.Keeps`). Both are shown along the script:
`keeps_ask`, `keeps_bind`. -/

namespace BenchLedger.Disk

namespace Script

variable {α β : Type} {exposed : Request → Prop} {disk middle after : Disk} {script : Script β}
  {next : β → Script α} {value : α} {result : β} {seen front : List Disk}

theorem Course.bind (h : script.Course exposed disk front middle result)
    (hnext : (next result).Course exposed middle seen after value) :
    (script >>= next).Course exposed disk (front ++ seen) after value := by
  show (script.bind next).Course exposed disk (front ++ seen) after value
  induction h with
  | done disk result => exact hnext
  | ask within step rest ih =>
    rw [List.append_assoc]
    exact .ask within step (ih hnext)

theorem Course.of_bind (h : (script >>= next).Course exposed disk seen after value) :
    ∃ front middle result rest, script.Course exposed disk front middle result ∧
      (next result).Course exposed middle rest after value ∧ seen = front ++ rest := by
  change (script.bind next).Course exposed disk seen after value at h
  induction script generalizing disk seen with
  | done result => exact ⟨[], disk, result, seen, .done disk result, h, rfl⟩
  | ask request more ih =>
    cases h with
    | @ask _ _ _ reply halfway middle seen _ _ within step rest =>
      obtain ⟨front, middle', result, rest', hfirst, hnext, rfl⟩ := ih reply rest
      refine ⟨disk :: halfway ++ front, middle', result, rest', .ask within step hfirst, hnext, ?_⟩
      rw [List.append_assoc]

/-! ### Properties that are kept -/

variable {safe : Disk → Prop} {post : Disk → α → Prop} {between : Disk → β → Prop}

/-- All disks on the way of a script are safe, and its end is as it should be. -/
def Keeps (exposed : Request → Prop) (disk : Disk) (script : Script α) (safe : Disk → Prop)
    (post : Disk → α → Prop) : Prop :=
  ∀ seen after value, script.Course exposed disk seen after value →
    (∀ d ∈ seen, safe d) ∧ post after value

theorem Keeps.ends {script : Script α} (h : script.Keeps exposed disk safe post)
    (hends : script.Ends exposed disk after value) : post after value := by
  obtain ⟨seen, hcourse⟩ := hends
  exact (h seen after value hcourse).2

theorem Keeps.mono {script : Script α} {safe' : Disk → Prop} {post' : Disk → α → Prop}
    (h : script.Keeps exposed disk safe post) (hsafe : ∀ d, safe d → safe' d)
    (hpost : ∀ after value, post after value → post' after value) :
    script.Keeps exposed disk safe' post' := by
  intro seen after value hcourse
  obtain ⟨hseen, hafter⟩ := h seen after value hcourse
  exact ⟨fun d hd => hsafe d (hseen d hd), hpost after value hafter⟩

theorem keeps_done {value : α} (h : post disk value) :
    (done value).Keeps exposed disk safe post := by
  intro seen after value' hcourse
  cases hcourse
  exact ⟨List.forall_mem_nil safe, h⟩

theorem keeps_pure {value : α} (h : post disk value) :
    (pure value : Script α).Keeps exposed disk safe post := keeps_done h

/-- A request keeps what is true before it and halfway, if what follows does. -/
theorem keeps_ask {request : Request} {next : request.Reply → Script α} (hdisk : safe disk)
    (hhalf : ∀ half, request.Halfway disk half → safe half)
    (hnext : ∀ reply middle, request.Yields exposed disk reply middle →
      (next reply).Keeps exposed middle safe post) :
    (ask request next).Keeps exposed disk safe post := by
  intro seen after value hcourse
  cases hcourse with
  | ask within step rest =>
    obtain ⟨hrest, hpost⟩ := hnext _ _ step _ _ _ rest
    refine ⟨List.forall_mem_append.mpr ⟨List.forall_mem_cons.mpr ⟨hdisk, ?_⟩, hrest⟩, hpost⟩
    exact fun half hmem => hhalf half (within half hmem)

theorem keeps_request_bind {request : Request} {next : request.Reply → Script α} (hdisk : safe disk)
    (hhalf : ∀ half, request.Halfway disk half → safe half)
    (hnext : ∀ reply middle, request.Yields exposed disk reply middle →
      (next reply).Keeps exposed middle safe post) :
    (Script.request request >>= next).Keeps exposed disk safe post := keeps_ask hdisk hhalf hnext

theorem keeps_quiet_bind {request : Request} {next : request.Reply → Script α} (hdisk : safe disk)
    (hquiet : ∀ path bytes, request ≠ .write path bytes)
    (hnext : ∀ reply middle, request.Yields exposed disk reply middle →
      (next reply).Keeps exposed middle safe post) :
    (Script.request request >>= next).Keeps exposed disk safe post :=
  keeps_ask hdisk (fun _ ⟨path, bytes, _, hwrite, _⟩ => absurd hwrite (hquiet path bytes)) hnext

theorem keeps_bind (h : script.Keeps exposed disk safe between)
    (hnext : ∀ middle result, between middle result →
      (next result).Keeps exposed middle safe post) :
    (script >>= next).Keeps exposed disk safe post := by
  intro seen after value hcourse
  obtain ⟨front, middle, result, rest, hfirst, hrest, rfl⟩ := hcourse.of_bind
  obtain ⟨hfront, hbetween⟩ := h front middle result hfirst
  obtain ⟨hrest, hpost⟩ := hnext middle result hbetween rest after value hrest
  exact ⟨List.forall_mem_append.mpr ⟨hfront, hrest⟩, hpost⟩

end Script

end BenchLedger.Disk
