import BenchLedger.Disk.Course
import BenchLedger.Disk.Replace
import Mathlib.Tactic.Common

/-! # How scripts end

A course shows all that can be seen while a script is carried out. How the script ends is the disk
after it, with the result (`Script.Ends`), and is known step by step:

* `ends_ask`, `ends_bind`: the ends of a script from those of its parts.
* `yields_write` and the lemmas after it: what can come of each request.
* `ends_run`: a script that meets no fault from outside ends as its run says. -/

namespace BenchLedger.Disk

variable {exposed : Request → Prop}

/-- A script can end on a disk with a result, if some requests are exposed to faults from
outside. -/
def Script.Ends {α : Type} (exposed : Request → Prop) (disk : Disk) (script : Script α)
    (after : Disk) (value : α) : Prop :=
  ∃ seen, script.Course exposed disk seen after value

namespace Script

variable {α β : Type} {disk after : Disk} {value : α}

theorem ends_done {result : α} :
    (done result).Ends exposed disk after value ↔ after = disk ∧ value = result := by
  constructor
  · rintro ⟨seen, hcourse⟩
    cases hcourse
    exact ⟨rfl, rfl⟩
  · rintro ⟨rfl, rfl⟩
    exact ⟨[], .done _ _⟩

/-- After a request a script goes on with its reply, from the disk after it. -/
theorem ends_ask {request : Request} {next : request.Reply → Script α} :
    (ask request next).Ends exposed disk after value ↔ ∃ reply middle,
      request.Yields exposed disk reply middle ∧ (next reply).Ends exposed middle after value := by
  constructor
  · rintro ⟨seen, hcourse⟩
    cases hcourse with
    | @ask _ _ _ reply halfway middle seen _ _ within step rest =>
      exact ⟨reply, middle, step, seen, rest⟩
  · rintro ⟨reply, middle, step, seen, rest⟩
    exact ⟨_, .ask (List.forall_mem_nil _) step rest⟩

/-- A script that goes on after another does so from its end. -/
theorem ends_bind {script : Script β} {next : β → Script α} :
    (script >>= next).Ends exposed disk after value ↔ ∃ result middle,
      script.Ends exposed disk middle result ∧ (next result).Ends exposed middle after value := by
  show (script.bind next).Ends exposed disk after value ↔ _
  induction script generalizing disk with
  | done result =>
    simp only [Script.bind, ends_done]
    constructor
    · intro h
      exact ⟨result, disk, ⟨rfl, rfl⟩, h⟩
    · rintro ⟨_, _, ⟨rfl, rfl⟩, h⟩
      exact h
  | ask request more ih =>
    simp only [Script.bind, ends_ask, ih]
    constructor
    · rintro ⟨reply, between, step, result, middle, hmore, hnext⟩
      exact ⟨result, middle, ⟨reply, between, step, hmore⟩, hnext⟩
    · rintro ⟨result, middle, ⟨reply, between, step, hmore⟩, hnext⟩
      exact ⟨reply, between, step, result, middle, hmore, hnext⟩

theorem ends_request_bind {request : Request} {next : request.Reply → Script α} :
    (Script.request request >>= next).Ends exposed disk after value ↔ ∃ reply middle,
      request.Yields exposed disk reply middle ∧ (next reply).Ends exposed middle after value :=
  ends_ask

theorem ends_pure {result : α} :
    (pure result : Script α).Ends exposed disk after value ↔
      after = disk ∧ value = result := ends_done

/-- **A script can end as its run says.** -/
theorem ends_run (exposed : Request → Prop) (script : Script α) (disk : Disk) :
    script.Ends exposed disk (script.run disk).disk (script.run disk).value := by
  induction script generalizing disk with
  | done value => exact ends_done.mpr ⟨rfl, rfl⟩
  | ask request next ih => exact ends_ask.mpr ⟨_, _, .performed request, ih _ _⟩

end Script

/-! ### What comes of requests -/

section Yields

variable {disk after : Disk} {path target : Path}

theorem yields_of_perform {request : Request} {reply : request.Reply}
    (h : request.perform disk = (reply, after)) : request.Yields exposed disk reply after := by
  have hperformed : request.Yields exposed disk (request.perform disk).1 (request.perform disk).2 :=
    .performed request
  rwa [h] at hperformed

theorem yields_tell {note : Note} {reply : (Request.tell note).Reply}
    (h : (Request.tell note).Yields exposed disk reply after) : after = disk := by
  cases h <;> rfl

theorem yields_read {reply : (Request.read path).Reply}
    (h : (Request.read path).Yields exposed disk reply after) : after = disk := by
  cases h <;> rfl

theorem yields_readMode {reply : (Request.readMode path).Reply}
    (h : (Request.readMode path).Yields exposed disk reply after) : after = disk ∧
      (reply = disk.mode path ∨ ∃ code text, reply = .error (.other code text)) := by
  cases h with
  | performed => exact ⟨rfl, Or.inl rfl⟩
  | refused _ code text reply _ refusal =>
    exact ⟨rfl, Or.inr ⟨code, text, (Option.some.inj refusal).symm⟩⟩

theorem yields_resolve {reply : (Request.resolve path).Reply}
    (h : (Request.resolve path).Yields exposed disk reply after) : after = disk ∧
      (reply = disk.resolve path ∨ ∃ code text, reply = .error (.other code text)) := by
  cases h with
  | performed => exact ⟨rfl, Or.inl rfl⟩
  | refused _ code text reply _ refusal =>
    exact ⟨rfl, Or.inr ⟨code, text, (Option.some.inj refusal).symm⟩⟩

theorem settle_cases (disk : Disk) (result : Except Fault Disk) :
    (Request.settle disk result).1 = .ok () ∧ result = .ok (Request.settle disk result).2 ∨
      (∃ fault, result = .error fault ∧ (Request.settle disk result).1 = .error fault) ∧
        (Request.settle disk result).2 = disk := by
  cases result with
  | ok changed => exact Or.inl ⟨rfl, rfl⟩
  | error fault => exact Or.inr ⟨⟨fault, rfl, rfl⟩, rfl⟩

/-- A write that fails can leave a part of the file. -/
theorem yields_write {bytes : ByteArray} {reply : (Request.write path bytes).Reply}
    (h : (Request.write path bytes).Yields exposed disk reply after) :
    reply = .ok () ∧ disk.write path bytes = .ok after ∨
      (∃ fault, reply = .error fault) ∧
        (after = disk ∨ ∃ part, disk.write path part = .ok after) := by
  cases h with
  | performed =>
    rcases settle_cases disk (disk.write path bytes) with hwrite | ⟨⟨fault, -, hreply⟩, hsame⟩
    · exact Or.inl hwrite
    · exact Or.inr ⟨⟨fault, hreply⟩, Or.inl hsame⟩
  | refused _ code text reply _ refusal =>
    exact Or.inr ⟨⟨_, (Option.some.inj refusal).symm⟩, Or.inl rfl⟩
  | cut _ _ code text _ _ halfway =>
    obtain ⟨path', bytes', count, heq, hwrite⟩ := halfway
    cases heq
    exact Or.inr ⟨⟨_, rfl⟩, Or.inr ⟨_, hwrite⟩⟩

theorem yields_setMode {mode : Mode} {reply : (Request.setMode path mode).Reply}
    (h : (Request.setMode path mode).Yields exposed disk reply after) :
    reply = .ok () ∧ disk.setMode path mode = .ok after ∨
      (∃ fault, reply = .error fault) ∧ after = disk := by
  cases h with
  | performed =>
    rcases settle_cases disk (disk.setMode path mode) with hset | ⟨⟨fault, -, hreply⟩, hsame⟩
    · exact Or.inl hset
    · exact Or.inr ⟨⟨fault, hreply⟩, hsame⟩
  | refused _ code text reply _ refusal =>
    exact Or.inr ⟨⟨_, (Option.some.inj refusal).symm⟩, rfl⟩

theorem yields_rename {reply : (Request.rename path target).Reply}
    (h : (Request.rename path target).Yields exposed disk reply after) :
    reply = .ok () ∧ disk.rename path target = .ok after ∨
      (∃ fault, reply = .error fault) ∧ after = disk := by
  cases h with
  | performed =>
    rcases settle_cases disk (disk.rename path target) with hmove | ⟨⟨fault, -, hreply⟩, hsame⟩
    · exact Or.inl hmove
    · exact Or.inr ⟨⟨fault, hreply⟩, hsame⟩
  | refused _ code text reply _ refusal =>
    exact Or.inr ⟨⟨_, (Option.some.inj refusal).symm⟩, rfl⟩

theorem yields_remove {reply : (Request.remove path).Reply}
    (h : (Request.remove path).Yields exposed disk reply after) :
    disk.remove path = .ok after ∨
      (exposed (.remove path) ∨ ∃ fault, disk.remove path = .error fault) ∧ after = disk := by
  cases h with
  | performed =>
    rcases settle_cases disk (disk.remove path) with ⟨-, hgone⟩ | ⟨⟨fault, hfail, -⟩, hsame⟩
    · exact Or.inl hgone
    · exact Or.inr ⟨Or.inr ⟨fault, hfail⟩, hsame⟩
  | refused _ _ _ _ risk => exact Or.inr ⟨Or.inl risk, rfl⟩

end Yields

/-! ### Scripts that change nothing -/

section Unchanged

variable {disk after : Disk}

theorem Script.ends_noteAll {notes : List Note} {value : Unit}
    (h : (noteAll notes).Ends exposed disk after value) : after = disk := by
  induction notes generalizing disk with
  | nil => exact (ends_done.mp h).1
  | cons note notes ih =>
    obtain ⟨reply, middle, htell, hrest⟩ := ends_ask.mp h
    have hmiddle := yields_tell htell
    have hafter := ih hrest
    rw [hafter, hmiddle]

theorem Script.ends_ofJournaled {ε α : Type} {journaled : Journaled ε α} {value : Except ε α}
    (h : (ofJournaled journaled).Ends exposed disk after value) :
    after = disk ∧ value = journaled.outcome := by
  obtain ⟨_, middle, hnotes, hend⟩ := ends_bind.mp h
  have hmiddle := ends_noteAll hnotes
  obtain ⟨hafter, hvalue⟩ := ends_pure.mp hend
  exact ⟨hafter.trans hmiddle, hvalue⟩

theorem ends_readText {path : Path} {value : Except ReadFault String}
    (h : (readText path).Ends exposed disk after value) : after = disk ∧
      ∀ text, value = .ok text → ∃ bytes, disk.read path = .ok bytes := by
  obtain ⟨reply, middle, hstep, hend⟩ := Script.ends_request_bind.mp h
  obtain ⟨rfl, rfl⟩ := Script.ends_pure.mp hend
  refine ⟨yields_read hstep, fun text htext => ?_⟩
  cases hstep with
  | performed =>
    have hdecoded : decode path (disk.read path) = .ok text := htext
    cases hread : disk.read path with
    | ok bytes => exact ⟨bytes, rfl⟩
    | error fault =>
      rw [hread] at hdecoded
      cases fault <;> cases hdecoded
  | refused _ code text reply _ refusal =>
    obtain rfl := Option.some.inj refusal
    cases htext

/-- **A listener has no part in how a script ends.** -/
theorem Script.ends_heardAt {α : Type} {level : Level} {script : Script α} {value : α} :
    (script.heardAt level).Ends exposed disk after value ↔
      script.Ends exposed disk after value := by
  induction script generalizing disk with
  | done result => exact Iff.rfl
  | ask request next ih =>
    cases request with
    | tell note =>
      rw [heardAt]
      split_ifs
      · simp only [ends_ask, ih]
      · rw [ih, ends_ask]
        constructor
        · intro h
          exact ⟨(), disk, .performed _, h⟩
        · rintro ⟨reply, middle, step, h⟩
          rwa [← yields_tell step]
    | _ => simp only [heardAt, ends_ask, ih]

end Unchanged

end BenchLedger.Disk
