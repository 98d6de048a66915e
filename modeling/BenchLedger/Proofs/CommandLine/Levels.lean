import BenchLedger.Proofs.CommandLine.Effects
import BenchLedger.Proofs.CommandLine.Notes
import BenchLedger.Proofs.Disk.Workers

/-! # Runs at two levels

The level of notes is chosen by the switches before the verb, and by nothing else. A run is the run
that tells all, heard at that level (`run_eq_heardAt`). So of two runs with the same command the one
at the lower level does the same and says the same in the end; only some of the lines that the other
tells on the way are missing (`levels_only_add_notes`).

Two runs are two processes, so the workers are two as well. What they tell all is alike, but for
their names (`matches_told`), unless one of them is hampered: then not even the code is the same
(`crowdedRun_code_ne`). -/

namespace BenchLedger

/-! ### Listeners -/

theorem Level.hears_of_le {level louder note : Level} (hle : level.rank ≤ louder.rank)
    (h : level.hears note = true) : louder.hears note = true := by
  unfold hears at h ⊢
  exact decide_eq_true (le_trans (of_decide_eq_true h) hle)

theorem filter_hears_of_le {level louder : Level} (hle : level.rank ≤ louder.rank)
    (notes : List Note) : notes.filter (level.hears ·.level) =
      (notes.filter (louder.hears ·.level)).filter (level.hears ·.level) := by
  rw [List.filter_filter]
  refine List.filter_congr fun note _ => ?_
  cases hheard : level.hears note.level with
  | true =>
    rw [Level.hears_of_le hle hheard]
    rfl
  | false => rfl

theorem Disk.Script.heardAt_bind {α β : Type} (level : Level) (script : Script α)
    (next : α → Script β) : (script >>= next).heardAt level =
      script.heardAt level >>= fun value => (next value).heardAt level := by
  show (script.bind next).heardAt level = (script.heardAt level).bind _
  induction script with
  | done value => rfl
  | ask request more ih =>
    cases request with
    | tell note =>
      rw [Script.bind, heardAt, heardAt]
      split_ifs
      · simp only [ih, Script.bind]
      · exact ih ()
    | _ => simp only [Script.bind, heardAt, ih]

namespace CommandLine

open Disk (Path Worker Script)

variable {switches : Switches} {level : Level} {flags rest : List String}

/-! ### Switches -/

/-- The switches after an argument that gives some. -/
def Switches.given (switches : Switches) (argument : String) : Except Halt Switches :=
  match Word.ofString argument with
  | .long name => switches.name name
  | .short letters => letters.foldlM Switches.letter switches
  | _ => .error .misuse

/-- The arguments choose a level: they give switches, none of them twice and no two that
conflict. -/
def Choose (flags : List String) (level : Level) : Prop :=
  ∃ switches : Switches, flags.foldlM Switches.given {} = .ok switches ∧
    switches.isSimple = true ∧ switches.level = .ok level

/-- The arguments do not begin with a switch. -/
def NoSwitch (rest : List String) : Prop :=
  ∀ argument ∈ rest.head?, Word.ofString argument = .value

instance (rest : List String) : Decidable (NoSwitch rest) := by unfold NoSwitch; infer_instance

theorem readAfter_append {switches given : Switches}
    (h : flags.foldlM Switches.given switches = .ok given) (rest : List String) :
    Invocation.readAfter switches (flags ++ rest) = Invocation.readAfter given rest := by
  induction flags generalizing switches with
  | nil =>
    cases h
    rfl
  | cons flag flags ih =>
    rw [List.foldlM_cons] at h
    cases hflag : switches.given flag with
    | error halt => rw [hflag] at h; cases h
    | ok more =>
      rw [hflag] at h
      unfold Switches.given at hflag
      rw [List.cons_append, Invocation.readAfter]
      split at hflag
      · next name hword =>
        rw [hword]
        dsimp only
        rw [hflag]
        exact ih h
      · next letters hword =>
        rw [hword]
        dsimp only
        rw [hflag]
        exact ih h
      · cases hflag

/-- An invocation with other switches. -/
def Invocation.withSwitches (switches : Switches) (invocation : Invocation) : Invocation :=
  { invocation with switches := switches }

theorem readAfter_eq (hsimple : switches.isSimple = true) (hrest : NoSwitch rest) :
    Invocation.readAfter switches rest =
      (Invocation.readAfter {} rest).map (Invocation.withSwitches switches) := by
  have hverb : ∀ verb arguments, Invocation.ofVerb switches verb arguments =
      (Invocation.ofVerb {} verb arguments).map (Invocation.withSwitches switches) := by
    intro verb arguments
    unfold Invocation.ofVerb
    cases Values.read verb {} arguments with
    | error halt => rfl
    | ok seen =>
      dsimp only
      cases verb.command? (seen.plain ≠ 0) seen.values with
      | none => rfl
      | some command =>
        dsimp only
        rw [hsimple, show ({} : Switches).isSimple = true from rfl]
        split_ifs <;> rfl
  cases rest with
  | nil => rfl
  | cons argument arguments =>
    rw [Invocation.readAfter, Invocation.readAfter, hrest argument rfl]
    dsimp only
    split_ifs
    · rfl
    · split
      · exact hverb _ _
      · rfl

/-! ### Runs -/

/-- A run that tells all, with arguments that give no switches. -/
def told (worker : Worker) (rest : List String) : Script Ending :=
  match Invocation.read rest with
  | .error halt => .done (.ofHalt halt)
  | .ok invocation => do return Ending.ofPrintout (← invocation.command.perform worker)

/-- **Switches choose how much is heard of a run**, and nothing else. -/
theorem run_eq_heardAt (h : Choose flags level) (hrest : NoSwitch rest) (worker : Worker) :
    run worker (flags ++ rest) = (told worker rest).heardAt level := by
  obtain ⟨switches, hgiven, hsimple, hlevel⟩ := h
  unfold run told Invocation.read
  rw [readAfter_append hgiven, readAfter_eq hsimple hrest]
  cases Invocation.readAfter {} rest with
  | error halt => rfl
  | ok invocation =>
    have hswitches : (invocation.withSwitches switches).switches.level = .ok level := hlevel
    dsimp only [Except.map]
    rw [Invocation.perform, hswitches, Script.heardAt_bind]
    rfl

/-- A note, as a line. -/
def noteLine (note : Note) : String := "LOG " ++ note.text ++ "\n"

/-- What a run says apart from its output: its notes, then the complaint. -/
def errorText (outcome : Script.Outcome Ending) : String :=
  String.join (outcome.notes.map noteLine) ++ outcome.value.complaint

/-- A line with a note: nothing else ends within it. -/
def IsNoteLine (line : String) : Prop := ∃ text, line = "LOG " ++ text ++ "\n" ∧ Text.OneLine text

theorem tellsLines_told (worker : Worker) (rest : List String) : (told worker rest).TellsLines := by
  unfold told
  split
  · exact Script.tellsLines_pure _
  · exact (tellsLines_perform _ _).bind fun _ => Script.tellsLines_pure _

/-! ### Two workers -/

variable {worker other : Worker} {exposed : Disk.Request → Prop} {disk : Disk} {path : Path}

/-- Endings that are the same, but for the workers that they name. -/
structure Ending.Alike (worker other : Worker) (ending ending' : Ending) : Prop where
  code : ending.code = ending'.code
  output : ending.output = ending'.output
  complaint : worker.Alike other ending.complaint ending'.complaint

theorem Ending.Alike.refl (ending : Ending) : Ending.Alike worker other ending ending :=
  ⟨rfl, rfl, .refl _⟩

theorem Ending.Alike.symm {ending ending' : Ending} (h : Ending.Alike worker other ending ending') :
    Ending.Alike other worker ending' ending := ⟨h.code.symm, h.output.symm, h.complaint.symm⟩

theorem Ending.Alike.eq {ending ending' : Ending} (h : Ending.Alike worker worker ending ending') :
    ending = ending' := by
  cases ending
  cases ending'
  rw [Ending.mk.injEq]
  exact ⟨h.code, h.output, String.toList_injective h.complaint.eq⟩

/-- What comes of a ledger that is stored: the same, or faults that are told alike. -/
inductive AlikeStored (worker other : Worker) {α : Type} :
    Except Ledger.StoreFault α → Except Ledger.StoreFault α → Prop where
  | same (stored : Except Ledger.StoreFault α) : AlikeStored worker other stored stored
  | writing (path : Path) {fault fault' : Disk.ReplaceFault}
    (message : worker.Alike other fault.message fault'.message) :
    AlikeStored worker other (.error (.writing path fault)) (.error (.writing path fault'))

theorem alike_complaint {fault fault' : Disk.ReplaceFault}
    (h : worker.Alike other fault.message fault'.message) (path : Path) :
    worker.Alike other (Failure.ledger (.writing path fault)).complaint
      (Failure.ledger (.writing path fault')).complaint := by
  have hcause : ∀ fault : Disk.ReplaceFault, (Failure.ledger (.writing path fault)).complaint =
      "Error: " ++ ("writing results file " ++ path.quoted) ++ "\n\nCaused by:\n" ++
        ("    " ++ fault.message ++ "\n") := fun fault => by
    simp [Failure.complaint, Failure.absent?, Failure.chain, Ledger.StoreFault.chain, blame,
        onLines]
  rw [hcause, hcause]
  exact (Worker.Alike.refl _).append (((Worker.Alike.refl _).append h).append (.refl _))

theorem matches_save {old : ByteArray} (hsound : disk.Sound) (hread : disk.read path = .ok old)
    (h : disk.Unhampered worker other path) (hfair : Disk.Request.Fair exposed) (ledger : Ledger) :
    Script.Matches worker other exposed
      (fun after stored after' stored' => after' = after ∧ AlikeStored worker other stored stored')
      disk (Ledger.save worker path ledger) disk (Ledger.save other path ledger) := by
  refine Script.matches_bind (Disk.matches_replace hsound hread h hfair _) ?_
  intro after replaced after' replaced' hreplaced
  cases hreplaced with
  | ok => exact Script.matches_pure ⟨rfl, .same _⟩
  | error hmessage hsame => exact Script.matches_pure ⟨hsame.symm, .writing path hmessage⟩

theorem matches_update (hsound : disk.Sound) (h : disk.Unhampered worker other path)
    (hfair : Disk.Request.Fair exposed) (key : Ledger.Key) (sample : Binary64) :
    Script.Matches worker other exposed
      (fun after posted after' posted' => after' = after ∧ AlikeStored worker other posted posted')
      disk (Ledger.update worker path key sample) disk (Ledger.update other path key sample) := by
  refine Script.matches_same_bind fun middle loaded hload => ?_
  obtain rfl := Ledger.ends_load hload
  cases loaded with
  | error fault => exact Script.matches_pure ⟨rfl, .same _⟩
  | ok ledger =>
    obtain ⟨old, hread⟩ := exists_read_of_load hload
    refine Script.matches_bind (matches_save hsound hread h hfair _) ?_
    rintro saved stored _ stored' ⟨rfl, hstored⟩
    cases hstored with
    | writing stored hmessage => exact Script.matches_pure ⟨rfl, .writing stored hmessage⟩
    | same =>
      cases stored with
      | error fault => exact Script.matches_pure ⟨rfl, .same _⟩
      | ok _ =>
        exact Script.matches_same_bind fun _ _ _ => Script.matches_pure ⟨rfl, .same _⟩

theorem matches_perform {command : Command} (hfair : Disk.Request.Fair exposed)
    (h : ∀ path ∈ command.ledger?, disk.Sound ∧ disk.Unhampered worker other path) :
    Script.Matches worker other exposed
      (fun after printout after' printout' => after' = after ∧
        Ending.Alike worker other (.ofPrintout printout) (.ofPrintout printout'))
      disk (command.perform worker) disk (command.perform other) := by
  cases command with
  | version => exact Script.matches_pure ⟨rfl, .refl _⟩
  | ask question log =>
    exact (Script.matches_self worker other exposed disk (question.perform log)).mono
      fun _ _ _ _ ⟨hdisk, hvalue, _⟩ => ⟨hdisk, hvalue ▸ .refl _⟩
  | append path key sample =>
    obtain ⟨hsound, hunhampered⟩ := h path rfl
    refine Script.matches_bind (matches_update hsound hunhampered hfair key sample) ?_
    rintro after posted _ posted' ⟨rfl, hposted⟩
    cases hposted with
    | writing stored hmessage =>
      exact Script.matches_pure ⟨rfl, rfl, rfl, alike_complaint hmessage stored⟩
    | same =>
      cases posted with
      | error fault => exact Script.matches_pure ⟨rfl, .refl _⟩
      | ok posting => exact Script.matches_pure ⟨rfl, .refl _⟩

/-- Two runs by one worker, or by two that are not hampered at the ledger that they post to. -/
def OnEqualTerms (disk : Disk) (worker other : Worker) (rest : List String) : Prop :=
  worker = other ∨ disk.Sound ∧ ∀ path ∈ ledger? rest, disk.Unhampered worker other path

theorem OnEqualTerms.symm (h : OnEqualTerms disk worker other rest) :
    OnEqualTerms disk other worker rest :=
  h.imp Eq.symm fun ⟨hsound, hpaths⟩ => ⟨hsound, fun path hpath => (hpaths path hpath).symm⟩

/-- **Two workers tell all alike**, and come to the same disk and to endings that are alike. -/
theorem matches_told (h : OnEqualTerms disk worker other rest) (hfair : Disk.Request.Fair exposed) :
    Script.Matches worker other exposed
      (fun after ending after' ending' => after' = after ∧ Ending.Alike worker other ending ending')
      disk (told worker rest) disk (told other rest) := by
  rcases h with rfl | ⟨hsound, hpaths⟩
  · exact (Script.matches_self worker worker exposed disk (told worker rest)).mono
      fun _ _ _ _ ⟨hdisk, hvalue, _⟩ => ⟨hdisk, hvalue ▸ .refl _⟩
  unfold ledger? at hpaths
  unfold told
  cases hread : Invocation.read rest with
  | error halt => exact Script.matches_pure ⟨rfl, .refl _⟩
  | ok invocation =>
    rw [hread] at hpaths
    refine Script.matches_bind
      (matches_perform hfair fun path hpath => ⟨hsound, hpaths path hpath⟩) ?_
    rintro after printout _ printout' ⟨rfl, hending⟩
    exact Script.matches_pure ⟨rfl, hending⟩

/-! ### Two runs -/

/-- **A run says what another says**, heard at a lower level: it ends with the same code and output
on the same disk, its complaint is alike, and its notes are alike to those of the other that its
level hears. -/
structure Echoes (worker other : Worker) (level : Level) (quiet loud : Script.Outcome Ending) :
    Prop where
  ending : Ending.Alike worker other quiet.value loud.value
  disk : quiet.disk = loud.disk
  notes : List.Forall₂ (worker.NoteAlike other) quiet.notes
    (loud.notes.filter (level.hears ·.level))

theorem echoes_of_alike {level louder : Level} (hle : level.rank ≤ louder.rank)
    {outcome outcome' : Script.Outcome Ending}
    (hdisk : outcome'.disk = outcome.disk)
    (hending : Ending.Alike worker other outcome.value outcome'.value)
    (hnotes : List.Forall₂ (worker.NoteAlike other) outcome.notes outcome'.notes) :
    Echoes worker other level (outcome.heardAt level) (outcome'.heardAt louder) := by
  refine ⟨hending, hdisk.symm, ?_⟩
  show List.Forall₂ _ (outcome.notes.filter _) ((outcome'.notes.filter _).filter _)
  rw [← filter_hears_of_le hle]
  refine List.rel_filter (fun note note' hnote => ?_) hnotes
  show level.hears note.level = true ↔ level.hears note'.level = true
  rw [hnote.1]

theorem Echoes.heard {level : Level} {quiet loud : Script.Outcome Ending}
    (h : Echoes worker other level quiet loud) :
    ∃ heard : List String, heard.Sublist (loud.notes.map noteLine) ∧
      List.Forall₂ (worker.Alike other) (quiet.notes.map noteLine) heard := by
  refine ⟨(loud.notes.filter (level.hears ·.level)).map noteLine,
    List.filter_sublist.map noteLine, ?_⟩
  rw [List.forall₂_map_left_iff, List.forall₂_map_right_iff]
  exact h.notes.imp fun note note' hnote =>
    ((Worker.Alike.refl _).append hnote.2).append (.refl _)

theorem exists_echo {level louder : Level} (hle : level.rank ≤ louder.rank)
    (hterms : OnEqualTerms disk worker other rest) (hfair : Disk.Request.Fair exposed)
    {quiet : Script.Outcome Ending}
    (h : ((told worker rest).heardAt level).ComesTo exposed disk quiet) :
    ∃ loud, ((told other rest).heardAt louder).ComesTo exposed disk loud ∧
      Echoes worker other level quiet loud := by
  obtain ⟨ending, hcomes, rfl⟩ := Script.comesTo_heardAt.mp h
  obtain ⟨ending', hcomes', ⟨hdisk, halike⟩, hnotes⟩ := matches_told hterms hfair ending hcomes
  exact ⟨_, Script.comesTo_heardAt.mpr ⟨ending', hcomes', rfl⟩,
    echoes_of_alike hle hdisk halike hnotes⟩

theorem exists_echoing {level louder : Level} (hle : level.rank ≤ louder.rank)
    (hterms : OnEqualTerms disk worker other rest) (hfair : Disk.Request.Fair exposed)
    {loud : Script.Outcome Ending}
    (h : ((told other rest).heardAt louder).ComesTo exposed disk loud) :
    ∃ quiet, ((told worker rest).heardAt level).ComesTo exposed disk quiet ∧
      Echoes worker other level quiet loud := by
  obtain ⟨ending', hcomes', rfl⟩ := Script.comesTo_heardAt.mp h
  obtain ⟨ending, hcomes, ⟨hdisk, halike⟩, hnotes⟩ :=
    matches_told hterms.symm hfair ending' hcomes'
  have hflipped : List.Forall₂ (flip (worker.NoteAlike other)) ending'.notes ending.notes :=
    hnotes.imp fun _ _ hnote => hnote.symm
  exact ⟨_, Script.comesTo_heardAt.mpr ⟨ending, hcomes, rfl⟩,
    echoes_of_alike hle hdisk.symm halike.symm hflipped.flip⟩

theorem isNoteLine_heardAt {level : Level} (disk : Disk) :
    ∀ line ∈ ((told worker rest).heardAt level |>.run disk).notes.map noteLine,
      IsNoteLine line := by
  intro line hline
  rw [Script.run_heardAt] at hline
  obtain ⟨note, hnote, rfl⟩ := List.mem_map.mp hline
  exact ⟨note.text, rfl, tellsLines_told worker rest disk note (List.mem_filter.mp hnote).1⟩

/-- **The level only adds notes.** Two runs with the same command, at levels chosen by switches, end
with the same code and output and on the same disk, and complain alike. At the lower level some of
the lines with notes are missing, each as a whole, and nothing else. The runs are by one worker, or
by two who are on equal terms and may then name themselves where they name a temporary file. All
this is also so if requests other than a removal meet faults from outside. -/
theorem levels_only_add_notes {flags others rest : List String} {level louder : Level}
    (hlevel : Choose flags level) (hlouder : Choose others louder) (hle : level.rank ≤ louder.rank)
    (hrest : NoSwitch rest) {disk : Disk} {worker other : Worker}
    (hterms : OnEqualTerms disk worker other rest) :
    let quiet := run worker (flags ++ rest)
    let loud := run other (others ++ rest)
    (∀ outcome, quiet.ComesTo Disk.Request.butRemoval disk outcome → ∃ outcome',
      loud.ComesTo Disk.Request.butRemoval disk outcome' ∧
        Echoes worker other level outcome outcome') ∧
    (∀ outcome', loud.ComesTo Disk.Request.butRemoval disk outcome' → ∃ outcome,
      quiet.ComesTo Disk.Request.butRemoval disk outcome ∧
        Echoes worker other level outcome outcome') ∧
    Echoes worker other level (quiet.run disk) (loud.run disk) ∧
    (worker = other → (quiet.run disk).value = (loud.run disk).value) ∧
    ∃ kept heard lines : List String, heard.Sublist lines ∧
      List.Forall₂ (worker.Alike other) kept heard ∧ (∀ line ∈ kept ++ lines, IsNoteLine line) ∧
      errorText (quiet.run disk) = String.join kept ++ (quiet.run disk).value.complaint ∧
      errorText (loud.run disk) = String.join lines ++ (loud.run disk).value.complaint := by
  -- both runs are those that tell all, heard at their levels
  have hquiet := run_eq_heardAt hlevel hrest worker
  have hloud := run_eq_heardAt hlouder hrest other
  simp only [hquiet, hloud]
  have hechoes : Echoes worker other level ((told worker rest).heardAt level |>.run disk)
      ((told other rest).heardAt louder |>.run disk) := by
    obtain ⟨loud, hcomes, hechoes⟩ :=
      exists_echo hle hterms Disk.Request.fair_none (Script.comesTo_run.mpr rfl)
    rwa [Script.comesTo_run.mp hcomes] at hechoes
  refine ⟨fun _ => exists_echo hle hterms Disk.Request.fair_butRemoval,
    fun _ => exists_echoing hle hterms Disk.Request.fair_butRemoval, hechoes, ?_, ?_⟩
  · rintro rfl
    exact hechoes.ending.eq
  · obtain ⟨heard, hsublist, hheard⟩ := hechoes.heard
    exact ⟨_, heard, _, hsublist, hheard,
      List.forall_mem_append.mpr ⟨isNoteLine_heardAt disk, isNoteLine_heardAt disk⟩, rfl, rfl⟩

/-- Two workers post a sample alike, and in silence nothing is told of it. -/
theorem levels_only_add_notes_postDisk :
    errorText ((run ⟨7, 8⟩ ["-q", "append", "l", "a", "op", "1", "8", "2"]).run postDisk) = "" ∧
      errorText ((run ⟨9, 8⟩ ["-v", "append", "l", "a", "op", "1", "8", "2"]).run postDisk) ≠ "" ∧
      Echoes ⟨7, 8⟩ ⟨9, 8⟩ .quiet
        ((run ⟨7, 8⟩ ["-q", "append", "l", "a", "op", "1", "8", "2"]).run postDisk)
        ((run ⟨9, 8⟩ ["-v", "append", "l", "a", "op", "1", "8", "2"]).run postDisk) := by
  have hquiet : Choose ["-q"] .quiet := ⟨⟨0, 0, 1⟩, rfl, rfl, rfl⟩
  have hinfo : Choose ["-v"] .info := ⟨⟨1, 0, 0⟩, rfl, rfl, rfl⟩
  have hrest : NoSwitch ["append", "l", "a", "op", "1", "8", "2"] := by decide
  have hledger : ledger? ["append", "l", "a", "op", "1", "8", "2"] = some ⟨"l"⟩ := by
    decide +kernel
  have hterms : OnEqualTerms postDisk ⟨7, 8⟩ ⟨9, 8⟩ ["append", "l", "a", "op", "1", "8", "2"] := by
    refine Or.inr ⟨trivial, ?_⟩
    rw [hledger]
    rintro _ ⟨⟩
    exact ⟨by decide +kernel, by decide +kernel, by decide +kernel⟩
  obtain ⟨-, -, hechoes, -⟩ := levels_only_add_notes hquiet hinfo (by decide) hrest hterms
  exact ⟨by decide +kernel, by decide +kernel, hechoes⟩

/-- A disk with a ledger, and a directory under the temporary name of a worker for it. -/
def crowdedDisk : Disk :=
  ⟨[(["r"], .file Disk.Node.fileMode "DS\n".toUTF8),
    (["r.tmp~7-8"], .directory Disk.Node.directoryMode)], {}⟩

/-- A sample is posted to this ledger. -/
def crowdedRun (worker : Worker) (flags : List String) : Script.Outcome Ending :=
  (run worker (flags ++ ["append", "r", "a", "op", "1", "8", "2"])).run crowdedDisk

/-- **Two runs at two levels can end with different codes**, as one of the two workers is hampered;
what it complains of names it. -/
theorem crowdedRun_code_ne :
    (crowdedRun ⟨7, 8⟩ ["-q"]).value.code = 1 ∧ (crowdedRun ⟨9, 8⟩ ["-v"]).value.code = 0 ∧
      (crowdedRun ⟨7, 8⟩ ["-q"]).value.complaint = blame ["writing results file \"r\"",
        "IO error while writing temporary file \"/r.tmp~7-8\": Is a directory (os error 21)"] := by
  decide +kernel

end CommandLine

end BenchLedger
