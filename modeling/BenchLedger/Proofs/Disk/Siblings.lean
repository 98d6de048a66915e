import BenchLedger.Proofs.Disk.Names

/-! # Temporary files stand beside their targets

Two spellings of a path say the same if they have the same components: slashes after the first and
points lead nowhere, but a slash or a point at the beginning says where the path starts
(`Path.components`).

A path names a file just if its last component is a name, and the path of the temporary file then
has the same components but for the last, which is longer by the suffix of the worker
(`scratch?_eq_some`). So it is another path than that of the file, and files of different names or
in different directories get different temporary files (`scratch?_sibling`). -/

namespace BenchLedger.Disk.Path

/-- A step of a path. -/
inductive Component where
  /-- The slash at the beginning. -/
  | root
  /-- A point at the beginning. -/
  | here
  /-- Two points. -/
  | up
  | name (text : List Char)
  deriving DecidableEq, Repr

/-- The step that a piece takes if it leads somewhere. -/
def Component.ofPiece (piece : List Char) : Component :=
  if piece = ['.', '.'] then .up else .name piece

/-- Where a path says that it starts. -/
def start (text : List Char) : List Component :=
  if text.head? = some '/' then [.root]
  else if (pieces text).head? = some ['.'] then [.here]
  else []

/-- The steps of some pieces, the idle ones passed over. -/
def steps (way : List (List Char)) : List Component :=
  (way.filter (!isIdle ·)).map Component.ofPiece

/-- **The components of a path.** -/
def components (path : Path) : List Component :=
  start path.text.toList ++ steps (pieces path.text.toList)

/-! ### Steps -/

theorem steps_append (way more : List (List Char)) :
    steps (way ++ more) = steps way ++ steps more := by
  rw [steps, List.filter_append, List.map_append]
  rfl

theorem steps_name {piece : List Char} (h : isName piece = true) :
    steps [piece] = [.name piece] := by
  obtain ⟨hidle, hpoints⟩ := Bool.and_eq_true_iff.mp h
  have hpoints : piece ≠ ['.', '.'] := of_decide_eq_true hpoints
  simp [steps, hidle, Component.ofPiece, hpoints]

theorem steps_idle {piece : List Char} (h : isIdle piece = true) : steps [piece] = [] := by
  simp [steps, h]

theorem filter_dropWhile_isIdle (way : List (List Char)) :
    (way.dropWhile isIdle).filter (!isIdle ·) = way.filter (!isIdle ·) := by
  induction way with
  | nil => rfl
  | cons piece way ih =>
    by_cases h : isIdle piece = true
    · rw [List.dropWhile_cons_of_pos h, ih, List.filter_cons_of_neg (by simp [h])]
    · rw [List.dropWhile_cons_of_neg h]

/-- **Pieces settle without a change of their steps.** -/
theorem steps_settle (way : List (List Char)) : steps (settle way) = steps way := by
  cases way with
  | nil => rfl
  | cons first rest =>
    have hrest : steps (rest.reverse.dropWhile isIdle).reverse = steps rest := by
      rw [steps, List.filter_reverse, filter_dropWhile_isIdle, ← List.filter_reverse,
        List.reverse_reverse]
      rfl
    rw [settle, ← List.singleton_append, steps_append, hrest, ← steps_append, List.singleton_append]

theorem settle_eq_singleton {way : List (List Char)} {last : List Char}
    (h : (settle way).getLast? = some last) (hidle : isIdle last = true) : settle way = [last] := by
  cases way with
  | nil => cases h
  | cons first rest =>
    rw [settle] at h ⊢
    cases hrest : rest.reverse.dropWhile isIdle with
    | nil =>
      rw [hrest, List.reverse_nil] at h
      obtain rfl : first = last := Option.some.inj h
      rfl
    | cons piece front =>
      have hpiece := List.head?_dropWhile_not isIdle rest.reverse
      rw [hrest] at h hpiece
      have hlast : (first :: (piece :: front).reverse).getLast? = some piece := by
        rw [List.reverse_cons, ← List.cons_append, List.getLast?_concat]
      obtain rfl : piece = last := Option.some.inj (hlast.symm.trans h)
      simp [hidle] at hpiece

/-! ### Where a path starts -/

theorem head?_eq_slash_iff (text : List Char) : text.head? = some '/' ↔
    (pieces text).head? = some [] ∧ (pieces text).tail ≠ [] := by
  cases text with
  | nil => simp [pieces]
  | cons c text =>
    obtain ⟨piece, rest, hpieces⟩ := List.exists_cons_of_ne_nil (pieces_ne_nil text)
    by_cases hc : c = '/'
    · simp [pieces, hc, hpieces]
    · simp [pieces, hc, hpieces]

theorem start_congr {text text' : List Char}
    (hhead : (pieces text).head? = (pieces text').head?)
    (htail : (pieces text).tail = [] ↔ (pieces text').tail = []) : start text = start text' := by
  have hslash : text.head? = some '/' ↔ text'.head? = some '/' := by
    rw [head?_eq_slash_iff, head?_eq_slash_iff, hhead, Ne, htail]
  simp only [start, hslash, hhead]

theorem start_of_isName {text piece : List Char} (h : (pieces text).head? = some piece)
    (hname : isName piece = true) : start text = [] := by
  have hempty : piece ≠ [] := by rintro rfl; cases hname
  have hpoint : piece ≠ ['.'] := by rintro rfl; cases hname
  have hslash : ¬ text.head? = some '/' := by
    rw [head?_eq_slash_iff, h]
    exact fun hroot => hempty (Option.some.inj hroot.1)
  rw [start, if_neg hslash, h, if_neg fun hsame => hpoint (Option.some.inj hsame)]

/-! ### The path of the temporary file -/

theorem isName_append_suffix (worker : Worker) (name : List Char) :
    isName (name ++ worker.suffix) = true := by
  have hlong : 2 < (name ++ worker.suffix).length := by
    have hmark : ".tmp~".toList.length = 5 := by decide
    unfold Worker.suffix
    simp only [List.length_append]
    omega
  generalize name ++ worker.suffix = piece at hlong
  have hshort : ∀ other : List Char, other.length ≤ 2 → piece ≠ other := by
    rintro other hother rfl
    omega
  simp [isName, isIdle, hshort [] (by decide), hshort ['.'] (by decide),
    hshort ['.', '.'] (by decide)]

theorem head?_settle (way : List (List Char)) : (settle way).head? = way.head? := by
  cases way <;> rfl

section Scratch
variable {text name : List Char} {way : List (List Char)}

theorem pieces_scratch (worker : Worker) (hway : settle (pieces text) = way ++ [name]) :
    pieces (join (settle way ++ [name ++ worker.suffix])) =
      settle way ++ [name ++ worker.suffix] := by
  have hslash : ∀ piece ∈ way ++ [name], '/' ∉ piece := fun piece hpiece =>
    not_mem_of_mem_pieces (mem_settle (hway ▸ hpiece))
  rw [List.forall_mem_append, List.forall_mem_singleton] at hslash
  refine pieces_join (List.append_ne_nil_of_right_ne_nil _ (List.cons_ne_nil _ _)) ?_
  rw [List.forall_mem_append, List.forall_mem_singleton, List.mem_append, not_or]
  exact ⟨fun piece hpiece => hslash.1 piece (mem_settle hpiece), hslash.2,
    worker.slash_not_mem_suffix⟩

theorem start_scratch (worker : Worker) (hway : settle (pieces text) = way ++ [name])
    (hname : isName name = true) :
    start (join (settle way ++ [name ++ worker.suffix])) = start text := by
  have hpieces := pieces_scratch worker hway
  have hhead : (way ++ [name]).head? = (pieces text).head? := by rw [← hway, head?_settle]
  cases way with
  | nil =>
    rw [start_of_isName hhead.symm hname,
      start_of_isName (by rw [hpieces]; rfl) (isName_append_suffix worker name)]
  | cons first rest =>
    -- More than one piece in both, and the same first one.
    refine start_congr (by rw [hpieces, ← hhead]; rfl) (iff_of_false ?_ fun htail => ?_)
    · rw [hpieces]
      simp [settle]
    · obtain ⟨piece, more, hmore⟩ := List.exists_cons_of_ne_nil (pieces_ne_nil text)
      rw [hmore] at htail hway
      obtain rfl : more = [] := htail
      have hlength := congrArg List.length hway
      simp [settle] at hlength

end Scratch

/-- **The path of the temporary file** has the components of the path of the file, and the suffix at
the end of the last. -/
theorem scratch?_eq_some {worker : Worker} {path scratch : Path}
    (h : path.scratch? worker = some scratch) : ∃ front name,
      path.components = front ++ [.name name] ∧
      scratch.components = front ++ [.name (name ++ worker.suffix)] := by
  unfold scratch? split? at h
  simp only [Option.map_map, Option.map_eq_some_iff, Option.filter_eq_some_iff] at h
  obtain ⟨name, ⟨hlast, hname⟩, rfl⟩ := h
  obtain ⟨way, hway⟩ := List.getLast?_eq_some_iff.mp hlast
  have hsteps := steps_settle (pieces path.text.toList)
  rw [hway] at hsteps
  refine ⟨start path.text.toList ++ steps way, name, ?_, ?_⟩
  · rw [components, ← hsteps, steps_append, steps_name hname, List.append_assoc]
  · simp only [Function.comp_apply, hway, List.dropLast_concat]
    rw [components, String.toList_ofList, start_scratch worker hway hname,
    pieces_scratch worker hway,
      steps_append, steps_settle, steps_name (isName_append_suffix worker name), List.append_assoc]

theorem nameless_of_scratch?_eq_none {worker : Worker} {path : Path}
    (h : path.scratch? worker = none) :
    path.components ∈ [[], [.root], [.here]] ∨ path.components.getLast? = some .up := by
  unfold scratch? split? at h
  simp only [Option.map_eq_none_iff, Option.filter_eq_none_iff] at h
  have hne : settle (pieces path.text.toList) ≠ [] := by
    rw [Ne, ← List.head?_eq_none_iff, head?_settle, List.head?_eq_none_iff]
    exact pieces_ne_nil _
  obtain ⟨last, hlast⟩ := Option.isSome_iff_exists.mp (List.getLast?_isSome.mpr hne)
  have hname : ¬ isName last = true := h last hlast
  rw [components, ← steps_settle]
  by_cases hidle : isIdle last = true
  · left
    rw [settle_eq_singleton hlast hidle, steps_idle hidle, List.append_nil, start]
    split_ifs <;> simp
  · right
    obtain ⟨way, hway⟩ := List.getLast?_eq_some_iff.mp hlast
    have hpoints : last = ['.', '.'] := by
      by_contra hpoints
      exact hname (by simp [isName, hidle, hpoints])
    have hup : steps [last] = [.up] := by rw [hpoints]; rfl
    rw [hway, steps_append, hup, ← List.append_assoc, List.getLast?_concat]

/-- **The temporary file stands beside its target.** A path names no file just if it is empty, the
root or a single point, or ends in two points. The temporary file of any other path has the same
components but for the last, which is followed by the suffix of the worker, so its path is another;
and two paths have the same temporary file for a worker just if they have the same components. -/
theorem scratch?_sibling (worker : Worker) (path : Path) :
    (path.scratch? worker = none ↔
      path.components ∈ [[], [.root], [.here]] ∨ path.components.getLast? = some .up) ∧
    ∀ scratch, path.scratch? worker = some scratch →
      (∃ front name, path.components = front ++ [.name name] ∧
        scratch.components = front ++ [.name (name ++ worker.suffix)]) ∧
      scratch ≠ path ∧
      ∀ other scratch' : Path, other.scratch? worker = some scratch' →
        (scratch.components = scratch'.components ↔ path.components = other.components) := by
  refine ⟨⟨nameless_of_scratch?_eq_none, fun hnameless => ?_⟩, fun scratch hscratch => ?_⟩
  · by_contra hsome
    obtain ⟨scratch, hscratch⟩ := Option.ne_none_iff_exists'.mp hsome
    obtain ⟨front, name, hpath, -⟩ := scratch?_eq_some hscratch
    rw [hpath, List.getLast?_concat] at hnameless
    rcases hnameless with hmem | hup
    · have hlast : ∀ other ∈ ([[], [.root], [.here]] : List (List Component)),
          other.getLast? ≠ some (.name name) := by simp
      exact hlast _ hmem List.getLast?_concat
    · cases hup
  · obtain ⟨front, name, hpath, hcomponents⟩ := scratch?_eq_some hscratch
    refine ⟨⟨front, name, hpath, hcomponents⟩, ?_, fun other scratch' hscratch' => ?_⟩
    · rintro rfl
      have hsame := List.append_cancel_left (hcomponents.symm.trans hpath)
      simp [worker.suffix_ne_nil] at hsame
    · obtain ⟨front', name', hother, hcomponents'⟩ := scratch?_eq_some hscratch'
      rw [hpath, hother, hcomponents, hcomponents']
      simp

/-- Two spellings of one path, with the same temporary file, and paths that name no file. -/
theorem scratch?_sibling_spellings :
    (⟨".//d/./r/."⟩ : Path).scratch? ⟨7, 8⟩ = some ⟨".//d/r.tmp~7-8"⟩ ∧
      (⟨".//d/r.tmp~7-8"⟩ : Path).components = (⟨"./d/r.tmp~7-8"⟩ : Path).components ∧
      (⟨"d/.."⟩ : Path).scratch? ⟨7, 8⟩ = none ∧ (⟨"//./"⟩ : Path).scratch? ⟨7, 8⟩ = none := by
  have hscratch : (⟨".//d/./r/."⟩ : Path).scratch? ⟨7, 8⟩ = some ⟨".//d/r.tmp~7-8"⟩ := by
    decide +kernel
  have hscratch' : (⟨"./d/r"⟩ : Path).scratch? ⟨7, 8⟩ = some ⟨"./d/r.tmp~7-8"⟩ := by decide +kernel
  obtain ⟨-, -, hsame⟩ := (scratch?_sibling ⟨7, 8⟩ _).2 _ hscratch
  exact ⟨hscratch, (hsame _ _ hscratch').mpr (by decide +kernel),
    (scratch?_sibling ⟨7, 8⟩ _).1.mpr (Or.inr (by decide +kernel)),
    (scratch?_sibling ⟨7, 8⟩ _).1.mpr (Or.inl (by decide +kernel))⟩

end BenchLedger.Disk.Path
