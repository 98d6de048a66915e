import BenchLedger.Disk.Operation
import Mathlib.Tactic.Common

/-! # Names and their paths

The path of a location is read as the names on the way to it (`names_path`). The temporary file of a
worker beside an entry is in the same directory, under a longer name (`scratch?_path`). -/

namespace BenchLedger.Disk

/-- What can stand between two slashes. -/
def IsPiece (name : String) : Prop := name ≠ "" ∧ '/' ∉ name.toList

/-- A name that an entry can have. -/
structure IsName (name : String) : Prop where
  piece : IsPiece name
  ne_point : name ≠ "."
  ne_points : name ≠ ".."
  short : name.utf8ByteSize ≤ maxName

namespace Path

/-! ### Pieces -/

theorem pieces_of_not_mem {piece : List Char} (h : '/' ∉ piece) : pieces piece = [piece] := by
  induction piece with
  | nil => rfl
  | cons c piece ih =>
    rw [List.mem_cons, not_or] at h
    rw [pieces, if_neg (Ne.symm h.1), ih h.2]

theorem pieces_append_slash {piece : List Char} (h : '/' ∉ piece) (text : List Char) :
    pieces (piece ++ '/' :: text) = piece :: pieces text := by
  induction piece with
  | nil => rfl
  | cons c piece ih =>
    rw [List.mem_cons, not_or] at h
    rw [List.cons_append, pieces, if_neg (Ne.symm h.1), ih h.2]

theorem join_cons_cons (piece next : List Char) (way : List (List Char)) :
    join (piece :: next :: way) = piece ++ '/' :: join (next :: way) := rfl

/-- **Joined pieces are the pieces of the text.** -/
theorem pieces_join {way : List (List Char)} (hne : way ≠ []) (h : ∀ piece ∈ way, '/' ∉ piece) :
    pieces (join way) = way := by
  induction way with
  | nil => exact absurd rfl hne
  | cons piece way ih =>
    rw [List.forall_mem_cons] at h
    cases way with
    | nil => exact pieces_of_not_mem h.1
    | cons next way =>
      rw [join_cons_cons, pieces_append_slash h.1, ih (List.cons_ne_nil _ _) h.2]

theorem not_mem_of_mem_pieces {text piece : List Char} (h : piece ∈ pieces text) :
    '/' ∉ piece := by
  induction text generalizing piece with
  | nil =>
    rw [List.mem_singleton.mp h]
    exact List.not_mem_nil
  | cons c text ih =>
    obtain ⟨first, rest, hpieces⟩ := List.exists_cons_of_ne_nil (pieces_ne_nil text)
    rw [hpieces] at ih
    by_cases hc : c = '/'
    · rw [pieces, if_pos hc, hpieces, List.mem_cons] at h
      rcases h with rfl | h
      · exact List.not_mem_nil
      · exact ih h
    · rw [pieces, if_neg hc, hpieces] at h
      dsimp only at h
      rw [List.mem_cons] at h
      rcases h with rfl | h
      · rw [List.mem_cons, not_or]
        exact ⟨Ne.symm hc, ih List.mem_cons_self⟩
      · exact ih (List.mem_cons_of_mem _ h)

theorem isPiece_of_mem_names {text : List Char} {name : String} (h : name ∈ names text) :
    IsPiece name := by
  have hpiece : ∀ piece ∈ (pieces text).filter (· ≠ []), IsPiece (String.ofList piece) := by
    intro piece hp
    obtain ⟨hmem, hne⟩ := List.mem_filter.mp hp
    refine ⟨?_, ?_⟩
    · intro hempty
      have := congrArg String.toList hempty
      rw [String.toList_ofList] at this
      exact absurd this (by simpa using hne)
    · rw [String.toList_ofList]
      exact not_mem_of_mem_pieces hmem
  obtain ⟨piece, hp, rfl⟩ := List.mem_map.mp h
  split_ifs at hp
  · rcases List.mem_append.mp hp with hp | hp
    · exact hpiece piece hp
    · rw [List.mem_singleton.mp hp]
      exact ⟨by decide, by decide⟩
  · exact hpiece piece hp

end Path

namespace Path

theorem getLast?_join {way : List (List Char)} {last : List Char} (h : way.getLast? = some last)
    (hne : last ≠ []) : (join way).getLast? = last.getLast? := by
  induction way with
  | nil => cases h
  | cons piece way ih =>
    cases way with
    | nil =>
      obtain rfl : piece = last := Option.some.inj h
      rfl
    | cons next way =>
      rw [List.getLast?_cons_cons] at h
      have hlast := ih h
      obtain ⟨c, hc⟩ := Option.isSome_iff_exists.mp (List.getLast?_isSome.mpr hne)
      rw [join_cons_cons, List.getLast?_append, List.getLast?_cons, hlast, hc]
      rfl

end Path

/-! ### The path of a location -/

namespace Location

variable {name : String} {directory location : Location}

/-- The pieces of the path of a location: the first one is empty, as the path begins at the root. -/
def pieces (location : Location) : List (List Char) := [] :: location.reverse.map String.toList

theorem pieces_cons (name : String) (directory : Location) :
    pieces (name :: directory) = pieces directory ++ [name.toList] := by
  rw [pieces, List.reverse_cons, List.map_append]
  rfl

theorem toList_intercalate {names : List String} (h : names ≠ []) :
    ("/" ++ "/".intercalate names).toList = Path.join ([] :: names.map String.toList) := by
  have hjoin : ∀ names : List String, ("/".intercalate names).toList =
      Path.join (names.map String.toList) := by
    intro names
    induction names with
    | nil => rfl
    | cons first names ih =>
      cases names with
      | nil => rw [String.intercalate_singleton]; rfl
      | cons next names =>
        rw [String.intercalate_cons_cons, String.toList_append, String.toList_append, ih]
        simp [Path.join]
  obtain ⟨first, rest, rfl⟩ := List.exists_cons_of_ne_nil h
  rw [String.toList_append, hjoin]
  rfl

theorem toList_path (name : String) (directory : Location) :
    (Location.path (name :: directory)).text.toList =
      Path.join (Location.pieces (name :: directory)) :=
  toList_intercalate (by simp)

theorem pieces_path (h : ∀ x ∈ name :: directory, IsPiece x) :
    Path.pieces (Location.path (name :: directory)).text.toList =
      Location.pieces (name :: directory) := by
  rw [toList_path]
  refine Path.pieces_join (List.cons_ne_nil _ _) ?_
  refine List.forall_mem_cons.mpr ⟨List.not_mem_nil, fun piece hpiece => ?_⟩
  obtain ⟨x, hx, rfl⟩ := List.mem_map.mp hpiece
  exact (h x (List.mem_reverse.mp hx)).2

theorem head?_path (name : String) (directory : Location) :
    (Location.path (name :: directory)).text.toList.head? = some '/' := by
  obtain ⟨piece, way, hway⟩ : ∃ piece way, (name :: directory).reverse.map String.toList =
      piece :: way := List.exists_cons_of_ne_nil (by simp)
  rw [toList_path, pieces, hway, Path.join_cons_cons]
  rfl

theorem getLast?_path (h : IsPiece name) (directory : Location) :
    (Location.path (name :: directory)).text.toList.getLast? = name.toList.getLast? := by
  rw [toList_path]
  refine Path.getLast?_join ?_ ?_
  · simp [Location.pieces, List.getLast?_cons]
  · intro hempty
    exact h.1 (String.toList_eq_nil_iff.mp hempty)

theorem getLast?_path_ne (h : IsPiece name) (directory : Location) :
    (Location.path (name :: directory)).text.toList.getLast? ≠ some '/' := by
  rw [getLast?_path h]
  intro hlast
  exact h.2 (List.mem_of_getLast? hlast)

/-- **The names in the path of a location are the names on the way to it.** -/
theorem names_path (h : ∀ x ∈ name :: directory, IsPiece x) :
    Path.names (Location.path (name :: directory)).text.toList = (name :: directory).reverse := by
  have hpieces : (Location.pieces (name :: directory)).filter (· ≠ []) =
      (name :: directory).reverse.map String.toList := by
    rw [Location.pieces, List.filter_cons_of_neg (by simp), List.filter_eq_self]
    intro piece hpiece
    obtain ⟨x, hx, rfl⟩ := List.mem_map.mp hpiece
    have hne : x ≠ "" := (h x (List.mem_reverse.mp hx)).1
    simpa using hne
  have hslash := getLast?_path_ne (h name List.mem_cons_self) directory
  unfold Path.names
  simp only [pieces_path h, hpieces, hslash, and_false, if_false, List.map_map]
  simp [Function.comp_def]

theorem bare_path (h : IsPiece name) (directory : Location) :
    (Location.path (name :: directory)).bare = Location.path (name :: directory) := by
  have hslash := getLast?_path_ne h directory
  unfold Path.bare
  generalize Location.path (name :: directory) = path at hslash
  have hreverse : path.text.toList.reverse.dropWhile (· = '/') = path.text.toList.reverse := by
    rw [List.getLast?_eq_head?_reverse] at hslash
    cases hlist : path.text.toList.reverse with
    | nil => rfl
    | cons c rest =>
      rw [hlist] at hslash
      have hc : c ≠ '/' := fun hc => hslash (congrArg some hc)
      rw [List.dropWhile_cons_of_neg (by simpa using hc)]
  rw [hreverse, List.reverse_reverse, String.ofList_toList]

end Location

/-! ### Temporary names -/

/-- The name of the temporary file for a name. -/
def Worker.scratch (worker : Worker) (name : String) : String :=
  name ++ String.ofList worker.suffix

theorem Worker.slash_not_mem_suffix (worker : Worker) : '/' ∉ worker.suffix := by
  have hdigits : ∀ n, '/' ∉ Nat.toDigits 10 n := fun n h =>
    absurd (Nat.isDigit_of_mem_toDigits (by decide) (by decide) h) (by decide)
  unfold Worker.suffix
  simp only [List.mem_append, List.mem_cons, not_or]
  exact ⟨⟨by decide, hdigits _⟩, by decide, hdigits _⟩

theorem Worker.suffix_ne_nil (worker : Worker) : worker.suffix ≠ [] := by
  unfold Worker.suffix
  simp

theorem Worker.toList_scratch (worker : Worker) (name : String) :
    (worker.scratch name).toList = name.toList ++ worker.suffix := by
  rw [Worker.scratch, String.toList_append, String.toList_ofList]

theorem Worker.isPiece_scratch (worker : Worker) {name : String} (h : IsPiece name) :
    IsPiece (worker.scratch name) := by
  constructor
  · intro hempty
    have hlist := congrArg String.toList hempty
    rw [worker.toList_scratch] at hlist
    exact worker.suffix_ne_nil (List.append_eq_nil_iff.mp hlist).2
  · rw [worker.toList_scratch, List.mem_append, not_or]
    exact ⟨h.2, worker.slash_not_mem_suffix⟩

theorem Worker.scratch_ne (worker : Worker) (name : String) : worker.scratch name ≠ name := by
  intro heq
  have hlist := congrArg String.toList heq
  rw [worker.toList_scratch, List.append_right_eq_self] at hlist
  exact worker.suffix_ne_nil hlist

theorem Worker.scratch_ne_points (worker : Worker) (name : String) :
    worker.scratch name ≠ "." ∧ worker.scratch name ≠ ".." := by
  have hlong : ∀ text : String, worker.scratch name = text → 5 ≤ text.toList.length := by
    rintro text rfl
    have hmark : ".tmp~".toList.length = 5 := by decide
    rw [worker.toList_scratch]
    unfold Worker.suffix
    simp only [List.length_append]
    omega
  exact ⟨fun heq => absurd (hlong _ heq) (by decide), fun heq => absurd (hlong _ heq) (by decide)⟩

namespace Path

theorem isName_toList {name : String} (h : IsName name) : isName name.toList = true := by
  have hne : name.toList ≠ [] := mt String.toList_eq_nil_iff.mp h.piece.1
  have hpoint : name.toList ≠ ['.'] := fun heq => h.ne_point (String.ext heq)
  have hpoints : name.toList ≠ ['.', '.'] := fun heq => h.ne_points (String.ext heq)
  simp [isName, isIdle, hne, hpoint, hpoints]

theorem settle_pieces {location : Location} (h : ∀ x ∈ location, IsName x) :
    settle location.pieces = location.pieces := by
  show [] :: (((location.reverse.map String.toList).reverse.dropWhile isIdle).reverse) = _
  rw [← List.map_reverse, List.reverse_reverse]
  cases location with
  | nil => rfl
  | cons name directory =>
    have hname := isName_toList (h name List.mem_cons_self)
    have hidle : ¬ isIdle name.toList = true := by
      intro hidle
      simp [isName, hidle] at hname
    rw [List.map_cons, List.dropWhile_cons_of_neg hidle, ← List.map_cons, ← List.map_reverse]
    rfl

/-- **The temporary file of a worker beside an entry.** -/
theorem scratch?_path (worker : Worker) {name : String} {directory : Location}
    (h : ∀ x ∈ name :: directory, IsName x) :
    (Location.path (name :: directory)).scratch? worker =
      some (Location.path (worker.scratch name :: directory)) := by
  have hsplit : (Location.path (name :: directory)).split? =
      some (directory.pieces, name.toList) := by
    have hname := isName_toList (h name List.mem_cons_self)
    have hdirectory := settle_pieces fun x hx => h x (List.mem_cons_of_mem name hx)
    unfold split?
    simp only [Location.pieces_path fun x hx => (h x hx).piece, settle_pieces h]
    simp only [Location.pieces_cons, List.getLast?_concat, List.dropLast_concat, hdirectory,
      Option.filter_some_pos hname, Option.map_some]
  unfold scratch?
  rw [hsplit, Option.map_some]
  congr 1
  have htext : (Location.path (worker.scratch name :: directory)).text.toList =
      join (directory.pieces ++ [name.toList ++ worker.suffix]) := by
    rw [Location.toList_path, Location.pieces_cons, worker.toList_scratch]
  rw [← htext, String.ofList_toList]

/-! ### Last names -/

theorem mem_settle {way : List (List Char)} {piece : List Char} (h : piece ∈ settle way) :
    piece ∈ way := by
  cases way with
  | nil => exact h
  | cons first rest =>
    rw [settle, List.mem_cons, List.mem_reverse] at h
    rcases h with rfl | h
    · exact List.mem_cons_self
    · have hmem := (List.dropWhile_suffix isIdle).subset h
      exact List.mem_cons_of_mem first (List.mem_reverse.mp hmem)

theorem getLast?_settle {way : List (List Char)} {last : List Char} (h : way.getLast? = some last)
    (hidle : isIdle last = false) : (settle way).getLast? = some last := by
  obtain ⟨front, rfl⟩ := List.getLast?_eq_some_iff.mp h
  cases front with
  | nil => rfl
  | cons first front =>
    rw [List.cons_append, settle, List.reverse_append, List.reverse_singleton,
      List.singleton_append, List.dropWhile_cons_of_neg (by simp [hidle])]
    simp [List.getLast?_cons]

theorem getLast?_names {way : List (List Char)} {last : List Char} (h : way.getLast? = some last)
    (hne : last ≠ []) (hway : ∀ piece ∈ way, '/' ∉ piece) :
    (names (join way)).getLast? = some (String.ofList last) := by
  have hslash : (join way).getLast? ≠ some '/' := by
    rw [getLast?_join h hne]
    exact fun hlast => hway last (List.mem_of_getLast? h) (List.mem_of_getLast? hlast)
  obtain ⟨front, rfl⟩ := List.getLast?_eq_some_iff.mp h
  unfold names
  simp only [pieces_join (List.append_ne_nil_of_right_ne_nil front (List.cons_ne_nil last [])) hway,
    hslash, and_false, if_false]
  rw [List.filter_append, List.filter_cons_of_pos (by simpa using hne), List.filter_nil,
    List.map_append, List.map_singleton, List.getLast?_concat]

theorem ne_nil_of_getLast?_pieces {text last : List Char} (h : (pieces text).getLast? = some last)
    (htext : text ≠ []) (hslash : text.getLast? ≠ some '/') : last ≠ [] := by
  rintro rfl
  obtain ⟨front, hfront⟩ := List.getLast?_eq_some_iff.mp h
  have hjoin : ∀ front : List (List Char), front ≠ [] →
      (join (front ++ [[]])).getLast? = some '/' := by
    intro front hne
    induction front with
    | nil => exact absurd rfl hne
    | cons piece front ih =>
      cases front with
      | nil => simp [join]
      | cons next front =>
        have hlast := ih (List.cons_ne_nil next front)
        rw [List.cons_append] at hlast
        rw [List.cons_append, List.cons_append, join_cons_cons, List.getLast?_append,
          List.getLast?_cons, hlast]
        rfl
  have htext' := join_pieces text
  rw [hfront] at htext'
  cases front with
  | nil => exact htext htext'.symm
  | cons piece front =>
    rw [← htext'] at hslash
    exact hslash (hjoin (piece :: front) (List.cons_ne_nil piece front))

theorem getLast?_of_bare {path : Path} (h : path.bare = path) :
    path.text.toList.getLast? ≠ some '/' := by
  intro hlast
  have htext := congrArg (fun path : Path => path.text.toList.getLast?) h
  simp only [bare, String.toList_ofList, List.getLast?_reverse] at htext
  rw [hlast] at htext
  have hslash := List.head?_dropWhile_not (· = '/') path.text.toList.reverse
  rw [htext] at hslash
  simp at hslash

/-- **The last name in a temporary path** is the one for the last name in the path of the file,
unless that is a point. -/
theorem scratch?_last {worker : Worker} {target scratch : Path} (hbare : target.bare = target)
    (h : target.scratch? worker = some scratch) :
    ∃ last, (names scratch.text.toList).getLast? = some (worker.scratch last) ∧
      ((names target.text.toList).getLast? = some "." ∨
        (names target.text.toList).getLast? = some last ∧ last ≠ "." ∧ last ≠ "..") := by
  unfold scratch? split? at h
  simp only [Option.map_map, Option.map_eq_some_iff, Option.filter_eq_some_iff] at h
  obtain ⟨name, ⟨hname, hisName⟩, rfl⟩ := h
  have hpieces : ∀ piece ∈ settle (pieces target.text.toList), '/' ∉ piece := fun piece hpiece =>
    not_mem_of_mem_pieces (mem_settle hpiece)
  have hway : ∀ piece ∈ settle (settle (pieces target.text.toList)).dropLast ++
      [name ++ worker.suffix], '/' ∉ piece := by
    refine List.forall_mem_append.mpr ⟨fun piece hpiece => ?_, List.forall_mem_singleton.mpr ?_⟩
    · exact hpieces piece (List.dropLast_subset _ (mem_settle hpiece))
    · rw [List.mem_append, not_or]
      exact ⟨hpieces name (List.mem_of_getLast? hname), worker.slash_not_mem_suffix⟩
  have hscratch : worker.scratch (String.ofList name) = String.ofList (name ++ worker.suffix) := by
    rw [Worker.scratch, String.ofList_append]
  refine ⟨String.ofList name, ?_, ?_⟩
  · rw [hscratch]
    simp only [Function.comp_apply, String.toList_ofList]
    exact getLast?_names List.getLast?_concat (List.append_ne_nil_of_right_ne_nil name
      worker.suffix_ne_nil) hway
  have htext : target.text.toList ≠ [] := by
    intro hempty
    rw [hempty] at hname
    cases hname
    cases hisName
  obtain ⟨last, hlast⟩ := Option.isSome_iff_exists.mp
    (List.getLast?_isSome.mpr (pieces_ne_nil target.text.toList))
  have hne := ne_nil_of_getLast?_pieces hlast htext (getLast?_of_bare hbare)
  have hnames := getLast?_names hlast hne fun piece => not_mem_of_mem_pieces
  rw [join_pieces] at hnames
  rw [hnames]
  cases hidle : isIdle last with
  | true =>
    left
    simp only [isIdle, hne, decide_false, Bool.false_or, decide_eq_true_eq] at hidle
    rw [hidle]
  | false =>
    right
    obtain rfl : last = name := Option.some.inj ((getLast?_settle hlast hidle).symm.trans hname)
    have hother : ∀ text : String, isName text.toList = false → String.ofList last ≠ text := by
      rintro text hno rfl
      rw [String.toList_ofList, hisName] at hno
      cases hno
    exact ⟨rfl, hother "." rfl, hother ".." rfl⟩

end Path

end BenchLedger.Disk
