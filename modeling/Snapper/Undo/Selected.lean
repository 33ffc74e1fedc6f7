import Snapper.Comparison.RoundTrip
import Snapper.Undo.Steps

/-!
# Selecting entries by the lines of a status

`command_status` prints a line for each entry of a comparison: its status and its absolute path.
`command_undo` reads such lines, or paths alone, and marks the entries that they name.

## Main results

- `selectEntries_args`: paths that are arguments mark the entries with these paths
- `selectEntries_status`: lines of a status mark the entries that they were printed for
-/

namespace Snapper

open General

/-! ## Finding an entry -/

/-- `lower_bound`: the position of the first entry whose name is not less -/
def lowerBound (files : List File) (name : Str) : Nat := files.findIdx fun file => ¬file.name < name

/-- `Files::find`, with the position that the iterator is at -/
def findEntry (files : List File) (name : Str) : Option Nat :=
  let ret := lowerBound files name
  if (files[ret]?).any (·.name = name) = true then some ret else none

/-- `Files::findAbsolutePath` -/
def findAbsolutePath (paths : FilePaths) (files : List File) (filename : Str) : Option Nat :=
  let subvolume := paths.systemPath
  if ¬subvolume <+: filename then none
  else if subvolume = [slash] then findEntry files filename
  else findEntry files (filename.drop subvolume.length)

/-- `it->setUndo(true)` -/
def setUndo (it : Nat) (files : List File) : List File :=
  files.modify it fun file => { file with undo := true }

/-! ## Printing and reading lines -/

/-- `"%s %s\n"` without the newline -/
def statusLine (paths : FilePaths) (file : File) : Str :=
  cstr file.preToPostStatus.toStr ++ space :: cstr (file.systemPath paths)

/-- What `command_status` prints. -/
def commandStatus (paths : FilePaths) (files : List File) : Str :=
  (files.map (statusLine paths)).flatMap putline

/-- The path in a line of the input, with an optional status stripped; `none` for a line that is
skipped -/
def inputName (line : Str) : Option Str :=
  if line = [] then none
  else if line.head? = some slash then some line
  else
    match line.idxOf? space with
    | none => none
    | some pos => some (line.drop (pos + 1))

/-- `"File '%s' not found."` -/
def notFound (name : Str) : Str := str "File '" ++ cstr name ++ str "' not found."

/-- One round of the loop over the lines.  The error is the message with which the command exits. -/
def undoLine (paths : FilePaths) (files : List File) (line : Str) : Except Str (List File) :=
  match inputName line with
  | none => .ok files
  | some name =>
    match findAbsolutePath paths files name with
    | none => .error (notFound name)
    | some it => .ok (setUndo it files)

/-- One round of the loop over the arguments.  Those that are not found are skipped. -/
def undoArg (paths : FilePaths) (files : List File) (arg : Str) : List File :=
  match findAbsolutePath paths files arg with
  | none => files
  | some it => setUndo it files

/-- The part of `command_undo` that marks entries: those in the lines of the input file, all where
there is none and no argument, or those in the arguments. -/
def selectEntries (paths : FilePaths) (files : List File) (input : Option Str) (args : List Str) :
    Except Str (List File) :=
  match input with
  | some text => (getlines text).foldlM (undoLine paths) files
  | none =>
    if args = [] then .ok (files.map fun file => { file with undo := true })
    else .ok (args.foldl (undoArg paths) files)

/-- `command_undo` of a comparison -/
def commandUndochange (paths : FilePaths) (files : List File) (input : Option Str) (args : List Str)
    (verbose : Bool) : Cmd World (Ending × List Line) :=
  match selectEntries paths files input args with
  | .error message => return (.exitFailure, [.cerr message])
  | .ok files => commandUndo paths files verbose

/-- The entry at the position that is found is the one that the undo steps find. -/
theorem findFile_eq (files : List File) (name : Str) :
    findFile files name = (findEntry files name).bind fun it => files[it]? := by
  have hfirst : (files.find? fun file => ¬file.name < name) = files[lowerBound files name]? :=
    List.find?_eq_getElem?_findIdx
  rw [findFile, hfirst, findEntry]
  generalize lowerBound files name = it
  cases hfile : files[it]? with
  | none => rfl
  | some file =>
    by_cases hname : file.name = name
    · simp [hname, hfile]
    · simp [hname]

/-! ## Marking -/

/-- Mark some more entries. -/
def markMore (selected : File → Bool) (files : List File) : List File :=
  files.map fun file => { file with undo := file.undo || selected file }

section Selection

variable {paths : FilePaths} {files : List File} {file : File} {name : Str} {selected : File → Bool}

theorem namesAscend_markMore (h : NamesAscend files) : NamesAscend (markMore selected files) :=
  List.pairwise_map.mpr h

theorem mem_markMore (hfile : file ∈ files) :
    { file with undo := file.undo || selected file } ∈ markMore selected files :=
  List.mem_map_of_mem hfile

/-- The names are as they were. -/
theorem forall_mem_markMore {P : Str → Prop} (h : ∀ file ∈ files, P file.name) :
    ∀ file ∈ markMore selected files, P file.name := by
  intro file hfile
  obtain ⟨f, hf, rfl⟩ := List.mem_map.mp hfile
  exact h f hf

/-- Marking twice is marking what either of the two selections takes, when a selection does not
look at the mark. -/
theorem markMore_markMore (selected' : File → Bool) (hname : ∀ f : File, ∀ undo,
    selected' { f with undo := undo } = selected' f) :
    markMore selected' (markMore selected files) =
      markMore (fun file => selected file || selected' file) files := by
  rw [markMore, markMore, List.map_map]
  apply List.map_congr_left
  intro file _
  simp only [Function.comp_apply, hname, Bool.or_assoc]

/-- A selection that takes none of the entries marks nothing. -/
theorem markMore_of_not {selected : File → Bool} (h : ∀ file ∈ files, selected file = false) :
    markMore selected files = files := by
  rw [markMore]
  conv_rhs => rw [← List.map_id files]
  apply List.map_congr_left
  intro file hfile
  rw [h file hfile, Bool.or_false]
  rfl

/-- The search goes past the entries with smaller names. -/
theorem findEntry_cons : findEntry (file :: files) name =
    if file.name < name then (findEntry files name).map (· + 1)
    else if file.name = name then some 0 else none := by
  rw [findEntry, lowerBound, List.findIdx_cons]
  by_cases hlt : file.name < name
  · simp only [hlt, not_true_eq_false, decide_false, cond_false, List.getElem?_cons_succ, if_true]
    rw [findEntry, lowerBound]
    split
    · rfl
    · rfl
  · simp [hlt]

/-- An entry is found if and only if it is there; then it is the one with that name. -/
theorem findEntry_spec (h : NamesAscend files) (name : Str) :
    ((∃ file ∈ files, file.name = name) ∧ ∃ it, findEntry files name = some it ∧
        setUndo it files = markMore (fun file => file.name = name) files) ∨
      (∀ file ∈ files, file.name ≠ name) ∧ findEntry files name = none := by
  induction files with
  | nil => exact Or.inr ⟨by simp, rfl⟩
  | cons file files ih =>
    obtain ⟨hbelow, hrest⟩ := List.pairwise_cons.mp h
    rw [findEntry_cons]
    by_cases hlt : file.name < name
    · rw [if_pos hlt]
      have hmark : markMore (fun f => f.name = name) (file :: files) =
          file :: markMore (fun f => f.name = name) files := by
        simp [markMore, ne_of_lt hlt]
      rcases ih hrest with ⟨⟨f, hf, hname⟩, it, hfind, hset⟩ | ⟨hnone, hfind⟩
      · refine Or.inl ⟨⟨f, List.mem_cons_of_mem _ hf, hname⟩, it + 1, by rw [hfind]; rfl, ?_⟩
        rw [hmark, ← hset, setUndo, List.modify_succ_cons]
        rfl
      · refine Or.inr ⟨?_, by rw [hfind]; rfl⟩
        intro f hf
        rcases List.mem_cons.mp hf with rfl | hf
        · exact ne_of_lt hlt
        · exact hnone f hf
    · rw [if_neg hlt]
      -- all that follows have greater names
      have hgreater : ∀ f ∈ files, f.name ≠ name := fun f hf =>
        ne_of_gt (lt_of_le_of_lt (not_lt.mp hlt) (hbelow f hf))
      by_cases hname : file.name = name
      · rw [if_pos hname]
        refine Or.inl ⟨⟨file, List.mem_cons_self, hname⟩, 0, rfl, ?_⟩
        have hmark : markMore (fun f => f.name = name) files = files :=
          markMore_of_not fun f hf => decide_eq_false (hgreater f hf)
        rw [setUndo, List.modify_zero_cons]
        conv_lhs => rw [← hmark]
        simp [markMore, hname]
      · rw [if_neg hname]
        refine Or.inr ⟨?_, rfl⟩
        intro f hf
        rcases List.mem_cons.mp hf with rfl | hf
        · exact hname
        · exact hgreater f hf

/-- An absolute path starts with that of the subvolume, `/` included. -/
theorem prefix_systemPath (hslash : file.name.head? = some slash) :
    paths.systemPath <+: file.systemPath paths := by
  rw [File.systemPath]
  split
  · next hroot =>
    obtain ⟨rest, hrest⟩ := List.head?_eq_some_iff.mp hslash
    rw [hroot, hrest]
    exact ⟨rest, rfl⟩
  · exact List.prefix_append _ _

/-- What `findAbsolutePath` leaves of a path is the name of the entry with that path. -/
theorem systemPath_eq_iff {path : Str} (hstarts : paths.systemPath <+: path) :
    file.systemPath paths = path ↔ file.name =
      if paths.systemPath = [slash] then path else path.drop paths.systemPath.length := by
  rw [File.systemPath]
  split
  · rfl
  · obtain ⟨rest, rfl⟩ := hstarts
    rw [List.drop_left, List.append_cancel_left_eq]

/-- An entry is found by its absolute path if and only if it is there. -/
theorem findAbsolutePath_spec (h : NamesAscend files)
    (hslash : ∀ file ∈ files, file.name.head? = some slash) (path : Str) :
    ((∃ file ∈ files, file.systemPath paths = path) ∧
        ∃ it, findAbsolutePath paths files path = some it ∧
          setUndo it files = markMore (fun file => file.systemPath paths = path) files) ∨
      (∀ file ∈ files, file.systemPath paths ≠ path) ∧
        findAbsolutePath paths files path = none := by
  by_cases hstarts : paths.systemPath <+: path
  · have hfind : findAbsolutePath paths files path = findEntry files
        (if paths.systemPath = [slash] then path else path.drop paths.systemPath.length) := by
      rw [findAbsolutePath, if_neg (not_not.mpr hstarts)]
      split
      · rfl
      · rfl
    simp only [ne_eq, systemPath_eq_iff hstarts, hfind]
    exact findEntry_spec h _
  · refine Or.inr ⟨?_, if_pos hstarts⟩
    rintro file hfile rfl
    exact hstarts (prefix_systemPath (hslash file hfile))

/-! ## Arguments -/

/-- One argument of the command line marks exactly the entry whose path in the system is the
argument. -/
theorem undoArg_eq (h : NamesAscend files) (hslash : ∀ file ∈ files, file.name.head? = some slash)
    (arg : Str) :
    undoArg paths files arg = markMore (fun file => file.systemPath paths = arg) files := by
  rw [undoArg]
  rcases findAbsolutePath_spec h hslash arg with ⟨-, it, hfind, hset⟩ | ⟨hnone, hfind⟩
  · rw [hfind]
    exact hset
  · rw [hfind, markMore_of_not fun file hfile => decide_eq_false (hnone file hfile)]

/-- Arguments mark the entries with these absolute paths; others are skipped. -/
theorem selectEntries_args (h : NamesAscend files)
    (hslash : ∀ file ∈ files, file.name.head? = some slash) {args : List Str} (hargs : args ≠ []) :
    selectEntries paths files none args =
      .ok (markMore (fun file => file.systemPath paths ∈ args) files) := by
  have hfold : ∀ args : List Str, args.foldl (undoArg paths) files =
      markMore (fun file => file.systemPath paths ∈ args) files := by
    intro args
    induction args generalizing files with
    | nil => exact (markMore_of_not fun _ _ => rfl).symm
    | cons arg args ih =>
      rw [List.foldl_cons, undoArg_eq h hslash, ih (namesAscend_markMore h), markMore_markMore]
      · simp [List.mem_cons]
      · exact fun _ _ => rfl
      · exact forall_mem_markMore (P := fun name => name.head? = some slash) hslash
  rw [selectEntries, if_neg hargs, hfold]

/-! ## Lines -/

/-- A round: a line that is skipped changes nothing, one with the path of an entry marks it, and any
other ends the command. -/
theorem undoLine_cases (h : NamesAscend files)
    (hslash : ∀ file ∈ files, file.name.head? = some slash) (line : Str) :
    undoLine paths files line = match inputName line with
      | none => .ok files
      | some name =>
        if ∃ file ∈ files, file.systemPath paths = name then
          .ok (markMore (fun file => file.systemPath paths = name) files)
        else .error (notFound name) := by
  rw [undoLine]
  cases inputName line with
  | none => rfl
  | some name =>
    dsimp only
    rcases findAbsolutePath_spec h hslash name with ⟨hfound, it, hfind, hset⟩ | ⟨hnone, hfind⟩
    · rw [hfind, if_pos hfound, ← hset]
    · have hnot : ¬∃ file ∈ files, file.systemPath paths = name := by
        rintro ⟨file, hfile, hname⟩
        exact hnone file hfile hname
      rw [hfind, if_neg hnot]

/-- Lines whose paths are all found mark the entries with these paths. -/
theorem foldlM_undoLine (h : NamesAscend files)
    (hslash : ∀ file ∈ files, file.name.head? = some slash) {lines : List Str}
    (hfound : ∀ name ∈ lines.filterMap inputName, ∃ file ∈ files, file.systemPath paths = name) :
    lines.foldlM (undoLine paths) files =
      .ok (markMore (fun file => file.systemPath paths ∈ lines.filterMap inputName) files) := by
  -- each line marks one entry, so the entries vary along the lines
  induction lines generalizing files with
  | nil => exact congrArg Except.ok (markMore_of_not fun _ _ => rfl).symm
  | cons line lines ih =>
    have hround : undoLine paths files line = _ := undoLine_cases h hslash line
    rw [List.foldlM_cons, hround]
    cases hline : inputName line with
    | none =>
      rw [List.filterMap_cons_none hline] at hfound ⊢
      exact ih h hslash hfound
    | some name =>
      rw [List.filterMap_cons_some hline] at hfound ⊢
      -- marking changes no name, so the other lines still find theirs
      have hrest : ∀ name' ∈ lines.filterMap inputName,
          ∃ file ∈ markMore (fun file => file.systemPath paths = name) files,
            file.systemPath paths = name' := by
        intro name' hname'
        obtain ⟨file, hfile, hpath⟩ := hfound name' (List.mem_cons_of_mem _ hname')
        exact ⟨_, mem_markMore hfile, hpath⟩
      dsimp only
      rw [if_pos (hfound name List.mem_cons_self)]
      show lines.foldlM (undoLine paths) (markMore _ files) = _
      rw [ih (namesAscend_markMore h)
        (forall_mem_markMore (P := fun name => name.head? = some slash) hslash) hrest,
        markMore_markMore _ fun _ _ => rfl]
      simp [List.mem_cons]

/-- A path that is not found ends the command with a message, and no entry is undone. -/
theorem foldlM_undoLine_error (h : NamesAscend files)
    (hslash : ∀ file ∈ files, file.name.head? = some slash) {lines : List Str}
    (hnot : ∃ name ∈ lines.filterMap inputName, ∀ file ∈ files, file.systemPath paths ≠ name) :
    ∃ name, (∀ file ∈ files, file.systemPath paths ≠ name) ∧
      lines.foldlM (undoLine paths) files = .error (notFound name) := by
  induction lines generalizing files with
  | nil =>
    obtain ⟨name, hname, -⟩ := hnot
    cases hname
  | cons line lines ih =>
    have hround : undoLine paths files line = _ := undoLine_cases h hslash line
    rw [List.foldlM_cons, hround]
    cases hline : inputName line with
    | none =>
      rw [List.filterMap_cons_none hline] at hnot
      exact ih h hslash hnot
    | some name =>
      rw [List.filterMap_cons_some hline] at hnot
      dsimp only
      -- the first line without an entry ends the reading, so an earlier one may be it
      by_cases hfound : ∃ file ∈ files, file.systemPath paths = name
      · obtain ⟨name', hname', hnone⟩ := hnot
        have hmem : name' ∈ lines.filterMap inputName := by
          rcases List.mem_cons.mp hname' with rfl | hmem
          · obtain ⟨file, hfile, hpath⟩ := hfound
            exact absurd hpath (hnone file hfile)
          · exact hmem
        rw [if_pos hfound]
        obtain ⟨first, hfirst, hend⟩ := ih (namesAscend_markMore h)
          (forall_mem_markMore (P := fun name => name.head? = some slash) hslash)
          ⟨name', hmem, fun file hfile => by
            obtain ⟨f, hf, rfl⟩ := List.mem_map.mp hfile
            exact hnone f hf⟩
        refine ⟨first, ?_, hend⟩
        intro file hfile
        have hne := hfirst _ (mem_markMore hfile)
        exact hne
      · rw [if_neg hfound]
        exact ⟨name, fun file hfile hpath => hfound ⟨file, hfile, hpath⟩, rfl⟩

/-- The command ends with a message or goes on to undo what is marked. -/
theorem commandUndochange_ending (h : NamesAscend files)
    (hslash : ∀ file ∈ files, file.name.head? = some slash) (input : Option Str) (args : List Str)
    (verbose : Bool) (w : World) :
    ((commandUndochange paths files input args verbose).run w).1.1 = .done ↔
      ∀ text, input = some text → ∀ name ∈ (getlines text).filterMap inputName,
        ∃ file ∈ files, file.systemPath paths = name := by
  rw [commandUndochange]
  cases input with
  | some text =>
    by_cases hfound : ∀ name ∈ (getlines text).filterMap inputName,
        ∃ file ∈ files, file.systemPath paths = name
    · have hselect : selectEntries paths files (some text) args = _ :=
        foldlM_undoLine h hslash hfound
      rw [hselect]
      refine iff_of_true (commandUndo_done (namesAscend_markMore h) verbose w) ?_
      intro text' htext
      obtain rfl := Option.some.inj htext
      exact hfound
    · have hnot : ∃ name ∈ (getlines text).filterMap inputName,
          ∀ file ∈ files, file.systemPath paths ≠ name := by
        push Not at hfound
        exact hfound
      obtain ⟨name, -, hend⟩ := foldlM_undoLine_error h hslash hnot
      have hselect : selectEntries paths files (some text) args = _ := hend
      rw [hselect]
      exact iff_of_false (fun hdone => by cases hdone) fun hall => hfound (hall text rfl)
  | none =>
    refine iff_of_true ?_ (fun text htext => by cases htext)
    -- without a file the arguments select, and one that is unknown is passed over
    by_cases hargs : args = []
    · have hselect : selectEntries paths files none args =
          .ok (files.map fun file => { file with undo := true }) := by
        rw [selectEntries, if_pos hargs]
      have hascend : NamesAscend (files.map fun file => { file with undo := true }) :=
        List.pairwise_map.mpr h
      rw [hselect]
      exact commandUndo_done hascend verbose w
    · rw [selectEntries_args h hslash hargs]
      exact commandUndo_done (namesAscend_markMore h) verbose w

/-! ## Lines of a status -/

/-- The line without the status column: four characters and a blank -/
def withoutStatus (line : Str) : Str := line.drop 5

/-- The lines of an input that lists lines of a status: one after the other, each as it was printed
or without the status column, with blank lines in between. -/
inductive Feeds : List Str → List Str → Prop
  | nil : Feeds [] []
  | blank {listed lines : List Str} (h : Feeds listed lines) : Feeds listed ([] :: lines)
  | line {listed lines : List Str} {line text : Str}
      (htext : text = line ∨ text = withoutStatus line) (h : Feeds listed lines) :
      Feeds (line :: listed) (text :: lines)

/-- No line of the input has a byte that those listed have not. -/
theorem Feeds.clean {listed lines : List Str} (h : Feeds listed lines)
    (hclean : ∀ line ∈ listed, newline ∉ line ∧ 0 ∉ line) :
    ∀ line ∈ lines, newline ∉ line ∧ 0 ∉ line := by
  induction h with
  | nil => exact hclean
  | blank _ ih =>
    intro line hline
    rcases List.mem_cons.mp hline with rfl | hline
    · exact ⟨List.not_mem_nil, List.not_mem_nil⟩
    · exact ih hclean line hline
  | line htext _ ih =>
    intro line hline
    rcases List.mem_cons.mp hline with rfl | hline
    · have hprinted := hclean _ List.mem_cons_self
      rcases htext with rfl | rfl
      · exact hprinted
      · exact ⟨fun hmem => hprinted.1 (List.mem_of_mem_drop hmem),
          fun hmem => hprinted.2 (List.mem_of_mem_drop hmem)⟩
    · exact ih (fun l hl => hclean l (List.mem_cons_of_mem _ hl)) line hline

/-- A path that a line can hold -/
structure LinePath (path : Str) : Prop where
  absolute : path.head? = some slash
  no_newline : newline ∉ path
  no_nul : 0 ∉ path

/-- A path below a root without newlines and NULs has none either. -/
theorem LinePath.systemPath (hsub : LinePath paths.systemPath) (hname : LinePath file.name) :
    LinePath (file.systemPath paths) := by
  rw [File.systemPath]
  split
  · exact hname
  · obtain ⟨rest, hrest⟩ := List.head?_eq_some_iff.mp hsub.absolute
    refine ⟨by rw [hrest]; rfl, ?_, ?_⟩
    · exact fun h => (List.mem_append.mp h).elim hsub.no_newline hname.no_newline
    · exact fun h => (List.mem_append.mp h).elim hsub.no_nul hname.no_nul

theorem systemPath_injective {file' : File} (h : file.systemPath paths = file'.systemPath paths) :
    file.name = file'.name := by
  rw [File.systemPath, File.systemPath] at h
  split at h
  · exact h
  · exact List.append_cancel_left h

theorem length_toStr (st : Status) : st.toStr.length = 4 := by
  rw [Status.toStr]
  split_ifs <;> rfl

theorem head_toStr_ne_slash (st : Status) : st.toStr.head? ≠ some slash := by
  rw [Status.toStr]
  split_ifs <;> decide

theorem statusLine_eq (hpath : LinePath (file.systemPath paths)) :
    statusLine paths file = file.preToPostStatus.toStr ++ space :: file.systemPath paths := by
  rw [statusLine, cstr_toStr, cstr_of_no_nul hpath.no_nul]

/-- The status line of an entry has no newline and no NUL in it. -/
theorem statusLine_clean (hpath : LinePath (file.systemPath paths)) :
    newline ∉ statusLine paths file ∧ 0 ∉ statusLine paths file := by
  have hst := fun b hb => file.preToPostStatus.toStr_clean (b := b) hb
  rw [statusLine_eq hpath]
  constructor
  · intro hmem
    rcases List.mem_append.mp hmem with hmem | hmem
    · exact (hst _ hmem).2.1 rfl
    · rcases List.mem_cons.mp hmem with hmem | hmem
      · exact absurd hmem (by decide)
      · exact hpath.no_newline hmem
  · intro hmem
    rcases List.mem_append.mp hmem with hmem | hmem
    · exact (hst _ hmem).2.2 rfl
    · rcases List.mem_cons.mp hmem with hmem | hmem
      · exact absurd hmem (by decide)
      · exact hpath.no_nul hmem

theorem withoutStatus_statusLine (hpath : LinePath (file.systemPath paths)) :
    withoutStatus (statusLine paths file) = file.systemPath paths := by
  rw [statusLine_eq hpath, withoutStatus, List.append_cons]
  apply List.drop_left'
  rw [List.length_append, length_toStr]
  rfl

/-- The status of a line is stripped. -/
theorem inputName_statusLine (hpath : LinePath (file.systemPath paths)) :
    inputName (statusLine paths file) = some (file.systemPath paths) := by
  have hne : file.preToPostStatus.toStr ≠ [] := by
    intro h
    have hlength := length_toStr file.preToPostStatus
    rw [h] at hlength
    cases hlength
  have hspace : space ∉ file.preToPostStatus.toStr := fun h =>
    (file.preToPostStatus.toStr_clean h).1 rfl
  rw [statusLine_eq hpath, inputName, if_neg (by simp),
    if_neg (by rw [List.head?_append_of_ne_nil _ hne]; exact head_toStr_ne_slash _),
    idxOf?_space_status hspace, length_toStr]
  show some (withoutStatus _) = _
  rw [← statusLine_eq hpath, withoutStatus_statusLine hpath]

/-- A path is as it is. -/
theorem inputName_path {path : Str} (hpath : LinePath path) : inputName path = some path := by
  obtain ⟨rest, rfl⟩ := List.head?_eq_some_iff.mp hpath.absolute
  rfl

theorem eq_of_name (h : NamesAscend files) {f f' : File} (hf : f ∈ files) (hf' : f' ∈ files)
    (hname : f.name = f'.name) : f = f' := by
  have hnames : (files.map File.name).Nodup := List.pairwise_map.mpr (h.imp fun hlt => ne_of_lt hlt)
  exact List.inj_on_of_nodup_map hnames hf hf' hname

/-- Two entries have the same line if and only if they have the same path. -/
theorem statusLine_inj (h : NamesAscend files) (hsub : LinePath paths.systemPath)
    (hnames : ∀ file ∈ files, LinePath file.name) {f f' : File} (hf : f ∈ files)
    (hf' : f' ∈ files) :
    statusLine paths f = statusLine paths f' ↔ f.systemPath paths = f'.systemPath paths := by
  constructor
  · intro hline
    have hpath : inputName (statusLine paths f) = _ :=
      inputName_statusLine (hsub.systemPath (hnames f hf))
    rw [hline, inputName_statusLine (hsub.systemPath (hnames f' hf'))] at hpath
    exact (Option.some.inj hpath).symm
  · intro hpath
    rw [eq_of_name h hf hf' (systemPath_injective hpath)]

theorem markMore_congr {selected selected' : File → Bool}
    (h : ∀ file ∈ files, selected file = selected' file) :
    markMore selected files = markMore selected' files :=
  List.map_congr_left fun file hfile => by rw [h file hfile]

/-- The paths in the input are those of the entries that the lines were printed for. -/
theorem Feeds.names {listed : List File} {lines : List Str}
    (h : Feeds (listed.map (statusLine paths)) lines)
    (hpaths : ∀ file ∈ listed, LinePath (file.systemPath paths)) :
    lines.filterMap inputName = listed.map (File.systemPath paths) := by
  generalize hprinted : listed.map (statusLine paths) = printed at h
  induction h generalizing listed with
  | nil =>
    obtain rfl := List.map_eq_nil_iff.mp hprinted
    rfl
  | blank _ ih => exact ih hpaths hprinted
  | @line _ lines line text htext _ ih =>
    obtain ⟨file, listed, rfl, hline, hrest⟩ := List.map_eq_cons_iff.mp hprinted
    have hpath := hpaths file List.mem_cons_self
    have hname : inputName text = some (file.systemPath paths) := by
      rcases htext with rfl | rfl
      · rw [← hline, inputName_statusLine hpath]
      · rw [← hline, withoutStatus_statusLine hpath, inputName_path hpath]
    rw [List.filterMap_cons_some hname, List.map_cons,
      ih (fun f hf => hpaths f (List.mem_cons_of_mem _ hf)) hrest]

/-- The lines that `command_status` prints -/
theorem getlines_commandStatus (hsub : LinePath paths.systemPath)
    (hnames : ∀ file ∈ files, LinePath file.name) :
    getlines (commandStatus paths files) = files.map (statusLine paths) := by
  apply getlines_putline
  intro line hline
  obtain ⟨file, hfile, rfl⟩ := List.mem_map.mp hline
  exact statusLine_clean (hsub.systemPath (hnames file hfile))

/-- Lines of a status, with or without the status column and with blank lines in between, are found
when they are read back, and they mark the entries that they were printed for and no others. -/
theorem selectEntries_status (hsub : LinePath paths.systemPath) (h : NamesAscend files)
    (hnames : ∀ file ∈ files, LinePath file.name) {listed lines args : List Str}
    (hlisted : listed.Sublist (getlines (commandStatus paths files)))
    (hfeeds : Feeds listed lines) :
    selectEntries paths files (some (lines.flatMap putline)) args =
      .ok (files.map fun file =>
        { file with undo := file.undo || decide (statusLine paths file ∈ listed) }) := by
  rw [getlines_commandStatus hsub hnames] at hlisted
  obtain ⟨entries, hentries, rfl⟩ := List.sublist_map_iff.mp hlisted
  have hmem : ∀ file ∈ entries, file ∈ files := fun file hfile => hentries.subset hfile
  have hpaths : ∀ file ∈ entries, LinePath (file.systemPath paths) := fun file hfile =>
    hsub.systemPath (hnames file (hmem file hfile))
  have hclean : ∀ line ∈ lines, newline ∉ line ∧ 0 ∉ line := by
    apply hfeeds.clean
    intro line hline
    obtain ⟨file, hfile, rfl⟩ := List.mem_map.mp hline
    exact statusLine_clean (hpaths file hfile)
  have hread := hfeeds.names hpaths
  have hfound : ∀ name ∈ lines.filterMap inputName,
      ∃ file ∈ files, file.systemPath paths = name := by
    rw [hread]
    intro name hname
    obtain ⟨file, hfile, rfl⟩ := List.mem_map.mp hname
    exact ⟨file, hmem file hfile, rfl⟩
  show (getlines (lines.flatMap putline)).foldlM (undoLine paths) files = _
  rw [getlines_putline hclean,
    foldlM_undoLine h (fun file hfile => (hnames file hfile).absolute) hfound, hread]
  congr 1
  apply markMore_congr
  intro file hfile
  -- a path is listed if and only if its line is
  apply decide_eq_decide.mpr
  rw [List.mem_map, List.mem_map]
  apply exists_congr
  intro f
  apply and_congr_right
  intro hf
  exact (statusLine_inj h hsub hnames (hmem f hf) hfile).symm

end Selection

/-- Of the status of the sibling directories `/a` and `/ab` and a file with a blank in its name two
lines are read back, the second one without its status. -/
theorem selectEntries_status_siblings :
    let paths : FilePaths :=
      { pre := .node
          { fmt := .dir, perm := 0o755, uid := 0, gid := 0, mtimeSec := 0, mtimeNsec := 0,
            size := 0,
            dev := 1, ino := 256, data := none } []
        systemPath := str "/a" }
    let files : List File :=
      [{ name := str "/a", preToPostStatus := .CREATED },
        { name := str "/ab", preToPostStatus := { permissions := true } },
        { name := str "/ab/c d", preToPostStatus := .DELETED }]
    selectEntries paths files (some (str "+... /a/a\n\n/a/ab/c d\n")) [] = .ok
      [{ name := str "/a", preToPostStatus := .CREATED, undo := true },
        { name := str "/ab", preToPostStatus := { permissions := true } },
        { name := str "/ab/c d", preToPostStatus := .DELETED, undo := true }] := by
  intro paths files
  have hsub : LinePath paths.systemPath := ⟨rfl, by decide, by decide⟩
  have hnames : ∀ file ∈ files, LinePath file.name := by
    have hall : ∀ name ∈ files.map File.name,
        name.head? = some slash ∧ newline ∉ name ∧ 0 ∉ name := by
      decide
    intro file hfile
    obtain ⟨habs, hnl, hnul⟩ := hall _ (List.mem_map_of_mem hfile)
    exact ⟨habs, hnl, hnul⟩
  have hprinted : getlines (commandStatus paths files) =
      [str "+... /a/a", str ".p.. /a/ab", str "-... /a/ab/c d"] :=
    getlines_commandStatus hsub hnames
  have hlisted : [str "+... /a/a", str "-... /a/ab/c d"].Sublist
      (getlines (commandStatus paths files)) := by
    rw [hprinted]
    exact ((List.Sublist.refl _).cons _).cons_cons _
  have hfeeds : Feeds [str "+... /a/a", str "-... /a/ab/c d"]
      [str "+... /a/a", [], str "/a/ab/c d"] :=
    .line (Or.inl rfl) (.blank (.line (Or.inr rfl) .nil))
  exact selectEntries_status hsub (by rw [NamesAscend]; decide) hnames hlisted hfeeds

end Snapper
