import Snapper.Comparison.Filelist

/-!
# Reading a file list back

The separators of the format are the first space of a line and the newline.  A status
contains neither, a file name may contain both: a space in it is harmless, a newline
is not.

## Main results

- `load_save_of_no_newline`: without newlines a file list is read back as it was saved
- `reload_eq_iff`: newlines are the only obstacle
-/

namespace Snapper

/-! ## One record -/

/-- The space after the status is the first one of the record. -/
theorem idxOf?_space_status {status : Str} (h : space ∉ status) (name : Str) :
    (status ++ space :: name).idxOf? space = some status.length := by
  apply List.idxOf?_eq_some_iff.mpr
  refine ⟨by simp, by simp, ?_⟩
  intro j hj
  rw [List.getElem_append_left hj]
  intro heq
  exact h (heq ▸ List.getElem_mem hj)

theorem cstr_toStr (st : Status) : cstr st.toStr = st.toStr :=
  cstr_of_no_nul fun h => (st.toStr_clean h).2.2 rfl

/-- A record is parsed as the entry it was written for. -/
theorem parseRecord_fileRecord (invert : Bool) {file : File} (hname : 0 ∉ file.name)
    (hst : file.preToPostStatus.Reported) :
    parseRecord invert (fileRecord invert file) =
      some { name := file.name, preToPostStatus := file.preToPostStatus } := by
  -- the status that is written, in either direction
  obtain ⟨st, hwritten, hreported, hback⟩ :
      ∃ st : Status, fileRecord invert file = st.toStr ++ space :: file.name ∧ st.Reported ∧
        (if invert then st.invert else st) = file.preToPostStatus := by
    unfold fileRecord
    cases invert with
    | false => exact ⟨_, by simp [cstr_toStr, cstr_of_no_nul hname], hst, rfl⟩
    | true =>
      exact ⟨_, by simp [cstr_toStr, cstr_of_no_nul hname], hst.invert, hst.invert_invert⟩
  have hspace : space ∉ st.toStr := fun h => (st.toStr_clean h).1 rfl
  unfold parseRecord
  rw [hwritten, idxOf?_space_status hspace]
  simp [Status.ofStr_toStr hreported, hback]

/-- The line for a file is one line when its name is. -/
theorem fileRecord_clean (invert : Bool) {file : File} (hnl : newline ∉ file.name)
    (hnul : 0 ∉ file.name) :
    newline ∉ fileRecord invert file ∧ 0 ∉ fileRecord invert file := by
  have hsp : space ≠ newline ∧ space ≠ 0 := by decide
  have hst : ∀ st : Status, newline ∉ st.toStr ∧ 0 ∉ st.toStr := by
    intro st
    exact ⟨fun h => (st.toStr_clean h).2.1 rfl, fun h => (st.toStr_clean h).2.2 rfl⟩
  unfold fileRecord
  simp only [cstr_toStr, cstr_of_no_nul hnul, List.mem_append, List.mem_cons, not_or]
  exact ⟨⟨(hst _).1, hsp.1.symm, hnl⟩, ⟨(hst _).2, hsp.2.symm, hnul⟩⟩

/-- No line has a newline, so no entry gets one. -/
theorem newline_not_mem_of_parseRecord {invert : Bool} {line : Str} {file : File}
    (hline : newline ∉ line) (h : parseRecord invert line = some file) :
    newline ∉ file.name := by
  unfold parseRecord at h
  split at h
  · cases h
  · cases h
    exact fun hmem => hline (List.mem_of_mem_drop hmem)

/-! ## The whole list -/

/-- What is read of the text of a list without newlines in its names. -/
theorem loadText_saveText (invert : Bool) {files : List File}
    (hnl : ∀ file ∈ files, newline ∉ file.name) (hnul : ∀ file ∈ files, 0 ∉ file.name)
    (hst : ∀ file ∈ files, file.preToPostStatus.Reported) :
    loadText invert (saveText invert files) = appendReports (entries files) := by
  have hlines : getlines (saveText invert files) = files.map (fileRecord invert) := by
    have htext : saveText invert files = (files.map (fileRecord invert)).flatMap putline := by
      rw [saveText, List.flatMap_map]
    rw [htext]
    apply getlines_putline
    intro line hline
    obtain ⟨file, hfile, rfl⟩ := List.mem_map.mp hline
    exact fileRecord_clean invert (hnl file hfile) (hnul file hfile)
  unfold loadText appendReports entries
  rw [hlines, List.filterMap_map, List.map_map]
  -- every line gives the entry it was written for
  have hparse : ∀ file ∈ files, (parseRecord invert ∘ fileRecord invert) file =
      some { name := file.name, preToPostStatus := file.preToPostStatus } := by
    intro file hfile
    exact parseRecord_fileRecord invert (hnul file hfile) (hst file hfile)
  rw [List.filterMap_congr hparse, List.filterMap_eq_map']
  rfl

/-- A sorted list is left as it is. -/
theorem sortFiles_of_sorted {files : List File} (h : FilesSorted files) :
    sortFiles files = files :=
  h.insertionSort_eq

theorem entries_appendReports (reports : List Report) :
    entries (appendReports reports) = reports := by
  simp [entries, appendReports, Function.comp_def]

theorem filesSorted_appendReports_entries {files : List File} (h : FilesSorted files) :
    FilesSorted (appendReports (entries files)) := by
  unfold FilesSorted appendReports entries
  rw [List.map_map]
  exact List.pairwise_map.mpr h

/-- The loaded list in terms of the saved text. -/
theorem load_save {num1 num2 : Nat} (h1 : num1 ≠ 0) (h2 : num2 ≠ 0) (files : List File)
    (infos : Infos) :
    ∃ infos', save num1 num2 files infos = .ok infos' ∧
      load num1 num2 infos' =
        .ok (some (sortFiles (loadText (num1 > num2) (saveText (num1 > num2) files)))) := by
  have hcur : (isCurrent num1 || isCurrent num2) = false := by simp [isCurrent, h1, h2]
  refine ⟨Function.update infos (filelistKey num1 num2) (some (saveText (num1 > num2) files)),
    ?_, ?_⟩
  · simp [save, hcur]
  · simp [load, hcur]

/-- Saving a sorted list of entries without newlines in their names and loading it gives the
same entries. -/
theorem load_save_of_no_newline {num1 num2 : Nat} (h1 : num1 ≠ 0) (h2 : num2 ≠ 0)
    {files : List File} (hsorted : FilesSorted files)
    (hnl : ∀ file ∈ files, newline ∉ file.name) (hnul : ∀ file ∈ files, 0 ∉ file.name)
    (hst : ∀ file ∈ files, file.preToPostStatus.Reported) (infos : Infos) :
    ∃ infos', save num1 num2 files infos = .ok infos' ∧
      load num1 num2 infos' = .ok (some (appendReports (entries files))) := by
  obtain ⟨infos', hsave, hload⟩ := load_save h1 h2 files infos
  refine ⟨infos', hsave, ?_⟩
  rw [hload, loadText_saveText _ hnl hnul hst,
    sortFiles_of_sorted (filesSorted_appendReports_entries hsorted)]

/-- What `Comparison::load` gives after `Comparison::save`. -/
def reload (num1 num2 : Nat) (files : List File) (infos : Infos) :
    Except ComparisonError (Option (List Report)) := do
  let infos ← save num1 num2 files infos
  let files ← load num1 num2 infos
  return files.map entries

/-- Names of loaded entries have no newline, whatever the file list holds. -/
theorem newline_not_mem_of_reload {num1 num2 : Nat} {files : List File} {infos : Infos}
    {reports : List Report} (h : reload num1 num2 files infos = .ok (some reports)) :
    ∀ report ∈ reports, newline ∉ report.1 := by
  by_cases hcur : num1 = 0 ∨ num2 = 0
  · have herr : save num1 num2 files infos = .error .illegalSnapshot := by
      simp [save, isCurrent, hcur]
    rw [reload, herr] at h
    cases h
  · obtain ⟨h1, h2⟩ := not_or.mp hcur
    obtain ⟨infos', hsave, hload⟩ := load_save h1 h2 files infos
    rw [reload, hsave] at h
    simp only [bind, Except.bind, hload, pure, Except.pure, Option.map_some, Except.ok.injEq,
      Option.some.injEq] at h
    subst h
    intro report hreport
    obtain ⟨file, hfile, rfl⟩ := List.mem_map.mp hreport
    have hfile := (List.mem_insertionSort _).mp hfile
    obtain ⟨line, hline, hparse⟩ := List.mem_filterMap.mp hfile
    exact newline_not_mem_of_parseRecord (newline_not_mem_of_mem_getlines hline) hparse

/-- A saved list of entries is loaded as it is if and only if no name contains a newline. -/
theorem reload_eq_iff {num1 num2 : Nat} (h1 : num1 ≠ 0) (h2 : num2 ≠ 0) (files : List File)
    (infos : Infos) (hsorted : FilesSorted files)
    (hnul : ∀ file ∈ files, 0 ∉ file.name)
    (hst : ∀ file ∈ files, file.preToPostStatus.Reported) :
    reload num1 num2 files infos = .ok (some (entries files)) ↔
      ∀ file ∈ files, newline ∉ file.name := by
  constructor
  · intro h file hfile
    exact newline_not_mem_of_reload h (file.name, file.preToPostStatus)
      (List.mem_map.mpr ⟨file, hfile, rfl⟩)
  · intro hnl
    obtain ⟨infos', hsave, hload⟩ := load_save_of_no_newline h1 h2 hsorted hnl hnul hst infos
    rw [reload, hsave]
    simp only [bind, Except.bind, hload, pure, Except.pure, Option.map_some,
      entries_appendReports]

/-- A deleted file `a` with a space in its name, read back. -/
theorem reload_eq_iff_space :
    reload 2 1 [{ name := str "/a b", preToPostStatus := .DELETED }] (fun _ => none) =
      .ok (some [(str "/a b", .DELETED)]) :=
  (reload_eq_iff (by decide) (by decide) _ _ (by decide) (by decide)
    (by simp [Status.Reported])).mpr (by decide)

/-- A file whose name goes on with a record of its own after a newline is read back as two
files, one of which was never compared. -/
theorem reload_newline :
    let files : List File := [{ name := str "/a\n-... /etc", preToPostStatus := .CREATED }]
    FilesSorted files ∧ (∀ file ∈ files, file.name.head? = some slash) ∧
      (∀ file ∈ files, 0 ∉ file.name) ∧ (∀ file ∈ files, file.preToPostStatus.Reported) ∧
      reload 1 2 files (fun _ => none) ≠ .ok (some (entries files)) ∧
      reload 1 2 files (fun _ => none) =
        .ok (some [(str "/a", .CREATED), (str "/etc", .DELETED)]) := by
  refine ⟨by decide, by decide, by decide, by simp [Status.Reported], ?_, ?_⟩
  · decide +kernel
  · decide +kernel

end Snapper
