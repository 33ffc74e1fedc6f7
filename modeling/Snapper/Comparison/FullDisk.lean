import Snapper.Comparison.RoundTrip
import Snapper.General.Output

/-!
# Saving a file list on a full disk

`Comparison::save` writes to a temporary file and renames it to the file list, whatever `fprintf`
and `fclose` return.  A file that has stopped accepting data therefore becomes a file list that is
cut off, and the entries that are in it are all that is ever read again.

## Main results

- `saveFile_complete`: while the file accepts everything, this is `save`
- `filelist_whole_iff`: when the file list is complete or what it was
- `load_cut`: what is read of one that is cut off between two entries
-/

namespace Snapper

open General

/-! ## Saving -/

/-- How the calls of `Comparison::save` go. -/
structure SaveCourse where
  /-- `openInfoDir`, `mktemp` and `fdopen` succeed. -/
  opens : Bool
  /-- what `mktemp` puts for `XXXXXX` -/
  unique : Str
  /-- the number of bytes that the file accepts -/
  room : Nat
  /-- how much of its buffer each `fprintf` hands over -/
  flushes : Nat → Nat
  renames : Bool

/-- The exceptions of `Comparison::save` -/
inductive SaveError where
  | illegalSnapshot
  | ioError
  deriving DecidableEq, Repr

/-- The loop of `fprintf`s and `fclose`, with all their results ignored: the content of the file. -/
def printFiles (invert : Bool) (files : List File) (course : SaveCourse) : Str :=
  let file : Output UInt8 := { file := ⟨[], course.room⟩, buffer := [] }
  let pieces := files.map fun file => putline (fileRecord invert file)
  (file.puts course.flushes 0 pieces).close.2.content

/-- `file_name + ".tmp-XXXXXX"` of `mktemp`, which makes a new file. -/
def tmpKey (course : SaveCourse) (key : Nat × Str) : Nat × Str :=
  (key.1, key.2 ++ str ".tmp-" ++ course.unique)

/-- `Comparison::save`, with the info directories after it. -/
def saveFile (num1 num2 : Nat) (files : List File) (course : SaveCourse) (infos : Infos) :
    Except SaveError Unit × Infos :=
  if isCurrent num1 || isCurrent num2 then (.error .illegalSnapshot, infos)
  else if !course.opens then (.error .ioError, infos)
  else
    let key := filelistKey num1 num2
    let content := printFiles (num1 > num2) files course
    -- the result of `rename` is ignored too
    if course.renames then (.ok (), Function.update infos key (some content))
    else (.ok (), Function.update infos (tmpKey course key) (some content))

/-! ## What is in the file -/

variable {num1 num2 : Nat} {files : List File} {course : SaveCourse} {infos : Infos}

theorem printFiles_eq (invert : Bool) (files : List File) (course : SaveCourse) :
    printFiles invert files course = (saveText invert files).take course.room := by
  unfold printFiles
  rw [Output.close_puts, saveText, List.flatMap]

theorem tmpKey_ne (course : SaveCourse) (key : Nat × Str) : key ≠ tmpKey course key := by
  intro h
  have hlen := congrArg (fun key : Nat × Str => key.2.length) h
  simp only [tmpKey, List.length_append] at hlen
  have htmp : (str ".tmp-").length = 5 := by decide
  omega

/-- The file list after `save` -/
theorem saveFile_filelist :
    (saveFile num1 num2 files course infos).2 (filelistKey num1 num2) =
      if (isCurrent num1 || isCurrent num2) = false ∧ course.opens = true ∧ course.renames = true
      then some ((saveText (num1 > num2) files).take course.room)
      else infos (filelistKey num1 num2) := by
  unfold saveFile
  cases isCurrent num1 || isCurrent num2 with
  | true => simp
  | false =>
    cases course.opens with
    | false => simp
    | true =>
      cases course.renames with
      | true => simp [printFiles_eq]
      | false =>
        have hne := tmpKey_ne course (filelistKey num1 num2)
        simp [Function.update_of_ne hne]

/-- While the file accepts everything, nothing is lost. -/
theorem saveFile_complete (hopens : course.opens = true) (hrenames : course.renames = true)
    (hroom : (saveText (num1 > num2) files).length ≤ course.room) {infos' : Infos}
    (hsave : save num1 num2 files infos = .ok infos') :
    saveFile num1 num2 files course infos = (.ok (), infos') := by
  unfold save at hsave
  unfold saveFile
  split_ifs at hsave with hcurrent
  cases hsave
  rw [if_neg hcurrent]
  simp [hopens, hrenames, printFiles_eq, List.take_of_length_le hroom]

/-- The file list is complete or what was there before, unless it has come to be the part of the
list that was accepted. -/
theorem filelist_whole_iff (num1 num2 : Nat) (files : List File) (course : SaveCourse)
    (infos : Infos) :
    ((saveFile num1 num2 files course infos).2 (filelistKey num1 num2) =
        some (saveText (num1 > num2) files) ∨
      (saveFile num1 num2 files course infos).2 (filelistKey num1 num2) =
        infos (filelistKey num1 num2)) ↔
    num1 = 0 ∨ num2 = 0 ∨ course.opens = false ∨ course.renames = false ∨
      (saveText (num1 > num2) files).length ≤ course.room ∨
      infos (filelistKey num1 num2) =
        some ((saveText (num1 > num2) files).take course.room) := by
  rw [saveFile_filelist]
  by_cases hall : (isCurrent num1 || isCurrent num2) = false ∧ course.opens = true ∧
      course.renames = true
  · rw [if_pos hall]
    obtain ⟨hcurrent, hopens, hrenames⟩ := hall
    have hnums : num1 ≠ 0 ∧ num2 ≠ 0 := by simpa [isCurrent] using hcurrent
    -- the file list is what was accepted of the text
    rw [Option.some_inj, List.take_eq_self_iff, eq_comm (b := infos (filelistKey num1 num2))]
    simp [hnums, hopens, hrenames]
  · rw [if_neg hall]
    refine iff_of_true (Or.inr rfl) ?_
    by_contra hnone
    simp only [not_or, Bool.not_eq_false] at hnone
    obtain ⟨hnum1, hnum2, hopens, hrenames, -⟩ := hnone
    exact hall ⟨by simp [isCurrent, hnum1, hnum2], hopens, hrenames⟩

/-! ## Reading it again -/

/-- A list that is cut off after some of its entries is read as one of these entries. -/
theorem load_cut (hnum1 : num1 ≠ 0) (hnum2 : num2 ≠ 0) (hsorted : FilesSorted files)
    (hnl : ∀ file ∈ files, newline ∉ file.name) (hnul : ∀ file ∈ files, 0 ∉ file.name)
    (hst : ∀ file ∈ files, file.preToPostStatus.Reported) (hopens : course.opens = true)
    (hrenames : course.renames = true) {k : Nat}
    (hroom : course.room = (saveText (num1 > num2) (files.take k)).length) :
    load num1 num2 (saveFile num1 num2 files course infos).2 =
      .ok (some (appendReports (entries (files.take k)))) := by
  have hcurrent : (isCurrent num1 || isCurrent num2) = false := by simp [isCurrent, hnum1, hnum2]
  -- the text is that of the first entries and that of the rest, so the cut falls between two lines
  have htext : saveText (num1 > num2) files =
      saveText (num1 > num2) (files.take k) ++ saveText (num1 > num2) (files.drop k) := by
    conv_lhs => rw [← List.take_append_drop k files, saveText, List.flatMap_append]
    rfl
  have hkept : (saveText (num1 > num2) files).take course.room =
      saveText (num1 > num2) (files.take k) := by
    rw [htext, hroom, List.take_left]
  have hsub {file : File} (h : file ∈ files.take k) : file ∈ files := List.mem_of_mem_take h
  have hsorted' : FilesSorted (files.take k) := hsorted.sublist (List.take_sublist k files)
  unfold load
  rw [hcurrent, if_neg Bool.false_ne_true, saveFile_filelist, if_pos ⟨hcurrent, hopens, hrenames⟩,
    hkept]
  show Except.ok (some (sortFiles (loadText (num1 > num2) _))) = _
  rw [loadText_saveText _ (fun file h => hnl file (hsub h)) (fun file h => hnul file (hsub h))
    fun file h => hst file (hsub h),
    sortFiles_of_sorted (filesSorted_appendReports_entries hsorted')]

/-! ## A full disk -/

/-- Two files that were created -/
def createdFiles : List File := [⟨str "/a", .CREATED, false⟩, ⟨str "/b", .CREATED, false⟩]

/-- There is room for the first of them, and nothing is handed over before `fclose`. -/
def fullDisk : SaveCourse where
  opens := true
  unique := str "AAAAAA"
  room := (saveText (1 > 2) (createdFiles.take 1)).length
  flushes _ := 0
  renames := true

/-- The file list is cut off, and the first file is taken for all of them. -/
theorem full_disk_cuts :
    (¬∀ (num1 num2 : Nat) (files : List File) (course : SaveCourse) (infos : Infos),
      (saveFile num1 num2 files course infos).2 (filelistKey num1 num2) =
          some (saveText (num1 > num2) files) ∨
        (saveFile num1 num2 files course infos).2 (filelistKey num1 num2) =
          infos (filelistKey num1 num2)) ∧
    load 1 2 (saveFile 1 2 createdFiles fullDisk fun _ => none).2 =
      .ok (some [⟨str "/a", .CREATED, false⟩]) := by
  constructor
  · intro h
    have hwhole := h 1 2 createdFiles fullDisk fun _ => none
    rw [saveFile_filelist, if_pos ⟨rfl, rfl, rfl⟩] at hwhole
    -- neither the whole text is there nor the old state
    obtain hwhole | hbefore := hwhole
    · have hfits := List.take_eq_self_iff _ |>.mp (Option.some.inj hwhole)
      exact absurd hfits (by decide)
    · cases hbefore
  · have hreported : ∀ file ∈ createdFiles, file.preToPostStatus.Reported := by
      intro file hfile
      obtain rfl | rfl : file = _ ∨ file = _ := by simpa [createdFiles] using hfile
      · exact Or.inl rfl
      · exact Or.inl rfl
    exact load_cut (by decide) (by decide) (by decide) (by decide) (by decide) hreported rfl rfl
      (k := 1) rfl

end Snapper
