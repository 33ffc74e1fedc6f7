import Mathlib.Data.List.TakeWhile
import Snapper.Base.Bytes

/-!
# Text files, line by line

`AsciiFileReader` and the `fprintf` calls that write what it reads.
-/

namespace Snapper

/-- The bytes a `const char*` to a string stands for: those before the first NUL. -/
def cstr (s : Str) : Str := s.takeWhile (· ≠ 0)

theorem cstr_of_no_nul {s : Str} (h : 0 ∉ s) : cstr s = s := by
  refine List.takeWhile_eq_self_iff.mpr fun b hb => ?_
  exact decide_eq_true fun h0 => h (h0 ▸ hb)

theorem mem_of_mem_cstr {s : Str} {b : UInt8} (h : b ∈ cstr s) : b ∈ s :=
  (List.takeWhile_sublist _).subset h

/-- `AsciiFileReader::getline`: the next line without its newline, and the rest of the
file.  The line is made from a `char*`. -/
def getline (file : Str) : Option (Str × Str) :=
  if file = [] then none
  else some (cstr (file.takeWhile (· ≠ newline)), (file.dropWhile (· ≠ newline)).tail)

/-- What is left after a line is shorter, so that reading line after line comes to an end. -/
theorem getline_rest_length {file line rest : Str} (h : getline file = some (line, rest)) :
    rest.length < file.length := by
  unfold getline at h
  split_ifs at h with hnil
  cases h
  have hdrop := (List.dropWhile_sublist (· ≠ newline) (l := file)).length_le
  have hpos : 0 < file.length := List.length_pos_iff.mpr hnil
  rw [List.length_tail]
  omega

/-- `while (asciifile.getline(line))` -/
def getlines (file : Str) : List Str :=
  match h : getline file with
  | none => []
  | some (line, rest) =>
    have : rest.length < file.length := getline_rest_length h
    line :: getlines rest
termination_by file.length

/-- A line as `fprintf(file, "%s\n", ...)` writes it. -/
def putline (line : Str) : Str := line ++ [newline]

/-- A line that is written is read back up to its newline, if it has neither newline nor NUL
inside. -/
theorem getline_putline {line : Str} (hnl : newline ∉ line) (hnul : 0 ∉ line) (rest : Str) :
    getline (putline line ++ rest) = some (line, rest) := by
  have hline : ∀ b ∈ line, decide (b ≠ newline) = true := by
    intro b hb
    exact decide_eq_true fun h => hnl (h ▸ hb)
  unfold getline putline
  rw [if_neg (by simp), List.append_assoc, List.takeWhile_append_of_pos hline,
    List.dropWhile_append_of_pos hline]
  simp [cstr_of_no_nul hnul]

/-- Lines that contain no newline and no NUL are read back as they were written. -/
theorem getlines_putline {lines : List Str} (h : ∀ l ∈ lines, newline ∉ l ∧ 0 ∉ l) :
    getlines (lines.flatMap putline) = lines := by
  induction lines with
  | nil =>
    rw [getlines]
    rfl
  | cons l lines ih =>
    obtain ⟨hnl, hnul⟩ := h l (List.mem_cons_self ..)
    have hget := getline_putline hnl hnul (lines.flatMap putline)
    rw [List.flatMap_cons, getlines]
    split
    · next hnone => rw [hget] at hnone; cases hnone
    · next line rest hsome =>
      rw [hget] at hsome
      cases hsome
      rw [ih fun l hl => h l (List.mem_cons_of_mem _ hl)]

/-- Where a line that was read comes from. -/
theorem exists_cstr_of_mem_getlines {file line : Str} (h : line ∈ getlines file) :
    ∃ l, newline ∉ l ∧ line = cstr l := by
  induction file using getlines.induct with
  | case1 file hnone =>
    rw [getlines] at h
    split at h
    · cases h
    · next hsome => rw [hnone] at hsome; cases hsome
  | case2 file l rest hsome hlt ih =>
    rw [getlines] at h
    split at h
    · cases h
    · next l' rest' hsome' =>
      rw [hsome] at hsome'
      cases hsome'
      -- the line read first, or one of the rest of the file
      rcases List.mem_cons.mp h with rfl | h
      · unfold getline at hsome
        split_ifs at hsome
        cases hsome
        refine ⟨_, fun hmem => ?_, rfl⟩
        have := List.mem_takeWhile_imp hmem
        simp at this
      · exact ih h

/-- A line that was read contains no newline. -/
theorem newline_not_mem_of_mem_getlines {file line : Str} (h : line ∈ getlines file) :
    newline ∉ line := by
  obtain ⟨l, hl, rfl⟩ := exists_cstr_of_mem_getlines h
  exact fun hmem => hl (mem_of_mem_cstr hmem)

/-- A line that was read contains no NUL. -/
theorem nul_not_mem_of_mem_getlines {file line : Str} (h : line ∈ getlines file) : 0 ∉ line := by
  obtain ⟨l, -, rfl⟩ := exists_cstr_of_mem_getlines h
  intro hmem
  have := List.mem_takeWhile_imp hmem
  simp at this

end Snapper
