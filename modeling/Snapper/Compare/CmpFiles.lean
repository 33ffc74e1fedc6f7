import Snapper.Compare.Status
import Snapper.Compare.Tree

/-!
# Comparing two files

`cmpFiles` and the content comparisons below it.  Contents of regular files are
compared block by block; a failing `open` and a failing or short `read` make two contents different.
A failing `readlink` goes unnoticed.
-/

namespace Snapper

/-! ## Contents -/

/-- `const off_t block_size` -/
def blockSize : Nat := 4096

/-- The `while (length > 0)` loop of `cmpFilesContentReg`: one block of each file
at a time, `bs1` and `bs2` being what is left to read. -/
def cmpBlocks (length : Nat) (bs1 bs2 : Str) : Bool :=
  if length = 0 then true
  else
    let t := min blockSize length
    if (bs1.take t).length ≠ t then false
    else if (bs2.take t).length ≠ t then false
    else if bs1.take t ≠ bs2.take t then false
    else cmpBlocks (length - t) (bs1.drop t) (bs2.drop t)
termination_by length
decreasing_by simp only [blockSize]; omega

/-- `stat1.st_mtim == stat2.st_mtim`, seconds and nanoseconds -/
def sameMtime (s1 s2 : Stat) : Bool :=
  s1.mtimeSec = s2.mtimeSec && s1.mtimeNsec = s2.mtimeNsec

/-- `cmpFilesContentReg`: equal times stand for equal contents, which are read only where the
times differ. -/
def cmpFilesContentReg (f1 f2 : Inode) : Bool :=
  if sameMtime f1.toStat f2.toStat then true
  else if f1.size ≠ f2.size then false
  else if f1.size = 0 ∧ f2.size = 0 then true
  else if f1.dev = f2.dev ∧ f1.ino = f2.ino then true
  else
    match f1.data, f2.data with
    | some bs1, some bs2 => cmpBlocks f1.size bs1 bs2
    | _, _ => false

/-- `readlinkat` into a buffer of 1024 bytes: a longer target is cut off. -/
def readlink (f : Inode) : Option Str := f.data.map (List.take 1024)

/-- `file.readlink(tmp)` with its result taken for a truth value: it fails for an empty target only,
and `-1` leaves `tmp` empty. -/
def readlinkTmp (f : Inode) : Option Str :=
  match readlink f with
  | none => some []
  | some [] => none
  | some tmp => some tmp

/-- `cmpFilesContentLnk`: equal times stand for equal targets here as well. -/
def cmpFilesContentLnk (f1 f2 : Inode) : Bool :=
  if sameMtime f1.toStat f2.toStat then true
  else
    match readlinkTmp f1, readlinkTmp f2 with
    | some tmp1, some tmp2 => tmp1 = tmp2
    | _, _ => false

/-- `cmpFilesContent`.  It throws on files of different types; `cmpFiles` compares
the types first, so here it takes files of one type. -/
def cmpFilesContent (f1 f2 : Inode) (_h : f1.fmt = f2.fmt) : Bool :=
  match f1.fmt with
  | .reg => cmpFilesContentReg f1 f2
  | .lnk => cmpFilesContentLnk f1 f2
  | _ => true

/-! ## Files -/

/-- `cmpFiles` of two files whose `stat` is known. -/
def cmpFiles (f1 f2 : Inode) : Status :=
  { type := f1.fmt ≠ f2.fmt
    content := if h : f1.fmt = f2.fmt then !cmpFilesContent f1 f2 h else false
    permissions := f1.perm ^^^ f2.perm ≠ 0
    user := f1.uid ≠ f2.uid
    group := f1.gid ≠ f2.gid }

/-- `cmpFiles` of two paths: `none` in place of a file whose `stat` fails.
It throws `IOErrorException` when both fail. -/
def cmpFilesAt (f1 f2 : Option Inode) : Option Status :=
  match f1, f2 with
  | none, some _ => some .CREATED
  | some _, none => some .DELETED
  | none, none => none
  | some f1, some f2 => some (cmpFiles f1 f2)

theorem cmpFiles_both (f1 f2 : Inode) : (cmpFiles f1 f2).Both where
  not_created := rfl
  not_deleted := rfl
  not_type_content h := by
    have hne : f1.fmt ≠ f2.fmt := by simpa [cmpFiles] using h
    simp [cmpFiles, hne]

theorem cmpFiles_type {f1 f2 : Inode} : (cmpFiles f1 f2).type = true ↔ f1.fmt ≠ f2.fmt := by
  simp [cmpFiles]

theorem cmpFiles_permissions {f1 f2 : Inode} :
    (cmpFiles f1 f2).permissions = true ↔ f1.perm ≠ f2.perm := by
  simp [cmpFiles]

/-! ## The block loop -/

/-- The block loop compares the first `length` bytes. -/
theorem cmpBlocks_iff (length : Nat) (bs1 bs2 : Str) :
    cmpBlocks length bs1 bs2 = true ↔
      length ≤ bs1.length ∧ length ≤ bs2.length ∧ bs1.take length = bs2.take length := by
  induction length using Nat.strong_induction_on generalizing bs1 bs2 with
  | _ length ih =>
    rw [cmpBlocks]
    by_cases h0 : length = 0
    · simp [h0]
    have hpos : 0 < blockSize := by decide
    set t := min blockSize length with ht
    have htl : t ≤ length := by omega
    have hlen : length = t + (length - t) := by omega
    -- the first block and the rest
    have hsplit : ∀ bs : Str, bs.take length = bs.take t ++ (bs.drop t).take (length - t) := by
      intro bs
      conv_lhs => rw [hlen, List.take_add]
    rw [if_neg h0]
    simp only [ne_eq, ite_not]
    split_ifs with h1 h2 h3
    · rw [List.length_take] at h1 h2
      rw [ih (length - t) (by omega), List.length_drop, List.length_drop, hsplit bs1, hsplit bs2,
        h3, List.append_cancel_left_eq]
      constructor
      · rintro ⟨hl1, hl2, heq⟩
        exact ⟨by omega, by omega, heq⟩
      · rintro ⟨hl1, hl2, heq⟩
        exact ⟨by omega, by omega, heq⟩
    · refine iff_of_false not_false fun ⟨_, _, heq⟩ => h3 ?_
      have := congrArg (List.take t) heq
      rwa [List.take_take, List.take_take, min_eq_left htl] at this
    · rw [List.length_take] at h2
      refine iff_of_false not_false fun ⟨_, hl2, _⟩ => h2 ?_
      omega
    · rw [List.length_take] at h1
      refine iff_of_false not_false fun ⟨hl1, _, _⟩ => h1 ?_
      omega

/-! ## Symmetry -/

theorem sameMtime_comm (s1 s2 : Stat) : sameMtime s1 s2 = sameMtime s2 s1 := by
  simp only [sameMtime, eq_comm]

/-- Comparing blocks does not depend on which file is named first. -/
theorem cmpBlocks_comm (length : Nat) (bs1 bs2 : Str) :
    cmpBlocks length bs1 bs2 = cmpBlocks length bs2 bs1 := by
  rw [Bool.eq_iff_iff, cmpBlocks_iff, cmpBlocks_iff]
  constructor
  · rintro ⟨h1, h2, heq⟩
    exact ⟨h2, h1, heq.symm⟩
  · rintro ⟨h2, h1, heq⟩
    exact ⟨h1, h2, heq.symm⟩

/-- Neither does the comparison of two regular files, whose shortcuts are symmetric too. -/
theorem cmpFilesContentReg_comm (f1 f2 : Inode) :
    cmpFilesContentReg f1 f2 = cmpFilesContentReg f2 f1 := by
  unfold cmpFilesContentReg
  rw [sameMtime_comm f2.toStat f1.toStat]
  by_cases hsize : f1.size = f2.size
  · rw [hsize]
    cases h1 : f1.data <;> cases h2 : f2.data <;>
      simp only [eq_comm (a := f2.dev), eq_comm (a := f2.ino), cmpBlocks_comm f2.size]
  · simp [hsize, Ne.symm hsize]

theorem cmpFilesContentLnk_comm (f1 f2 : Inode) :
    cmpFilesContentLnk f1 f2 = cmpFilesContentLnk f2 f1 := by
  unfold cmpFilesContentLnk
  rw [sameMtime_comm f2.toStat f1.toStat]
  cases readlinkTmp f1 <;> cases readlinkTmp f2 <;> simp only [eq_comm]

/-- The comparison of two files does not depend on their order. -/
theorem cmpFiles_comm (f1 f2 : Inode) : cmpFiles f1 f2 = cmpFiles f2 f1 := by
  have hcontent : ∀ h : f1.fmt = f2.fmt,
      cmpFilesContent f1 f2 h = cmpFilesContent f2 f1 h.symm := by
    intro h
    unfold cmpFilesContent
    rw [← h]
    cases f1.fmt with
    | reg => exact cmpFilesContentReg_comm f1 f2
    | lnk => exact cmpFilesContentLnk_comm f1 f2
    | _ => rfl
  unfold cmpFiles
  by_cases h : f1.fmt = f2.fmt
  · simp [h.symm, hcontent h, eq_comm (a := f1.uid), eq_comm (a := f1.gid),
      BitVec.xor_comm f1.perm]
  · simp [h, Ne.symm h, eq_comm (a := f1.uid), eq_comm (a := f1.gid),
      BitVec.xor_comm f1.perm]

/-! ## What an equal content means -/

/-- Two regular files of equal bytes have equal contents for the comparison. -/
theorem cmpFilesContentReg_of_eq {f1 f2 : Inode} {bs : Str} (h1 : f1.data = some bs)
    (h2 : f2.data = some bs) (hs1 : f1.size = bs.length) (hs2 : f2.size = bs.length) :
    cmpFilesContentReg f1 f2 = true := by
  have hblocks : cmpBlocks bs.length bs bs = true :=
    (cmpBlocks_iff _ _ _).mpr ⟨le_refl _, le_refl _, rfl⟩
  unfold cmpFilesContentReg
  rw [h1, h2, hs1, hs2]
  simp only [ne_eq, not_true_eq_false, if_false]
  split_ifs <;> first | rfl | exact hblocks

theorem readlinkTmp_eq {f : Inode} {t : Str} (ht : f.data = some t) (hne : t ≠ []) :
    readlinkTmp f = some (t.take 1024) := by
  obtain ⟨b, t, rfl⟩ := List.exists_cons_of_ne_nil hne
  rw [readlinkTmp, readlink, ht]
  rfl

/-- Two symlinks are found equal when their targets agree as far as `readlink` reads them. -/
theorem cmpFilesContentLnk_iff {f1 f2 : Inode} {t1 t2 : Str} (h1 : f1.data = some t1)
    (h2 : f2.data = some t2) (hne1 : t1 ≠ []) (hne2 : t2 ≠ [])
    (hm : sameMtime f1.toStat f2.toStat = false) :
    cmpFilesContentLnk f1 f2 = true ↔ t1.take 1024 = t2.take 1024 := by
  rw [cmpFilesContentLnk, hm, if_neg Bool.false_ne_true, readlinkTmp_eq h1 hne1,
    readlinkTmp_eq h2 hne2]
  simp

/-- Regular files found equal were read and hold the same bytes, unless the comparison
was cut short by their `mtime` or by their being one file. -/
theorem eq_of_cmpFilesContentReg {f1 f2 : Inode} {bs1 bs2 : Str} (h1 : f1.data = some bs1)
    (h2 : f2.data = some bs2) (hs1 : f1.size = bs1.length) (hs2 : f2.size = bs2.length)
    (h : cmpFilesContentReg f1 f2 = true) :
    bs1 = bs2 ∨ sameMtime f1.toStat f2.toStat = true ∨ (f1.dev = f2.dev ∧ f1.ino = f2.ino) := by
  unfold cmpFilesContentReg at h
  rw [h1, h2] at h
  split_ifs at h with hm hsize hzero hsame
  · exact Or.inr (Or.inl hm)
  · left
    have hl1 : bs1 = [] := List.eq_nil_of_length_eq_zero (hs1 ▸ hzero.1)
    have hl2 : bs2 = [] := List.eq_nil_of_length_eq_zero (hs2 ▸ hzero.2)
    rw [hl1, hl2]
  · exact Or.inr (Or.inr hsame)
  · left
    obtain ⟨_, _, heq⟩ := (cmpBlocks_iff _ _ _).mp h
    have hlen : bs2.length = bs1.length := by omega
    rw [hs1] at heq
    rwa [List.take_length, ← hlen, List.take_length] at heq

/-- Symlinks found equal have targets that agree as far as `readlink` reads them,
unless the comparison was cut short by their `mtime`. -/
theorem eq_of_cmpFilesContentLnk {f1 f2 : Inode} {t1 t2 : Str} (h1 : f1.data = some t1)
    (h2 : f2.data = some t2) (hne1 : t1 ≠ []) (hne2 : t2 ≠ [])
    (h : cmpFilesContentLnk f1 f2 = true) :
    t1.take 1024 = t2.take 1024 ∨ sameMtime f1.toStat f2.toStat = true := by
  by_cases hm : sameMtime f1.toStat f2.toStat = true
  · exact Or.inr hm
  · exact Or.inl ((cmpFilesContentLnk_iff h1 h2 hne1 hne2 (by simpa using hm)).mp h)

end Snapper
