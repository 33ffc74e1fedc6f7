import Snapper.Compare.CmpFiles

/-!
# Contents read block by block

`read` may fail and may come back short, whatever is in the file.  Here the comparison of two
regular files gets what `read` answers; `cmpFilesContentReg` is the case in which it fails for no
file that was opened and comes back short at the end of the file only.

## Main results

- `cmpFilesContentReg_eq`: the two comparisons agree
- `eq_of_cmpFilesContentRegBy`: whatever `read` answers, no difference is missed
- `content_comparison_decides`: where every read is full, the comparison decides equality
-/

namespace Snapper

/-! ## The comparison -/

/-- What `read` answers at an offset of an open file when it is asked for some bytes: those it
returns, or `none` for `-1`. -/
abbrev Read := Nat → Nat → Option Str

/-- The `while (length > 0)` loop of `cmpFilesContentReg`.  A round that goes on has read the same
number of bytes of both files, so that the descriptors have one offset. -/
def readBlocks (read1 read2 : Read) (offset length : Nat) : Bool :=
  if length = 0 then true
  else
    let t := min blockSize length
    match read1 offset t with
    | none => false
    | some block1 =>
      if block1.length ≠ t then false
      else
        match read2 offset t with
        | none => false
        | some block2 =>
          if block2.length ≠ t then false
          else if block1 ≠ block2 then false
          else readBlocks read1 read2 (offset + t) (length - t)
termination_by length
decreasing_by simp only [blockSize]; omega

/-- `cmpFilesContentReg` of two files, with what `open` returns for them. -/
def cmpFilesContentRegBy (open1 open2 : Option Read) (stat1 stat2 : Stat) : Bool :=
  if sameMtime stat1 stat2 then true
  else if stat1.size ≠ stat2.size then false
  else if stat1.size = 0 ∧ stat2.size = 0 then true
  else if stat1.dev = stat2.dev ∧ stat1.ino = stat2.ino then true
  else
    match open1, open2 with
    | some read1, some read2 => readBlocks read1 read2 0 stat1.size
    | _, _ => false

namespace Read

/-- Reads that come back short at the end of the file only -/
def ofBytes (bs : Str) : Read := fun offset count => some ((bs.drop offset).take count)

/-- Every read returns the full number of bytes that it is asked for, if there are so many. -/
def Full (read : Read) (bs : Str) : Prop :=
  ∀ offset count, offset + count ≤ bs.length →
    read offset count = some ((bs.drop offset).take count)

/-- What a read returns is in the file. -/
def Honest (read : Read) (bs : Str) : Prop :=
  ∀ offset count block, read offset count = some block → block <+: bs.drop offset

theorem full_ofBytes (bs : Str) : (ofBytes bs).Full bs := fun _ _ _ => rfl

theorem honest_ofBytes (bs : Str) : (ofBytes bs).Honest bs := by
  intro offset count block hread
  rw [← Option.some.inj hread]
  exact List.take_prefix _ _

end Read

section Blocks

variable {read1 read2 read1' read2' : Read} {bs1 bs2 : Str} {stat1 stat2 : Stat}
  {offset length : Nat}

/-! ## The loop -/

/-- The loop reads the next `length` bytes and no others. -/
theorem readBlocks_congr
    (h1 : ∀ o c, offset ≤ o → o + c ≤ offset + length → read1 o c = read1' o c)
    (h2 : ∀ o c, offset ≤ o → o + c ≤ offset + length → read2 o c = read2' o c) :
    readBlocks read1 read2 offset length = readBlocks read1' read2' offset length := by
  induction length using Nat.strong_induction_on generalizing offset with
  | _ length ih =>
    rw [readBlocks, readBlocks]
    -- block after block: what is left is shorter
    by_cases h0 : length = 0
    · rw [if_pos h0, if_pos h0]
    have hpos : 0 < blockSize := by decide
    have hblock : min blockSize length ≤ length := Nat.min_le_right _ _
    have hrest :
        readBlocks read1 read2 (offset + min blockSize length) (length - min blockSize length) =
          readBlocks read1' read2' (offset + min blockSize length)
            (length - min blockSize length) := by
      apply ih
      · omega
      · exact fun o c ho hc => h1 o c (by omega) (by omega)
      · exact fun o c ho hc => h2 o c (by omega) (by omega)
    rw [if_neg h0, if_neg h0]
    dsimp only
    rw [h1 offset _ (le_refl _) (by omega), h2 offset _ (le_refl _) (by omega), hrest]

/-- The loop over the bytes that are left in the two files -/
theorem readBlocks_ofBytes (bs1 bs2 : Str) (offset length : Nat) :
    readBlocks (Read.ofBytes bs1) (Read.ofBytes bs2) offset length =
      cmpBlocks length (bs1.drop offset) (bs2.drop offset) := by
  induction length using Nat.strong_induction_on generalizing offset with
  | _ length ih =>
    rw [readBlocks, cmpBlocks]
    by_cases h0 : length = 0
    · rw [if_pos h0, if_pos h0]
    have hpos : 0 < blockSize := by decide
    rw [if_neg h0, if_neg h0]
    dsimp only [Read.ofBytes]
    rw [ih _ (by omega), List.drop_drop, List.drop_drop]

/-- A loop that finds no difference has read the bytes of both files, and they are equal. -/
theorem take_eq_of_readBlocks (h1 : read1.Honest bs1) (h2 : read2.Honest bs2)
    (h : readBlocks read1 read2 offset length = true) :
    (bs1.drop offset).take length = (bs2.drop offset).take length := by
  induction length using Nat.strong_induction_on generalizing offset with
  | _ length ih =>
    rw [readBlocks] at h
    by_cases h0 : length = 0
    · rw [h0, List.take_zero, List.take_zero]
    have hpos : 0 < blockSize := by decide
    rw [if_neg h0] at h
    dsimp only at h
    split at h
    · cases h
    · next block1 hread1 =>
      split_ifs at h with hlen1
      split at h
      · cases h
      · next block2 hread2 =>
        split_ifs at h with hlen2 hne
        -- the block is the first part of what is left, in both files
        have hblock : ∀ {bs block : Str}, block <+: bs.drop offset →
            ¬block.length ≠ min blockSize length →
            (bs.drop offset).take (min blockSize length) = block := by
          intro bs block hstarts hlen
          rw [← not_not.mp hlen]
          exact (List.prefix_iff_eq_take.mp hstarts).symm
        have hsplit : ∀ bs : Str, (bs.drop offset).take length =
            (bs.drop offset).take (min blockSize length) ++
              (bs.drop (offset + min blockSize length)).take (length - min blockSize length) := by
          intro bs
          have hlength : length = min blockSize length + (length - min blockSize length) := by omega
          conv_lhs => rw [hlength, List.take_add, List.drop_drop]
        rw [hsplit bs1, hsplit bs2, hblock (h1 _ _ _ hread1) hlen1, hblock (h2 _ _ _ hread2) hlen2,
          not_not.mp hne, ih _ (by omega) h]

/-! ## The files -/

/-- The comparison of two files that are read to their ends -/
theorem cmpFilesContentReg_eq (f1 f2 : Inode) :
    cmpFilesContentReg f1 f2 = cmpFilesContentRegBy (f1.data.map Read.ofBytes)
      (f2.data.map Read.ofBytes) f1.toStat f2.toStat := by
  unfold cmpFilesContentReg cmpFilesContentRegBy
  cases f1.data with
  | none => rfl
  | some bs1 =>
    cases f2.data with
    | none => rfl
    | some bs2 =>
      dsimp only [Option.map_some]
      rw [readBlocks_ofBytes, List.drop_zero, List.drop_zero]

/-- Whatever the reads return, two files that are found equal are, unless the comparison was cut
short by their `mtime` or by their being one file. -/
theorem eq_of_cmpFilesContentRegBy (h1 : read1.Honest bs1) (h2 : read2.Honest bs2)
    (hsize1 : stat1.size = bs1.length) (hsize2 : stat2.size = bs2.length)
    (hmtime : sameMtime stat1 stat2 = false)
    (hinode : ¬(stat1.dev = stat2.dev ∧ stat1.ino = stat2.ino))
    (h : cmpFilesContentRegBy (some read1) (some read2) stat1 stat2 = true) : bs1 = bs2 := by
  rw [cmpFilesContentRegBy, hmtime, if_neg Bool.false_ne_true] at h
  split_ifs at h with hsize hzero
  · rw [List.eq_nil_of_length_eq_zero (hsize1.symm.trans hzero.1),
      List.eq_nil_of_length_eq_zero (hsize2.symm.trans hzero.2)]
  · have htake := take_eq_of_readBlocks h1 h2 h
    have hlength : stat1.size = bs2.length := (not_not.mp hsize).trans hsize2
    rw [List.drop_zero, List.drop_zero] at htake
    conv_lhs at htake => rw [hsize1, List.take_length]
    rwa [hlength, List.take_length] at htake

/-- Full reads are those of the bytes of the files. -/
theorem cmpFilesContentRegBy_full (h1 : read1.Full bs1) (h2 : read2.Full bs2)
    (hsize1 : stat1.size = bs1.length) (hsize2 : stat2.size = bs2.length) :
    cmpFilesContentRegBy (some read1) (some read2) stat1 stat2 =
      cmpFilesContentReg ⟨stat1, some bs1⟩ ⟨stat2, some bs2⟩ := by
  rw [cmpFilesContentReg_eq]
  unfold cmpFilesContentRegBy
  by_cases hsize : stat1.size = stat2.size
  · have hloop : readBlocks read1 read2 0 stat1.size =
        readBlocks (Read.ofBytes bs1) (Read.ofBytes bs2) 0 stat1.size := by
      apply readBlocks_congr
      · intro o c _ hend
        exact h1 o c (by omega)
      · intro o c _ hend
        exact h2 o c (by omega)
    dsimp only [Option.map_some]
    rw [hloop]
  · simp only [hsize, ne_eq, not_false_eq_true, if_true]

/-- The comparison of two files that differ in `mtime`, are not one file and are read without
interruption decides whether their bytes are the same. -/
theorem content_comparison_decides (h1 : read1.Full bs1) (h2 : read2.Full bs2)
    (hsize1 : stat1.size = bs1.length) (hsize2 : stat2.size = bs2.length)
    (hmtime : sameMtime stat1 stat2 = false)
    (hinode : ¬(stat1.dev = stat2.dev ∧ stat1.ino = stat2.ino)) :
    cmpFilesContentRegBy (some read1) (some read2) stat1 stat2 = true ↔ bs1 = bs2 := by
  rw [cmpFilesContentRegBy_full h1 h2 hsize1 hsize2]
  constructor
  · intro h
    rcases eq_of_cmpFilesContentReg rfl rfl hsize1 hsize2 h with heq | hsame | hone
    · exact heq
    · exact absurd (hmtime.symm.trans hsame) Bool.false_ne_true
    · exact absurd hone hinode
  · rintro rfl
    exact cmpFilesContentReg_of_eq rfl rfl hsize1 hsize2

end Blocks

/-- Two files of one block and one byte, of which only the last byte differs -/
theorem content_comparison_decides_last_byte :
    let stat1 : Stat :=
      { fmt := .reg, perm := 0o644, uid := 0, gid := 0, mtimeSec := 1, mtimeNsec := 0,
        size := 4097, dev := 1, ino := 2 }
    let stat2 : Stat := { stat1 with mtimeNsec := 1, ino := 3 }
    let bs : Str := List.replicate 4096 0
    cmpFilesContentRegBy (some (Read.ofBytes (bs ++ [1]))) (some (Read.ofBytes (bs ++ [2])))
      stat1 stat2 = false := by
  intro stat1 stat2 bs
  have hlength : ∀ b : UInt8, 4097 = (bs ++ [b]).length := by
    intro b
    rw [List.length_append, List.length_replicate]
    rfl
  have hiff : _ = true ↔ bs ++ [1] = bs ++ [2] := content_comparison_decides (Read.full_ofBytes _)
    (Read.full_ofBytes _) (hlength 1) (hlength 2) (rfl : sameMtime stat1 stat2 = false) (by decide)
  rw [Bool.eq_false_iff, Ne, hiff, List.append_cancel_left_eq]
  decide

end Snapper
