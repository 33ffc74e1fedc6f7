import Snapper.General.Best
import Snapper.Undo.Parents

/-!
# Detecting the type of a file system

`Snapper::detectFstype` takes the type from the entry of the mount table whose directory is the
longest one above the subvolume.

## Main results

- `isSubpath_iff`: the test of the two strings is one of whole components
- `detectFstype_spec`: the type is that of the last of the longest mount directories
-/

namespace Snapper.Config

open General

/-! ## The mount table -/

/-- `struct mntent`, with the strings that its pointers are to -/
structure Mntent where
  mntDir : Str
  mntType : Str
  deriving DecidableEq, Repr

/-- `is_subpath` -/
def isSubpath (a b : Str) : Bool :=
  if b = [slash] then true
  else
    let len := b.length
    if len > a.length then false
    else (len = a.length || a[len]? = some slash) && a.take len = b

/-- One round of the loop over the table, with `best_match` and `fstype` -/
def matchMntent (subvolume : Str) (best : Str × Str) (m : Mntent) : Str × Str :=
  if m.mntType = str "rootfs" then best
  else if m.mntDir.length ≥ best.1.length && isSubpath subvolume m.mntDir then
    (m.mntDir, m.mntType)
  else best

/-- `ext4` had another name once. -/
def currentType (fstype : Str) : Str := if fstype = str "ext4dev" then str "ext4" else fstype

/-- `Snapper::detectFstype`, with what it leaves in `fstype`.  `mtab` are the entries that
`getmntent` returns, `none` where `/etc/mtab` cannot be opened. -/
def detectFstype (mtab : Option (List Mntent)) (subvolume fstype : Str) :
    Cmd World (Bool × Str) := do
  if subvolume.head? ≠ some slash then return (false, fstype)
  if !(← checkDir subvolume) then return (false, fstype)
  match mtab with
  | none => return (false, fstype)
  | some entries =>
    let (bestMatch, fstype) := entries.foldl (matchMntent subvolume) ([], [])
    return (!bestMatch.isEmpty, currentType fstype)

/-! ## Paths as components -/

/-- The components of an absolute path: what stands between its slashes.  After a slash at its end
stands an empty component, but the root directory has none. -/
def componentsOf (path : Str) : List Str := if path = [slash] then [] else (path.splitOn slash).tail

/-- The directory is above the path: the path goes on with more components. -/
def Ancestor (dir path : Str) : Prop := ∃ rest ≠ [], componentsOf path = componentsOf dir ++ rest

/-- The directory is that of the path or one above it. -/
def Covers (dir path : Str) : Prop := dir = path ∨ Ancestor dir path

/-- A text is the path of the pieces between its slashes. -/
theorem pathName_splitOn (s : Str) : pathName (s.splitOn slash) = slash :: s := by
  induction s with
  | nil => rfl
  | cons b s ih =>
    rw [List.splitOn_cons_eq_if_modifyHead]
    cases hsplit : s.splitOn slash with
    | nil => exact absurd hsplit (List.splitOn_ne_nil _ _)
    | cons piece pieces =>
      rw [hsplit] at ih
      split
      · next hb =>
        obtain rfl : b = slash := by simpa using hb
        rw [pathName_cons, ih]
        rfl
      · rw [pathName_cons] at ih
        rw [List.modifyHead_cons, pathName_cons, List.cons_append, ← (List.cons.inj ih).2]

/-- An absolute path is the text of its components. -/
theorem pathName_componentsOf {path : Str} (habs : path.head? = some slash) (hne : path ≠ [slash]) :
    pathName (componentsOf path) = path := by
  cases path with
  | nil => cases habs
  | cons b path =>
    obtain rfl := Option.some.inj habs
    rw [componentsOf, if_neg hne, List.splitOn_cons_eq_if_modifyHead]
    simpa using pathName_splitOn path

/-- The components of a path below a directory are those of the directory and then the rest. -/
theorem componentsOf_append {dir rest : Str} (hdir : dir ≠ []) (hne : dir ≠ [slash]) :
    componentsOf (dir ++ slash :: rest) = componentsOf dir ++ rest.splitOn slash := by
  have hlong : dir ++ slash :: rest ≠ [slash] := by
    intro h
    have hlen := congrArg List.length h
    have hpos := List.length_pos_iff.mpr hdir
    simp at hlen
    omega
  rw [componentsOf, componentsOf, if_neg hlong, if_neg hne, List.splitOn_append_cons_self,
    List.tail_append_of_ne_nil (List.splitOn_ne_nil _ _)]

/-- The test looks at the end of the directory and at what follows it in the path. -/
theorem isSubpath_of_ne {dir path : Str} (hne : dir ≠ [slash]) : isSubpath path dir = true ↔
    ∃ rest, path = dir ++ rest ∧ (rest = [] ∨ rest.head? = some slash) := by
  rw [isSubpath, if_neg hne]
  dsimp only
  split
  -- the directory is longer than the path
  · next hlong =>
    refine iff_of_false (by simp) ?_
    rintro ⟨rest, rfl, -⟩
    rw [List.length_append] at hlong
    omega
  · next hlong =>
    simp only [Bool.and_eq_true, Bool.or_eq_true, decide_eq_true_eq]
    constructor
    · rintro ⟨hend, htake⟩
      have hpath : path = dir ++ path.drop dir.length := by
        conv_lhs => rw [← List.take_append_drop dir.length path, htake]
      refine ⟨_, hpath, ?_⟩
      -- the path ends with the directory or goes on with a slash
      rcases hend with hend | hend
      · left
        rw [hend, List.drop_length]
      · right
        rw [List.head?_drop, hend]
    · rintro ⟨rest, rfl, hrest⟩
      refine ⟨?_, List.take_left⟩
      rcases hrest with rfl | hrest
      · left
        rw [List.append_nil]
      · right
        rw [List.getElem?_append_right (le_refl _), Nat.sub_self, ← List.head?_eq_getElem?, hrest]

/-- The test of the two strings is one of whole components. -/
theorem isSubpath_iff {dir path : Str} (hdir : dir.head? = some slash)
    (hpath : path.head? = some slash) : isSubpath path dir = true ↔ Covers dir path := by
  have hroot : componentsOf [slash] = [] := rfl
  -- the root is a case of its own in the source
  by_cases hne : dir = [slash]
  · refine iff_of_true (if_pos hne) ?_
    by_cases hsame : path = [slash]
    · exact Or.inl (hne.trans hsame.symm)
    · right
      refine ⟨componentsOf path, ?_, by rw [hne, hroot, List.nil_append]⟩
      intro hnil
      have htext := pathName_componentsOf hpath hsame
      rw [hnil, pathName_nil] at htext
      rw [← htext] at hpath
      cases hpath
  · rw [isSubpath_of_ne hne]
    constructor
    -- what follows `dir` is nothing, or starts at a component
    · rintro ⟨rest, rfl, rfl | hrest⟩
      · exact Or.inl (List.append_nil dir).symm
      · right
        obtain ⟨rest, rfl⟩ := List.head?_eq_some_iff.mp hrest
        refine ⟨_, List.splitOn_ne_nil slash rest, componentsOf_append ?_ hne⟩
        rintro rfl
        cases hdir
    · rintro (rfl | ⟨rest, hrest, hcomponents⟩)
      · exact ⟨[], (List.append_nil dir).symm, Or.inl rfl⟩
      · have hlong : path ≠ [slash] := by
          rintro rfl
          rw [hroot] at hcomponents
          exact hrest (List.append_eq_nil_iff.mp hcomponents.symm).2
        have htext := pathName_componentsOf hpath hlong
        rw [hcomponents, pathName_append, pathName_componentsOf hdir hne] at htext
        refine ⟨pathName rest, htext.symm, Or.inr ?_⟩
        obtain ⟨piece, pieces, rfl⟩ := List.exists_cons_of_ne_nil hrest
        rfl

/-! ## The best match -/

/-- The entry is one of those among which the best match is sought. -/
def Mntent.Matches (subvolume : Str) (m : Mntent) : Prop :=
  m.mntType ≠ str "rootfs" ∧ isSubpath subvolume m.mntDir = true

instance (subvolume : Str) : DecidablePred (Mntent.Matches subvolume) := fun _ =>
  inferInstanceAs (Decidable (_ ∧ _))

/-- What the loop keeps of the best match. -/
def keptOf (best : Option Mntent) : Str × Str :=
  (best.map fun m => (m.mntDir, m.mntType)).getD ([], [])

/-- One round keeps the better of two entries. -/
theorem matchMntent_keptOf (subvolume : Str) (best : Option Mntent) (m : Mntent) :
    matchMntent subvolume (keptOf best) m =
      keptOf (better (Mntent.Matches subvolume) (fun m => m.mntDir.length) best m) := by
  -- nothing kept yet counts as the empty directory
  have hlength : (keptOf best).1.length ≤ m.mntDir.length ↔
      best.all (fun b => b.mntDir.length ≤ m.mntDir.length) = true := by
    cases best with
    | none => simp [keptOf]
    | some b => simp [keptOf]
  rw [matchMntent, better]
  by_cases hroot : m.mntType = str "rootfs"
  · rw [if_pos hroot, if_neg fun h => h.1.1 hroot]
  · rw [if_neg hroot]
    split
    · next h =>
      simp only [ge_iff_le, Bool.and_eq_true, decide_eq_true_eq] at h
      rw [if_pos ⟨⟨hroot, h.2⟩, hlength.mp h.1⟩]
      rfl
    · next h =>
      simp only [ge_iff_le, Bool.and_eq_true, decide_eq_true_eq] at h
      rw [if_neg fun h' => h ⟨hlength.mpr h'.2, h'.1.2⟩]

/-- The loop over the table keeps the longest directory that fits, and of equal ones the last. -/
theorem foldl_matchMntent (subvolume : Str) (entries : List Mntent) :
    entries.foldl (matchMntent subvolume) ([], []) = keptOf
      (entries.foldl (better (Mntent.Matches subvolume) fun m => m.mntDir.length) none) := by
  apply foldl_induction (P := fun done kept => kept = keptOf
    (done.foldl (better (Mntent.Matches subvolume) fun m => m.mntDir.length) none)) rfl _
    (List.append_nil entries).symm
  rintro done m - - hkept
  rw [hkept, matchMntent_keptOf, List.foldl_append]
  rfl

/-- The entry is not `rootfs`, and its directory is that of the subvolume or one above it. -/
def Mntent.Holds (subvolume : Str) (m : Mntent) : Prop :=
  m.mntType ≠ str "rootfs" ∧ Covers m.mntDir subvolume

/-- The result is what the loop has kept. -/
theorem detectFstype_run {entries : List Mntent} {subvolume fstype : Str} {w : World}
    (habs : subvolume.head? = some slash) (hdir : ((checkDir subvolume).run w).1 = true) :
    ((detectFstype (some entries) subvolume fstype).run w).1 =
      (!(entries.foldl (matchMntent subvolume) ([], [])).1.isEmpty,
        currentType (entries.foldl (matchMntent subvolume) ([], [])).2) := by
  rw [detectFstype, if_neg (not_not.mpr habs), Cmd.run_bind, hdir]
  rfl

/-- What is detected of a directory is the type of the last of the longest mount directories that
are above it. -/
theorem detectFstype_spec (entries : List Mntent) (subvolume fstype : Str) (w : World)
    (hdirs : ∀ m ∈ entries, m.mntDir.head? = some slash) (habs : subvolume.head? = some slash)
    (hdir : ((checkDir subvolume).run w).1 = true) :
    let r := ((detectFstype (some entries) subvolume fstype).run w).1
    (r.1 = true ↔ ∃ m ∈ entries, m.Holds subvolume) ∧
      (r.1 = true → ∃ m, LastBest (Mntent.Holds subvolume) (fun m => m.mntDir.length) entries m ∧
        r.2 = currentType m.mntType) := by
  -- the test of the source is the relation of components for these directories
  have hholds : ∀ m ∈ entries, m.Matches subvolume ↔ m.Holds subvolume := fun m hm =>
    and_congr_right fun _ => isSubpath_iff (hdirs m hm) habs
  intro r
  have hr : r = _ := detectFstype_run habs hdir
  rw [foldl_matchMntent] at hr
  cases hbest : entries.foldl (better (Mntent.Matches subvolume) fun m => m.mntDir.length) none with
  | none =>
    have hnone := foldl_better_eq_none_iff.mp hbest
    have hfalse : r.1 = false := by rw [hr, hbest]; rfl
    rw [hfalse]
    refine ⟨iff_of_false Bool.false_ne_true ?_, fun h => absurd h Bool.false_ne_true⟩
    rintro ⟨m, hm, hmatches⟩
    exact hnone m hm ((hholds m hm).mpr hmatches)
  | some m =>
    have hlast : LastBest (Mntent.Holds subvolume) _ entries m :=
      (lastBest_of_foldl_better hbest).congr hholds
    -- the best directory is absolute, and so not the empty text the loop starts with
    have htrue : r.1 = true := by
      obtain ⟨rest, hrest⟩ := List.head?_eq_some_iff.mp (hdirs m hlast.mem)
      rw [hr, hbest, keptOf, Option.map_some, Option.getD_some, hrest]
      rfl
    refine ⟨iff_of_true htrue ⟨m, hlast.mem, hlast.1⟩, fun _ => ⟨m, hlast, ?_⟩⟩
    rw [hr, hbest]
    rfl

/-- Of two file systems mounted on one directory the last one is detected; the mount on a sibling
with a longer name has nothing to do with it. -/
theorem detectFstype_spec_overmounted :
    let entries : List Mntent := [⟨str "/", str "rootfs"⟩, ⟨str "/d", str "xfs"⟩,
      ⟨str "/d", str "ext4dev"⟩, ⟨str "/", str "btrfs"⟩, ⟨str "/d-e", str "jfs"⟩]
    ((detectFstype (some entries) (str "/d") []).run (quietWorld dirFs)).1 = (true, str "ext4") ∧
      ∃ m, LastBest (Mntent.Holds (str "/d")) (fun m => m.mntDir.length) entries m ∧
        str "ext4" = currentType m.mntType :=
  ⟨rfl, (detectFstype_spec _ (str "/d") [] (quietWorld dirFs) (by decide) rfl rfl).2 rfl⟩

end Snapper.Config
