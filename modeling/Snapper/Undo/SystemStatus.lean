import Snapper.Compare.Entries
import Snapper.Compare.Symmetry
import Snapper.General.Act
import Snapper.Undo.Step

/-!
# The status of a file against the system

`getPreToSystemStatus` and `getPostToSystemStatus` open the directory of a file below the snapshot
and below the system and compare what is there.  `SDir::deepopen` takes the name of the directory
apart at its slashes; what stands before a leading slash is the empty name, which is nowhere.

## Main results

- `systemStatus_relative`: a name without the leading slash gets the status of its files
- `system_status_throws`: the name of an entry has a leading slash, and gets none
-/

namespace Snapper

open General

/-! ## Names of directories -/

/-- `dirname` -/
def dirname (name : Str) : Str :=
  match leadingPath name with
  | none => str "."
  | some [] => [slash]
  | some leading => leading

/-- `basename` -/
def basename (name : Str) : Str := (name.reverse.takeWhile (· ≠ slash)).reverse

namespace Tree

/-- The file that `openat` and `fstatat` find under a name without slashes, no symlink followed;
there is none for an empty name. -/
def fileAt (dir : Tree) (name : Str) : Option Tree :=
  let name := cstr name
  if name = [] then none
  else if name = str "." then some dir
  else dir.entries.lookup name

/-- `SDir(dir, name)` for a name from outside; `none` is an `IOErrorException`. -/
def subdir (dir : Tree) (name : Str) : Option Tree := (dir.fileAt name).filter isDir

/-- `SDir::deepopen`, on the text of the name; at the first slash it ends the first directory. -/
def deepopenName (dir : Tree) (name : Str) : Option Tree :=
  if _h : slash ∈ name then
    (dir.subdir (name.takeWhile (· ≠ slash))).bind fun dir =>
      dir.deepopenName (name.dropWhile (· ≠ slash)).tail
  else dir.subdir name
termination_by name.length
decreasing_by
  have hdrop := (List.dropWhile_sublist (· ≠ slash) (l := name)).length_le
  have hpos : 0 < name.length := List.length_pos_of_mem _h
  rw [List.length_tail]
  omega

/-- `SFile(dir, name).stat` -/
def statAt (dir : Tree) (name : Str) : Option Inode := (dir.fileAt name).map inode

end Tree

/-! ## Statuses -/

/-- `class FilePaths`, with the directories for their paths -/
structure FileDirs where
  pre : DirTree
  post : DirTree
  system : DirTree

/-- `pre_to_system_status` and `post_to_system_status` of a `File`, `none` for `-1` -/
structure SystemStatuses where
  preToSystem : Option Status := none
  postToSystem : Option Status := none
  deriving DecidableEq

/-- What looking for a status can throw. -/
inductive StatusError where
  | IOErrorException
  deriving DecidableEq

/-- The comparison of the file of a snapshot with that of the system; `none` is an
`IOErrorException`. -/
def systemStatus (snapshot system : DirTree) (name : Str) : Option Status := do
  let subdir1 ← snapshot.root.deepopenName (dirname name)
  let subdir2 ← system.root.deepopenName (dirname name)
  cmpFilesAt (subdir1.statAt (basename name)) (subdir2.statAt (basename name))

/-- `getPreToSystemStatus` and `getPostToSystemStatus`: a status that is known is not computed
again. -/
def getSystemStatus (known : SystemStatuses → Option Status)
    (store : Status → SystemStatuses → SystemStatuses) (snapshot system : DirTree) (name : Str) :
    Act SystemStatuses StatusError Status := do
  match ← Act.read known with
  | some status => return status
  | none =>
    match systemStatus snapshot system name with
    | none => throw .IOErrorException
    | some status =>
      Act.modify (store status)
      return status

/-- `File::getPreToSystemStatus` -/
def getPreToSystemStatus (dirs : FileDirs) (name : Str) : Act SystemStatuses StatusError Status :=
  getSystemStatus SystemStatuses.preToSystem (fun status s => { s with preToSystem := some status })
    dirs.pre dirs.system name

/-- `File::getPostToSystemStatus` -/
def getPostToSystemStatus (dirs : FileDirs) (name : Str) : Act SystemStatuses StatusError Status :=
  getSystemStatus SystemStatuses.postToSystem
    (fun status s => { s with postToSystem := some status }) dirs.post dirs.system name

/-! ## Relative names -/

/-- The text of a path below a directory, without the leading slash -/
def relativeName (p : Path) : Str := (pathName p).tail

theorem relativeName_cons (n m : Name) (p : Path) :
    relativeName (n :: m :: p) = n ++ slash :: relativeName (m :: p) := by
  simp [relativeName]

theorem relativeName_concat {p : Path} (hp : p ≠ []) (n : Name) :
    relativeName (p ++ [n]) = relativeName p ++ slash :: n := by
  cases p with
  | nil => exact absurd rfl hp
  | cons m p => simp [relativeName, pathName_append]

namespace Tree

variable {dir : Tree} {n : Name}

theorem fileAt_of_valid (hn : ValidName n) : dir.fileAt n = dir.entries.lookup n := by
  unfold fileAt
  rw [cstr_of_no_nul hn.no_nul, if_neg hn.ne_nil, if_neg hn.ne_dot]

theorem subdir_of_valid (hn : ValidName n) : dir.subdir n = dir.opendir n := by
  unfold subdir opendir
  rw [fileAt_of_valid hn]
  cases dir.entries.lookup n with
  | none => rfl
  | some t => rw [Option.filter_some]

/-- On a relative name `deepopen` opens the directory at the path. -/
theorem deepopenName_relative {p : Path} (hp : ∀ n ∈ p, ValidName n) (hne : p ≠ []) :
    dir.deepopenName (relativeName p) = dir.deepopen p := by
  -- name by name: the part in front of the first slash is opened
  induction p generalizing dir with
  | nil => exact absurd rfl hne
  | cons n p ih =>
    have hn : ValidName n := hp n (List.mem_cons_self ..)
    cases p with
    | nil =>
      have hname : relativeName [n] = n := by simp [relativeName]
      rw [hname, deepopenName, dif_neg hn.no_slash, subdir_of_valid hn, deepopen]
      cases dir.opendir n with
      | none => rfl
      | some t => exact (deepopen.eq_def t []).symm
    | cons m p =>
      have hall : ∀ b ∈ n, decide (b ≠ slash) = true := fun b hb =>
        decide_eq_true fun h => hn.no_slash (h ▸ hb)
      have hrest (dir : Tree) : dir.deepopenName (relativeName (m :: p)) = dir.deepopen (m :: p) :=
        ih (fun m hm => hp m (List.mem_cons_of_mem _ hm)) (List.cons_ne_nil m p)
      rw [relativeName_cons, deepopenName, dif_pos (by simp), List.takeWhile_append_of_pos hall,
        List.dropWhile_append_of_pos hall, deepopen]
      simp only [ne_eq, not_true_eq_false, decide_false, List.takeWhile_cons, List.dropWhile_cons,
        Bool.false_eq_true, if_false, List.append_nil, List.tail_cons]
      rw [subdir_of_valid hn]
      cases dir.opendir n with
      | none => rfl
      | some t => exact hrest t

end Tree

theorem dirname_append {leading : Str} (hne : leading ≠ []) {n : Name} (hn : slash ∉ n) :
    dirname (leading ++ slash :: n) = leading := by
  unfold dirname
  rw [leadingPath_append leading hn]
  cases leading with
  | nil => exact absurd rfl hne
  | cons b leading => rfl

theorem dirname_of_no_slash {n : Name} (hn : slash ∉ n) : dirname n = str "." := by
  unfold dirname leadingPath
  rw [if_neg hn]

theorem basename_of_no_slash {n : Name} (hn : slash ∉ n) : basename n = n := by
  have hall : n.reverse.takeWhile (· ≠ slash) = n.reverse :=
    List.takeWhile_eq_self_iff.mpr fun b hb =>
      decide_eq_true fun h => hn (h ▸ List.mem_reverse.mp hb)
  rw [basename, hall, List.reverse_reverse]

theorem basename_append (leading : Str) {n : Name} (hn : slash ∉ n) :
    basename (leading ++ slash :: n) = n := by
  have hall : ∀ b ∈ n.reverse, decide (b ≠ slash) = true := fun b hb =>
    decide_eq_true fun h => hn (h ▸ List.mem_reverse.mp hb)
  have hrev : (leading ++ slash :: n).reverse = n.reverse ++ slash :: leading.reverse := by simp
  rw [basename, hrev, List.takeWhile_append_of_pos hall]
  simp

/-- The directory of a relative name is opened. -/
theorem deepopenName_dirname (dir : DirTree) {p : Path} {n : Name}
    (hp : ∀ m ∈ p ++ [n], ValidName m) :
    dir.root.deepopenName (dirname (relativeName (p ++ [n]))) = dir.root.deepopen p := by
  have hn : ValidName n := hp n (List.mem_append_right p (List.mem_singleton_self n))
  by_cases hne : p = []
  · -- the name `.` stands for the directory itself
    have hname : relativeName ([] ++ [n]) = n := by simp [relativeName]
    have hdot : slash ∉ str "." := by decide
    rw [hne, hname, dirname_of_no_slash hn.no_slash, Tree.deepopenName, dif_neg hdot,
      Tree.deepopen]
    have hdir : dir.root.isDir = true := by simp [Tree.isDir, dir.isDir]
    exact Option.filter_some_pos hdir
  · have hrelative : relativeName p ≠ [] := by
      obtain ⟨m, q, rfl⟩ := List.exists_cons_of_ne_nil hne
      have hm : m ≠ [] := (hp m (by simp)).ne_nil
      simp [relativeName, hm]
    rw [relativeName_concat hne, dirname_append hrelative hn.no_slash]
    exact Tree.deepopenName_relative (fun m hm => hp m (List.mem_append_left [n] hm)) hne

theorem basename_relative {p : Path} {n : Name} (hn : slash ∉ n) :
    basename (relativeName (p ++ [n])) = n := by
  by_cases hne : p = []
  · have hname : relativeName ([] ++ [n]) = n := by simp [relativeName]
    rw [hne, hname, basename_of_no_slash hn]
  · rw [relativeName_concat hne, basename_append _ hn]

theorem Tree.statAt_deepopen {t d : Tree} {p : Path} {n : Name} (hn : ValidName n)
    (hd : t.deepopen p = some d) : d.statAt n = t.lookup (p ++ [n]) := by
  rw [statAt, fileAt_of_valid hn, lookup, find_append, find_of_deepopen hd]
  show _ = (d.find [n]).map inode
  rw [find_cons]
  cases d.entries.lookup n <;> simp

/-- A relative name is given the status of the files at the path. -/
theorem systemStatus_relative (snapshot system : DirTree) {p : Path} {n : Name}
    (hp : ∀ m ∈ p ++ [n], ValidName m) {subdir1 subdir2 : Tree}
    (h1 : snapshot.root.deepopen p = some subdir1) (h2 : system.root.deepopen p = some subdir2) :
    systemStatus snapshot system (relativeName (p ++ [n])) =
      cmpFilesAt (snapshot.root.lookup (p ++ [n])) (system.root.lookup (p ++ [n])) := by
  have hn : ValidName n := hp n (List.mem_append_right p (List.mem_singleton_self n))
  unfold systemStatus
  rw [deepopenName_dirname snapshot hp, deepopenName_dirname system hp, h1, h2,
    basename_relative hn.no_slash]
  show cmpFilesAt (subdir1.statAt n) (subdir2.statAt n) = _
  rw [Tree.statAt_deepopen hn h1, Tree.statAt_deepopen hn h2]

/-! ## A leading slash -/

theorem Tree.subdir_nil (dir : Tree) : dir.subdir [] = none := rfl

theorem Tree.deepopenName_slash (dir : Tree) (rest : Str) :
    dir.deepopenName (slash :: rest) = none := by
  have hfirst : (slash :: rest).takeWhile (· ≠ slash) = [] := by simp
  rw [deepopenName, dif_pos (List.mem_cons_self ..), hfirst, subdir_nil]
  rfl

/-- The leading path is a prefix of the path. -/
theorem leadingPath_prefix {path leading : Str} (h : leadingPath path = some leading) :
    leading <+: path := by
  unfold leadingPath at h
  split_ifs at h
  cases h
  have hsuffix : (path.reverse.dropWhile (· ≠ slash)).tail <:+ path.reverse :=
    (List.tail_suffix _).trans (List.dropWhile_suffix _)
  exact List.reverse_suffix.mp (by rwa [List.reverse_reverse])

/-- The directory of an absolute name is absolute. -/
theorem dirname_slash (rest : Str) : ∃ rest', dirname (slash :: rest) = slash :: rest' := by
  have hsome : (leadingPath (slash :: rest)).isSome := by
    unfold leadingPath
    rw [if_pos (List.mem_cons_self ..)]
    rfl
  obtain ⟨leading, hleading⟩ := Option.isSome_iff_exists.mp hsome
  have hpre := leadingPath_prefix hleading
  unfold dirname
  rw [hleading]
  cases leading with
  | nil => exact ⟨[], rfl⟩
  | cons b leading => exact ⟨leading, by rw [(List.cons_prefix_cons.mp hpre).1]⟩

theorem systemStatus_slash (snapshot system : DirTree) (rest : Str) :
    systemStatus snapshot system (slash :: rest) = none := by
  obtain ⟨rest', hdirname⟩ := dirname_slash rest
  unfold systemStatus
  rw [hdirname, Tree.deepopenName_slash]
  rfl

/-- A status that is not known is looked up through `deepopen`, which throws at the leading slash
of the name. -/
theorem getSystemStatus_slash {known : SystemStatuses → Option Status}
    (store : Status → SystemStatuses → SystemStatuses) (snapshot system : DirTree) (rest : Str)
    {s : SystemStatuses} (hs : known s = none) :
    (getSystemStatus known store snapshot system (slash :: rest)).run s =
      (.error .IOErrorException, s) := by
  have hknown : (Act.read known : Act SystemStatuses StatusError (Option Status)).run s =
      (.ok none, s) := by rw [Act.run_read, hs]
  unfold getSystemStatus
  rw [Act.run_bind_ok hknown, systemStatus_slash]
  rfl

theorem getPreToSystemStatus_slash (dirs : FileDirs) (rest : Str) :
    (getPreToSystemStatus dirs (slash :: rest)).run {} = (.error .IOErrorException, {}) :=
  getSystemStatus_slash _ dirs.pre dirs.system rest rfl

theorem getPostToSystemStatus_slash (dirs : FileDirs) (rest : Str) :
    (getPostToSystemStatus dirs (slash :: rest)).run {} = (.error .IOErrorException, {}) :=
  getSystemStatus_slash _ dirs.post dirs.system rest rfl

/-- The name of a reported entry starts with a slash. -/
theorem slash_of_reported {t1 t2 : DirTree} {report : Report}
    (h : report ∈ cmpDirs t1.root t2.root) : ∃ rest, report.1 = slash :: rest := by
  have hnames {t : DirTree} : t.root.Names fun _ => True :=
    t.wf.mono fun _ _ _ _ _ => trivial
  obtain ⟨⟨p, hne, -, hname⟩, -⟩ := cmpDirs_named hnames hnames report h
  cases p with
  | nil => exact absurd rfl hne
  | cons n p => exact ⟨n ++ pathName p, by rw [hname, pathName_cons, List.nil_append]⟩

/-- No entry of a comparison has a status against the system: asking for one throws, and nothing is
stored. -/
theorem system_status_throws (t1 t2 : DirTree) (report : Report)
    (h : report ∈ cmpDirs t1.root t2.root) (dirs : FileDirs) :
    (getPreToSystemStatus dirs report.1).run {} = (.error .IOErrorException, {}) ∧
      (getPostToSystemStatus dirs report.1).run {} = (.error .IOErrorException, {}) := by
  obtain ⟨rest, hname⟩ := slash_of_reported h
  rw [hname]
  exact ⟨getPreToSystemStatus_slash dirs rest, getPostToSystemStatus_slash dirs rest⟩

/-! ## A file that was created -/

/-- A file of a type, with entries below it -/
def plainNode (fmt : FileType) (es : List (Name × Tree)) : Tree :=
  .node { fmt := fmt, perm := 0o755, uid := 0, gid := 0, mtimeSec := 0, mtimeNsec := 0, size := 0,
          dev := 1, ino := 1, data := none } es

/-- An empty directory -/
def beforeDir : DirTree := ⟨plainNode .dir [], by decide, rfl⟩

/-- The directory with a fifo `/a` -/
def afterDir : DirTree := ⟨plainNode .dir [(str "a", plainNode .fifo [])], by decide, rfl⟩

theorem created_reported : (pathName [str "a"], Status.CREATED) ∈
    cmpDirs beforeDir.root afterDir.root := by
  have hname : slash :: str "a" ≠ str "/.snapshots" := by decide
  simp [cmpDirs, cmpDirsWorker, cmpDirsLoop, sortEntries, beforeDir, afterDir, plainNode, filter,
    lonesome, Tree.isDir, hname]

/-- The status of the file `a`, which was created, cannot be had for the system. -/
theorem system_status_throws_created :
    (getPreToSystemStatus ⟨beforeDir, afterDir, afterDir⟩ (pathName [str "a"])).run {} =
        (.error .IOErrorException, {}) ∧
      (getPostToSystemStatus ⟨beforeDir, afterDir, afterDir⟩ (pathName [str "a"])).run {} =
        (.error .IOErrorException, {}) :=
  system_status_throws beforeDir afterDir (pathName [str "a"], .CREATED) created_reported
    ⟨beforeDir, afterDir, afterDir⟩

/-- The file was created, is still there, and has no status. -/
theorem created_without_status :
    ¬∀ (t1 t2 : DirTree) (report : Report), report ∈ cmpDirs t1.root t2.root →
      ∀ (dirs : FileDirs) (p : Path), report.1 = pathName p →
        (dirs.pre.root.deepopen p.dropLast).isSome → (dirs.post.root.deepopen p.dropLast).isSome →
        (dirs.system.root.deepopen p.dropLast).isSome →
        (((dirs.pre.root.lookup p).isSome ∨ (dirs.system.root.lookup p).isSome) →
          (((getPreToSystemStatus dirs report.1).run {}).1.toOption =
            cmpFilesAt (dirs.pre.root.lookup p) (dirs.system.root.lookup p))) ∧
        (((dirs.post.root.lookup p).isSome ∨ (dirs.system.root.lookup p).isSome) →
          (((getPostToSystemStatus dirs report.1).run {}).1.toOption =
            cmpFilesAt (dirs.post.root.lookup p) (dirs.system.root.lookup p))) := by
  intro h
  obtain ⟨hpre, -⟩ := h beforeDir afterDir _ created_reported ⟨beforeDir, afterDir, afterDir⟩
    [str "a"] rfl rfl rfl rfl
  have hstatus := hpre (Or.inr rfl)
  rw [show (pathName [str "a"], Status.CREATED).1 = slash :: str "a" from rfl,
    getPreToSystemStatus_slash] at hstatus
  cases hstatus

end Snapper
