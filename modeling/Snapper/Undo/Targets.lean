import Snapper.Undo.Parents
import Snapper.Undo.Success

/-!
# Targets of symlinks

Both `readlink` wrappers read a target into a buffer of 1024 bytes and take what they get for the
whole of it.  So symlinks that agree in the first 1024 bytes are found equal, and a longer target
is cut off when the symlink is made again.

## Main results

- `cmpFilesContentLnk_exact_iff`, `createLink_exact_iff`: when a target is compared and restored
  exactly
- `targets_exact_iff`: both together
-/

namespace Snapper

open General

variable {f1 f2 : Inode} {t1 t2 t : Str}

/-- The comparison of two link targets is right exactly when they are equal or differ within the
first 1024 bytes. -/
theorem cmpFilesContentLnk_exact_iff (h1 : f1.data = some t1) (h2 : f2.data = some t2)
    (hne1 : t1 ≠ []) (hne2 : t2 ≠ []) (hm : sameMtime f1.toStat f2.toStat = false) :
    (cmpFilesContentLnk f1 f2 = true ↔ t1 = t2) ↔ t1 = t2 ∨ t1.take 1024 ≠ t2.take 1024 := by
  rw [cmpFilesContentLnk_iff h1 h2 hne1 hne2 hm]
  constructor
  · intro h
    by_cases heq : t1 = t2
    · exact Or.inl heq
    · exact Or.inr fun htake => heq (h.mp htake)
  · intro h
    obtain rfl | hdiffer := h
    · exact iff_of_true rfl rfl
    · exact iff_of_false hdiffer fun heq => hdiffer (heq ▸ rfl)

/-- A created link has the whole target exactly when the target fits into 1024 bytes. -/
theorem createLink_exact_iff (paths : FilePaths) (file : File) (owner group : Nat) (w : World)
    (hread : (paths.pre.lookup (components file.name)).bind Inode.data = some t) (hnul : 0 ∉ t)
    (hok : ((file.createLink paths owner group).run w).1 = true) :
    ((file.createLink paths owner group).run w).2.fs.Has (file.systemPath paths) (.lnk, t) ↔
      t.length ≤ 1024 := by
  obtain ⟨t', ht', hhas⟩ := createLink_target paths file owner group (P := fun _ => True)
    (fun t' ht' => by
      obtain rfl := Option.some.inj (hread.symm.trans ht')
      exact hnul) w trivial hok
  obtain rfl := Option.some.inj (hread.symm.trans ht')
  constructor
  · intro hexact
    -- there is one file at the path
    obtain ⟨n, hn, hshape⟩ := hhas
    obtain ⟨n', hn', hshape'⟩ := hexact
    obtain rfl := Except.ok.inj (hn.symm.trans hn')
    have htake : t.take 1024 = t := (Prod.mk.inj (hshape.symm.trans hshape')).2
    exact List.take_eq_self_iff t |>.mp htake
  · intro hlen
    rwa [List.take_of_length_le hlen] at hhas

/-- Two targets are compared exactly when they are equal or differ in what is read of them, and a
target is restored exactly when it is read whole. -/
theorem targets_exact_iff (f1 f2 : Inode) (t1 t2 : Str) (h1 : f1.data = some t1)
    (h2 : f2.data = some t2) (hne1 : t1 ≠ []) (hne2 : t2 ≠ []) (hnul : 0 ∉ t1)
    (hm : sameMtime f1.toStat f2.toStat = false) (paths : FilePaths) (file : File)
    (hpre : paths.pre.lookup (components file.name) = some f1) (owner group : Nat) (w : World) :
    ((cmpFilesContentLnk f1 f2 = true ↔ t1 = t2) ↔ t1 = t2 ∨ t1.take 1024 ≠ t2.take 1024) ∧
    (((file.createLink paths owner group).run w).1 = true →
      (((file.createLink paths owner group).run w).2.fs.Has (file.systemPath paths) (.lnk, t1) ↔
        t1.length ≤ 1024)) := by
  have hread : (paths.pre.lookup (components file.name)).bind Inode.data = some t1 := by
    rw [hpre]
    exact h1
  exact ⟨cmpFilesContentLnk_exact_iff h1 h2 hne1 hne2 hm,
    createLink_exact_iff paths file owner group w hread hnul⟩

/-! ## A long target -/

/-- A symlink -/
def link (mtime : Int) (t : Str) : Inode :=
  { fmt := .lnk, perm := S_IRWXUGO, uid := 0, gid := 0, mtimeSec := mtime, mtimeNsec := 0,
    size := t.length, dev := 1, ino := 2, data := some t }

/-- The pre snapshot with the symlink `/l`, and the subvolume `/` -/
def linkPaths (f : Inode) : FilePaths :=
  { pre := .node { fmt := .dir, perm := 0o755, uid := 0, gid := 0, mtimeSec := 0, mtimeNsec := 0,
                   size := 0, dev := 1, ino := 1, data := none } [(str "l", .node f [])]
    systemPath := [slash] }

/-- An entry for a symbolic link below the root. -/
def linkFile : File := { name := pathName [str "l"], preToPostStatus := .CREATED }

theorem lookup_linkPaths (f : Inode) :
    (linkPaths f).pre.lookup (components linkFile.name) = some f := by
  have hcomponents : components linkFile.name = [str "l"] := components_pathName (by decide)
  rw [hcomponents]
  rfl

/-- Two targets of one byte are compared, and a link to one of them is created in an empty
directory. -/
theorem targets_exact_iff_short :
    (cmpFilesContentLnk (link 0 (str "a")) (link 1 (str "b")) = true ↔ str "a" = str "b") ∧
    (((linkFile.createLink (linkPaths (link 0 (str "a"))) 0 0).run (quietWorld bareFs)).1 = true →
      ((linkFile.createLink (linkPaths (link 0 (str "a"))) 0 0).run (quietWorld bareFs)).2.fs.Has
        (linkFile.systemPath (linkPaths (link 0 (str "a")))) (.lnk, str "a")) := by
  obtain ⟨hcompare, hcreate⟩ := targets_exact_iff (link 0 (str "a")) (link 1 (str "b")) (str "a")
    (str "b") rfl rfl (by decide) (by decide) (by decide) (by decide)
    (linkPaths (link 0 (str "a"))) linkFile (lookup_linkPaths _) 0 0 (quietWorld bareFs)
  exact ⟨hcompare.mpr (Or.inr (by decide)), fun hok => (hcreate hok).mpr (by decide)⟩

/-- 1024 bytes and one more -/
def longTarget (last : UInt8) : Str := List.replicate 1024 97 ++ [last]

@[simp]
theorem longTarget_length (last : UInt8) : (longTarget last).length = 1025 := by
  rw [longTarget, List.length_append, List.length_replicate, List.length_singleton]

theorem take_longTarget (last : UInt8) : (longTarget last).take 1024 = List.replicate 1024 97 :=
  List.take_left' List.length_replicate

theorem longTarget_no_nul {last : UInt8} (h : last ≠ 0) : 0 ∉ longTarget last := by
  rw [longTarget, List.mem_append, List.mem_singleton]
  intro hmem
  obtain hmem | hmem := hmem
  · cases (List.mem_replicate.mp hmem).2
  · exact h hmem.symm

/-- Targets that differ in the byte 1025 are found equal, and the byte is lost. -/
theorem long_targets_cut :
    (¬∀ (f1 f2 : Inode) (t1 t2 : Str), f1.data = some t1 → f2.data = some t2 →
      1 ≤ t1.length → t1.length ≤ 4095 → 1 ≤ t2.length → t2.length ≤ 4095 → 0 ∉ t1 → 0 ∉ t2 →
      sameMtime f1.toStat f2.toStat = false → (cmpFilesContentLnk f1 f2 = true ↔ t1 = t2)) ∧
    ¬∀ (paths : FilePaths) (file : File) (f : Inode) (t : Str) (w : World),
      paths.pre.lookup (components file.name) = some f → f.data = some t → 1 ≤ t.length →
      t.length ≤ 4095 → 0 ∉ t → ((file.createLink paths f.uid f.gid).run w).1 = true →
      ((file.createLink paths f.uid f.gid).run w).2.fs.Has (file.systemPath paths) (.lnk, t) := by
  have hne (last : UInt8) : longTarget last ≠ [] :=
    List.ne_nil_of_length_pos (by rw [longTarget_length]; decide)
  constructor
  · intro h
    -- two targets that differ after the 1024 bytes that are read
    have hdiffer : longTarget 97 ≠ longTarget 98 := fun heq =>
      absurd (List.append_cancel_left heq) (by decide)
    refine hdiffer ((h (link 0 (longTarget 97)) (link 1 (longTarget 98)) _ _ rfl rfl ?_ ?_ ?_ ?_
      (longTarget_no_nul (by decide)) (longTarget_no_nul (by decide)) rfl).mp ?_)
    all_goals try rw [longTarget_length]; decide
    rw [cmpFilesContentLnk_iff rfl rfl (hne _) (hne _) rfl, take_longTarget, take_longTarget]
  · intro h
    have hnames : Names (linkPaths (link 0 (longTarget 97))) linkFile [str "l"]
        ([] ++ [str "l"]) := names_of_subvolume (by simp) rfl rfl (by decide)
    have hliteral : Literal bareFs [str "l"] := ⟨by simp, by decide, fun r hr hne => by
      obtain rfl := (prefix_singleton hr).resolve_right hne
      exact Fs.isDir_root bareFs⟩
    have hno : 0 ∉ longTarget 97 := longTarget_no_nul (by decide)
    obtain ⟨w', hrun, -⟩ := createLink_sets hnames (w := quietWorld bareFs) rfl hliteral rfl rfl
      rfl (hne 97) hno 0 0
    have hok : ((linkFile.createLink (linkPaths (link 0 (longTarget 97))) 0 0).run
        (quietWorld bareFs)).1 = true := by rw [hrun]
    have hread := lookup_linkPaths (link 0 (longTarget 97))
    have hhas := h _ linkFile _ (longTarget 97) (quietWorld bareFs) hread rfl
      (by rw [longTarget_length]; decide) (by rw [longTarget_length]; decide) hno hok
    have hlen := (createLink_exact_iff _ linkFile 0 0 _ (by rw [hread]; rfl) hno hok).mp hhas
    rw [longTarget_length] at hlen
    exact absurd hlen (by decide)

end Snapper
