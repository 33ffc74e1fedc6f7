import Snapper.System.Found
import Snapper.Undo.Step

/-!
# Making the directories above a file

`createParentDirectories` looks for the nearest directory above the path that is there and makes
those below it.  It ends at the empty path, which is not there and cannot be made; so it fails
where the path has one name only, or where its first name is missing.

## Main results

- `createParentDirectories_run`: what it returns, and what is there afterwards
- `parents_right_iff`: when that is what one expects of it
-/

namespace Snapper

open General

variable {fs fs' : Fs} {q r d : Path} {c : Name} {w w' : World}

/-- The names of an absolute path; `.` and `..` may be among them. -/
def PathNames (q : Path) : Prop := ∀ n ∈ q, n ≠ [] ∧ slash ∉ n

theorem PathNames.of_prefix (h : PathNames q) (hr : r <+: q) : PathNames r :=
  fun n hn => h n (hr.subset hn)

theorem PathNames.components (h : PathNames q) : components (pathName q) = q :=
  components_pathName_of_ne (fun n hn => (h n hn).1) fun n hn => (h n hn).2

theorem pathName_ne_nil (hq : q ≠ []) : pathName q ≠ [] := by
  obtain ⟨n, q, rfl⟩ := List.exists_cons_of_ne_nil hq
  simp

namespace Fs

/-! ## What is above a path -/

/-- A call on a path goes on from the directory above, or fails if there is none. -/
theorem resolve_append {a b : Path} (hnames : PathNames (a ++ b)) (ha : a ≠ []) (hb : b ≠ [])
    (follow : Bool) :
    (∃ d links, fs.isDir d = true ∧ Snapper.resolve fs true (pathName a) = .ok d ∧
      Snapper.resolve fs follow (pathName (a ++ b)) = walk fs follow links d b) ∨
    ((∀ d, Snapper.resolve fs true (pathName a) = .ok d → fs.isDir d = false) ∧
      ∃ e, Snapper.resolve fs follow (pathName (a ++ b)) = .error e) := by
  have hab : a ++ b ≠ [] := List.append_ne_nil_of_left_ne_nil ha b
  unfold Snapper.resolve
  rw [if_neg (pathName_ne_nil ha), if_neg (pathName_ne_nil hab), hnames.components,
    (hnames.of_prefix (List.prefix_append a b)).components]
  obtain ⟨d, links, hd, hfront, hon⟩ | hstop := walk_front a hb (isDir_root fs)
  · exact Or.inl ⟨d, links, hd, hfront, hon⟩
  · exact Or.inr hstop

/-- What is found is below a directory. -/
theorem isDir_of_stat {a b : Path} (hnames : PathNames (a ++ b)) (ha : a ≠ []) (hb : b ≠ [])
    {follow : Bool} {n : Node} (h : fs.stat follow (pathName (a ++ b)) = .ok n) :
    ∃ d, Snapper.resolve fs true (pathName a) = .ok d ∧ fs.isDir d = true := by
  obtain ⟨q, hres, -⟩ := stat_ok h
  obtain ⟨d, _, hd, hfront, -⟩ | ⟨-, e, hon⟩ := resolve_append hnames ha hb follow
  · exact ⟨d, hfront, hd⟩
  · cases hon.symm.trans hres

theorem stat_of_isDir (hres : Snapper.resolve fs true (pathName r) = .ok d)
    (hd : fs.isDir d = true) : ∃ n, fs.stat true (pathName r) = .ok n ∧ n.fmt = .dir := by
  obtain ⟨n, hn, hfmt⟩ := isDir_iff.mp hd
  exact ⟨n, stat_eq_ok.mpr ⟨d, hres, hn⟩, hfmt⟩

/-- The last name of a path, below a directory. -/
theorem walk_last {follow : Bool} {links : Nat} (hdot : c ≠ str ".") (hdotdot : c ≠ str "..")
    (hlast : follow = false ∨ fs.isLnk (d ++ [c]) = false) :
    walk fs follow links d [c] = .ok (d ++ [c]) := by
  -- the last name is followed only if it is a symlink that is to be followed
  have hstep (jump : Path → Str → List Name → Except Errno Path) :
      walkComponents fs follow jump d [c] = .ok (d ++ [c]) := by
    rw [walkComponents, if_neg hdot, if_neg hdotdot]
    cases hfind : fs.find (d ++ [c]) with
    | none => rfl
    | some node =>
      simp only
      split
      · rfl
      · next hfmt =>
        have hfollow : follow = false :=
          hlast.resolve_right fun h => by simp [isLnk, hfind, hfmt] at h
        simp [hfollow]
      · rfl
  cases links with
  | zero => exact hstep _
  | succ links => exact hstep _

/-- `.` and `..` are always there. -/
theorem walk_dots {follow : Bool} {links : Nat} (hdots : c = str "." ∨ c = str "..")
    (hd : fs.isDir d = true) : ∃ e, walk fs follow links d [c] = .ok e ∧ fs.isDir e = true := by
  have hstep (jump : Path → Str → List Name → Except Errno Path) :
      ∃ e, walkComponents fs follow jump d [c] = .ok e ∧ fs.isDir e = true := by
    rw [walkComponents]
    by_cases hdot : c = str "."
    · rw [if_pos hdot, walkComponents]
      exact ⟨d, rfl, hd⟩
    · rw [if_neg hdot, if_pos (hdots.resolve_left hdot), walkComponents]
      exact ⟨d.dropLast, rfl, isDir_dropLast hd⟩
  cases links with
  | zero => exact hstep _
  | succ links => exact hstep _

end Fs

/-! ## When the directories can be made -/

/-- Nothing is at the path, or nothing that can be reached. -/
def Missing (fs : Fs) (r : Path) : Prop := ∀ n, fs.stat true (pathName r) ≠ .ok n

/-- The names of `q` but the last are directories or can be made one after the other. -/
structure Creatable (fs : Fs) (q : Path) : Prop where
  deep : 1 < q.length
  first : ¬Missing fs (q.take 1)
  dirs : ∀ r, r <+: q → r ≠ q → r ≠ [] → ∀ n, fs.stat true (pathName r) = .ok n → n.fmt = .dir
  plain : ∀ r c, r ++ [c] <+: q → r ++ [c] ≠ q → Missing fs (r ++ [c]) →
    c ≠ str "." ∧ c ≠ str ".."

/-- Every symlink above the file leads somewhere. -/
def NoDangling (fs : Fs) (q : Path) : Prop :=
  ∀ r, r <+: q → r ≠ q → ∀ n, fs.stat false (pathName r) = .ok n → n.fmt = .lnk → ¬Missing fs r

theorem exists_of_not_missing (h : ¬Missing fs r) : ∃ n, fs.stat true (pathName r) = .ok n := by
  simp only [Missing, not_forall, not_not] at h
  exact h

/-- Below what is missing everything is missing. -/
theorem missing_append {a b : Path} (hnames : PathNames (a ++ b)) (ha : a ≠ []) (h : Missing fs a) :
    Missing fs (a ++ b) := by
  by_cases hb : b = []
  · rwa [hb, List.append_nil]
  · intro n hn
    obtain ⟨d, hres, hd⟩ := Fs.isDir_of_stat hnames ha hb hn
    obtain ⟨m, hm, -⟩ := Fs.stat_of_isDir hres hd
    exact h m hm

theorem ne_concat_of_isPrefix (h : r <+: q) : r ≠ q ++ [c] := by
  intro heq
  have hlen := h.length_le
  rw [heq, List.length_append, List.length_singleton] at hlen
  omega

/-- The directory of the file is there. -/
theorem creatable_of_found (hnames : PathNames (r ++ [c])) (hr : r ≠ []) {n : Node}
    (hn : fs.stat true (pathName r) = .ok n) : Creatable fs (r ++ [c]) ↔ n.fmt = .dir := by
  constructor
  · intro h
    exact h.dirs r (List.prefix_append r [c]) (ne_concat_of_isPrefix List.prefix_rfl) hr n hn
  · intro hfmt
    have hnames' : PathNames r := hnames.of_prefix (List.prefix_append r [c])
    have hpos := List.length_pos_iff.mpr hr
    refine ⟨?_, ?_, fun r' hr' hne hnil m hm => ?_, fun r' c' hr' hne hmiss => ?_⟩
    · rw [List.length_append, List.length_singleton]
      omega
    · rw [List.take_append_of_le_length (by omega)]
      intro hmiss
      have htake : r.take 1 ≠ [] := by simp [hr]
      refine missing_append (b := r.drop 1) ?_ htake hmiss n ?_
      · rwa [List.take_append_drop]
      · rwa [List.take_append_drop]
    · obtain ⟨b, rfl⟩ := (List.prefix_concat_iff.mp hr').resolve_left hne
      -- the directory itself, or one above it, which a walk has come through
      by_cases hb : b = []
      · subst hb
        rw [List.append_nil] at hn
        cases hm.symm.trans hn
        exact hfmt
      · obtain ⟨d, hres, hd⟩ := Fs.isDir_of_stat hnames' hnil hb hn
        obtain ⟨k, hk, hkfmt⟩ := Fs.stat_of_isDir hres hd
        cases hm.symm.trans hk
        exact hkfmt
    · -- nothing above what is there is missing
      obtain ⟨b, rfl⟩ := (List.prefix_concat_iff.mp hr').resolve_left hne
      exact absurd hn (missing_append hnames' (by simp) hmiss n)

/-- The directory of the file is missing and has to be made first. -/
theorem creatable_of_missing {c₀ : Name} (hmiss : Missing fs (r ++ [c₀])) :
    Creatable fs (r ++ [c₀] ++ [c]) ↔
      Creatable fs (r ++ [c₀]) ∧ c₀ ≠ str "." ∧ c₀ ≠ str ".." := by
  have hfirst : (r ++ [c₀] ++ [c]).take 1 = (r ++ [c₀]).take 1 :=
    List.take_append_of_le_length (by simp)
  constructor
  · intro h
    refine ⟨⟨?_, ?_, fun r' hr' hne => ?_, fun r' c' hr' hne => ?_⟩, ?_⟩
    · cases r with
      | nil => exact absurd hmiss h.first
      | cons n r => simp
    · exact hfirst ▸ h.first
    · exact h.dirs r' (hr'.trans (List.prefix_append _ _)) (ne_concat_of_isPrefix hr')
    · exact h.plain r' c' (hr'.trans (List.prefix_append _ _)) (ne_concat_of_isPrefix hr')
    · exact h.plain r c₀ (List.prefix_append _ _) (ne_concat_of_isPrefix List.prefix_rfl) hmiss
  · intro ⟨h, hplain⟩
    refine ⟨by simp, hfirst ▸ h.first, fun r' hr' hne hnil n hn => ?_, fun r' c' hr' hne hm => ?_⟩
    · have hr' := (List.prefix_concat_iff.mp hr').resolve_left hne
      refine h.dirs r' hr' (fun heq => ?_) hnil n hn
      exact hmiss n (heq ▸ hn)
    · have hr' := (List.prefix_concat_iff.mp hr').resolve_left hne
      by_cases heq : r' ++ [c'] = r ++ [c₀]
      -- the two last names are those of one path
      · obtain ⟨-, hlast⟩ := List.append_inj' heq rfl
        cases hlast
        exact hplain
      · exact h.plain r' c' hr' heq hm

/-! ## What the function does -/

/-- No directory is made for a path with one name. -/
theorem createParentDirectories_top (hw : w.faults = []) (hc : slash ∉ c) :
    (createParentDirectories (pathName [c])).run w = (false, w) := by
  have hstat : (stat []).run w = (.error .enoent, w) := syscall_error hw rfl
  have hmkdir (mode : BitVec 12) : (mkdir [] mode).run w = (.error .enoent, w) :=
    syscall_error hw rfl
  have hleading : leadingPath (pathName [c]) = some [] := leadingPath_concat [] hc
  have hempty : createParentDirectories [] = pure true := by
    rw [createParentDirectories]
    rfl
  rw [createParentDirectories]
  split
  · next h =>
    rw [hleading] at h
    cases h
  · next leading h =>
    rw [hleading] at h
    cases h
    simp [hstat, hmkdir, hempty, failed]

/-- When the leading path exists the answer is whether it is a directory, and nothing is changed.
-/
theorem createParentDirectories_found (hw : w.faults = []) (hc : slash ∉ c) {n : Node}
    (hn : w.fs.stat true (pathName r) = .ok n) :
    (createParentDirectories (pathName (r ++ [c]))).run w = (decide (n.fmt = .dir), w) := by
  have hstat : (stat (pathName r)).run w = (.ok n, w) := by
    refine syscall_ok hw ?_
    rw [hn]
    rfl
  rw [createParentDirectories]
  split
  · next h =>
    rw [leadingPath_concat r hc] at h
    cases h
  · next leading h =>
    rw [leadingPath_concat r hc] at h
    cases h
    simp [hstat]

/-- The directory above is made after those above it. -/
theorem createParentDirectories_missing (hw : w.faults = []) (hc : slash ∉ c)
    (hmiss : Missing w.fs r) :
    (createParentDirectories (pathName (r ++ [c]))).run w =
      let above := (createParentDirectories (pathName r)).run w
      if above.1 then
        let made := (mkdir (pathName r) 0o777).run above.2
        (!failed made.1, made.2)
      else (false, above.2) := by
  obtain ⟨e, he⟩ : ∃ e, w.fs.stat true (pathName r) = .error e := by
    cases hstat : w.fs.stat true (pathName r) with
    | error e => exact ⟨e, rfl⟩
    | ok n => exact absurd hstat (hmiss n)
  -- the directory cannot be found, so stat fails and the recursion goes up
  have hstat : (stat (pathName r)).run w = (.error e, w) := by
    refine syscall_error hw ?_
    rw [he]
    rfl
  rw [createParentDirectories]
  split
  · next h =>
    rw [leadingPath_concat r hc] at h
    cases h
  · next leading h =>
    rw [leadingPath_concat r hc] at h
    cases h
    generalize (0o777 : BitVec 12) = mode
    simp only [Cmd.run_bind, hstat]
    -- the directories above, then this one
    cases hmade : ((createParentDirectories (pathName r)).run w).1 with
    | false => simp
    | true =>
      cases hfailed : failed ((mkdir (pathName r) mode).run
        ((createParentDirectories (pathName r)).run w).2).1 with
      | false => simp [hfailed]
      | true => simp [hfailed]

/-- The directory `r` is at `d`, and what is new is a directory above or at `r`. -/
structure Made (fs fs' : Fs) (r d : Path) : Prop where
  resolved : resolve fs' true (pathName r) = .ok d
  isDir : fs'.isDir d = true
  kept : ∀ p n, fs.find p = some n → fs'.find p = some n
  made : ∀ p, fs.find p = none → fs'.find p ≠ none →
    ∃ r', r' <+: r ∧ Missing fs r' ∧ resolve fs' true (pathName r') = .ok p
  /-- there is room for the next directory -/
  free : ∀ c, PathNames (r ++ [c]) → c ≠ str "." → c ≠ str ".." → Missing fs (r ++ [c]) →
    (∀ n, fs.stat false (pathName (r ++ [c])) = .ok n → n.fmt ≠ .lnk) → fs'.find (d ++ [c]) = none

/-- The last name of a path below a directory. -/
theorem resolve_concat (hnames : PathNames (r ++ [c])) (hr : r ≠ [])
    (hres : resolve fs true (pathName r) = .ok d) (hd : fs.isDir d = true) (follow : Bool) :
    ∃ links, resolve fs follow (pathName (r ++ [c])) = walk fs follow links d [c] := by
  obtain ⟨d', links, -, hres', hon⟩ | ⟨hno, -⟩ :=
    Fs.resolve_append hnames hr (List.cons_ne_nil c []) follow
  · cases hres.symm.trans hres'
    exact ⟨links, hon⟩
  · rw [hno d hres] at hd
    cases hd

/-- An existing directory counts as made, with the file system as it was. -/
theorem made_of_found (hr : r ≠ []) (hres : resolve fs true (pathName r) = .ok d)
    (hd : fs.isDir d = true) : Made fs fs r d where
  resolved := hres
  isDir := hd
  kept _ _ hn := hn
  made _ hnone hsome := absurd hnone hsome
  free c hnames hdot hdotdot hmiss hlnk := by
    by_contra hsome
    obtain ⟨n, hn⟩ := Option.ne_none_iff_exists'.mp hsome
    obtain ⟨_, hon⟩ := resolve_concat hnames hr hres hd false
    rw [Fs.walk_last hdot hdotdot (Or.inl rfl)] at hon
    have hfmt : n.fmt ≠ .lnk := hlnk n (Fs.stat_eq_ok.mpr ⟨_, hon, hn⟩)
    -- it is no symlink, so that `stat` finds it as well
    have hnolnk : fs.isLnk (d ++ [c]) = false := by simp [Fs.isLnk, hn, hfmt]
    obtain ⟨_, hon⟩ := resolve_concat hnames hr hres hd true
    rw [Fs.walk_last hdot hdotdot (Or.inr hnolnk)] at hon
    exact hmiss n (Fs.stat_eq_ok.mpr ⟨_, hon, hn⟩)

/-- The next directory is made. -/
theorem Made.mkdir {fs₁ : Fs} (h : Made fs fs₁ r d) (hnames : PathNames (r ++ [c])) (hr : r ≠ [])
    (hdot : c ≠ str ".") (hdotdot : c ≠ str "..") (hmiss : Missing fs (r ++ [c]))
    (hlnk : ∀ n, fs.stat false (pathName (r ++ [c])) = .ok n → n.fmt ≠ .lnk)
    (umask mode : BitVec 12) :
    ∃ fs', fs₁.mkdir umask (pathName (r ++ [c])) mode = .ok fs' ∧
      Made fs fs' (r ++ [c]) (d ++ [c]) := by
  have hfree := h.free c hnames hdot hdotdot hmiss hlnk
  obtain ⟨_, hon⟩ := resolve_concat hnames hr h.resolved h.isDir false
  rw [Fs.walk_last hdot hdotdot (Or.inl rfl)] at hon
  have hmake : fs₁.find (d ++ [c]) = none ∧ fs₁.isDir (d ++ [c]).dropLast = true :=
    ⟨hfree, by rw [List.dropLast_concat]; exact h.isDir⟩
  have hmkdir : fs₁.mkdir umask (pathName (r ++ [c])) mode =
      .ok (fs₁.create (d ++ [c]) (fs₁.newNode (d ++ [c]) .dir (mode &&& ~~~umask) []) hmake) := by
    rw [Fs.mkdir, hon]
    show fs₁.make (d ++ [c]) .dir (mode &&& ~~~umask) [] = _
    rw [Fs.make, dif_pos hmake]
  refine ⟨_, hmkdir, ?_⟩
  have hsets : Fs.Sets (d ++ [c]) (some (fs₁.newNode (d ++ [c]) .dir (mode &&& ~~~umask) [])) false
      fs₁ (fs₁.create (d ++ [c]) _ hmake) := Fs.sets_create hmake
  generalize fs₁.create (d ++ [c]) _ hmake = fs' at hsets
  have hfind := hsets.find
  -- the new directory is at the end of the path, and all else is as before
  have hnew : fs'.find (d ++ [c]) = some (fs₁.newNode (d ++ [c]) .dir (mode &&& ~~~umask) []) := by
    rw [hfind, Function.update_self]
  have hext : Extends fs₁ fs' := (Fs.grows_of_new hfree hsets).extends
  have hold {p : Path} {n : Node} (hn : fs₁.find p = some n) : fs'.find p = some n := by
    rw [hfind, Function.update_of_ne, hn]
    rintro rfl
    rw [hfree] at hn
    cases hn
  have hgrown {r' p : Path} (hres : resolve fs₁ true (pathName r') = .ok p)
      (hp : fs₁.find p ≠ none) : resolve fs' true (pathName r') = .ok p :=
    resolve_mono hext (Or.inr (Option.isSome_iff_ne_none.mpr hp)) hres
  have hresolved : resolve fs' true (pathName (r ++ [c])) = .ok (d ++ [c]) := by
    obtain ⟨n, hn, hfmt⟩ := Fs.isDir_iff.mp h.isDir
    have hres := hgrown h.resolved (by simp [hn])
    obtain ⟨_, hon⟩ := resolve_concat hnames hr hres (Fs.isDir_iff.mpr ⟨n, hold hn, hfmt⟩) true
    rw [hon]
    refine Fs.walk_last hdot hdotdot (Or.inr ?_)
    simp [Fs.isLnk, hnew, Fs.newNode]
  refine ⟨hresolved, ?_, fun p n hn => hold (h.kept p n hn), fun p hnone hsome => ?_, ?_⟩
  · exact Fs.isDir_iff.mpr ⟨_, hnew, rfl⟩
  -- what was not there before was made here or on the way
  · by_cases hp : p = d ++ [c]
    · exact ⟨r ++ [c], List.prefix_rfl, hmiss, hp ▸ hresolved⟩
    · rw [hfind, Function.update_of_ne hp] at hsome
      obtain ⟨r', hr', hmiss', hres'⟩ := h.made p hnone hsome
      exact ⟨r', hr'.trans (List.prefix_append r [c]), hmiss', hgrown hres' hsome⟩
  · -- a new directory is empty
    intro c' _ _ _ _ _
    rw [hfind, Function.update_of_ne (by simp)]
    by_contra hsome
    obtain ⟨n, hn⟩ := Option.ne_none_iff_exists'.mp hsome
    obtain ⟨m, hm, -⟩ := Fs.isDir_iff.mp (Fs.isDir_of_find_concat hn)
    rw [hfree] at hm
    cases hm

/-- `.` and `..` cannot be made. -/
theorem Made.mkdir_dots {fs₁ : Fs} (h : Made fs fs₁ r d) (hnames : PathNames (r ++ [c]))
    (hr : r ≠ [])
    (hdots : c = str "." ∨ c = str "..") (umask mode : BitVec 12) :
    fs₁.mkdir umask (pathName (r ++ [c])) mode = .error .eexist := by
  obtain ⟨_, hon⟩ := resolve_concat hnames hr h.resolved h.isDir false
  obtain ⟨e, he, hedir⟩ := Fs.walk_dots hdots h.isDir
  rw [Fs.mkdir, hon, he]
  show fs₁.make e .dir (mode &&& ~~~umask) [] = _
  rw [Fs.make, dif_neg]
  intro hfree
  obtain ⟨n, hn, -⟩ := Fs.isDir_iff.mp hedir
  rw [hfree.1] at hn
  cases hn

/-- What is returned, and what is there afterwards. -/
theorem createParentDirectories_run (hw : w.faults = []) (hnames : PathNames (r ++ [c]))
    (hlinks : NoDangling w.fs (r ++ [c])) :
    (Creatable w.fs (r ++ [c]) ∧ ∃ fs' d, Made w.fs fs' r d ∧
      (createParentDirectories (pathName (r ++ [c]))).run w = (true, { w with fs := fs' })) ∨
    (¬Creatable w.fs (r ++ [c]) ∧
      ((createParentDirectories (pathName (r ++ [c]))).run w).1 = false) := by
  -- the function calls itself on the parent, so the induction takes names off the end
  induction r using List.reverseRec generalizing c with
  | nil =>
    right
    refine ⟨fun h => absurd h.deep (by simp), ?_⟩
    have htop := createParentDirectories_top hw (hnames c (by simp)).2
    rw [List.nil_append, htop]
  | append_singleton r c₀ ih =>
    have hslash : slash ∉ c := (hnames c (by simp)).2
    have hpre : r ++ [c₀] <+: r ++ [c₀] ++ [c] := List.prefix_append _ _
    have hne : r ++ [c₀] ≠ [] := by simp
    by_cases hmiss : Missing w.fs (r ++ [c₀])
    · have hlinks' : NoDangling w.fs (r ++ [c₀]) := fun r' hr' hne' =>
        hlinks r' (hr'.trans hpre) (ne_concat_of_isPrefix hr')
      rw [creatable_of_missing hmiss, createParentDirectories_missing hw hslash hmiss]
      obtain ⟨hcan, fs₁, d, hmade, hrun⟩ | ⟨hcannot, hrun⟩ := ih (hnames.of_prefix hpre) hlinks'
      · have hr : r ≠ [] := by
          rintro rfl
          exact absurd hcan.deep (by simp)
        rw [hrun]
        -- mkdir of a dot name fails, as the directory exists
        by_cases hdots : c₀ = str "." ∨ c₀ = str ".."
        · right
          refine ⟨fun h => hdots.elim h.2.1 h.2.2, ?_⟩
          have hmkdir : (mkdir (pathName (r ++ [c₀])) 0o777).run { w with fs := fs₁ } =
              (.error .eexist, { w with fs := fs₁ }) := by
            refine syscall_error (w := { w with fs := fs₁ }) hw ?_
            rw [hmade.mkdir_dots (hnames.of_prefix hpre) hr hdots]
            rfl
          rw [if_pos rfl, hmkdir]
          rfl
        · left
          push Not at hdots
          have hlnk : ∀ n, w.fs.stat false (pathName (r ++ [c₀])) = .ok n → n.fmt ≠ .lnk :=
            fun n hn hfmt => hlinks _ hpre (ne_concat_of_isPrefix List.prefix_rfl) n hn hfmt hmiss
          obtain ⟨fs', hok, hmade'⟩ := hmade.mkdir (hnames.of_prefix hpre) hr hdots.1 hdots.2 hmiss
            hlnk w.umask 0o777
          have hmkdir : (mkdir (pathName (r ++ [c₀])) 0o777).run { w with fs := fs₁ } =
              (.ok (), { w with fs := fs' }) :=
            syscall_ok (w := { w with fs := fs₁ }) hw (unit_eq_ok.mpr hok)
          refine ⟨⟨hcan, hdots⟩, fs', _, hmade', ?_⟩
          rw [if_pos rfl, hmkdir]
          rfl
      · right
        refine ⟨fun h => hcannot h.1, ?_⟩
        simp only [hrun]
        rfl
    · obtain ⟨n, hn⟩ := exists_of_not_missing hmiss
      rw [creatable_of_found hnames hne hn, createParentDirectories_found hw hslash hn]
      -- what is found there has to be a directory
      by_cases hfmt : n.fmt = .dir
      · left
        obtain ⟨d, hres, hfind⟩ := Fs.stat_eq_ok.mp hn
        have hdir : w.fs.isDir d = true := Fs.isDir_iff.mpr ⟨n, hfind, hfmt⟩
        exact ⟨hfmt, w.fs, d, made_of_found hne hres hdir, by simp [hfmt]⟩
      · exact Or.inr ⟨hfmt, by simp [hfmt]⟩

/-! ## What one expects -/

/-- The text of a directory above a file -/
def ancestorName (r : Path) : Str := if r = [] then [slash] else pathName r

/-- What is at the proper ancestors of `q` is a directory. -/
def AncestorsAreDirs (fs : Fs) (q : Path) : Prop :=
  ∀ r, r <+: q → r ≠ q → ∀ n, fs.stat true (ancestorName r) = .ok n → n.fmt = .dir

/-- The call succeeds where nothing but a directory is above the file, and then all directories
are there, and no other change was made. -/
structure ParentsRight (w : World) (q : Path) : Prop where
  result : ((createParentDirectories (pathName q)).run w).1 = true ↔ AncestorsAreDirs w.fs q
  found : ((createParentDirectories (pathName q)).run w).1 = true → ∀ r, r <+: q → r ≠ q →
    ∃ n, ((createParentDirectories (pathName q)).run w).2.fs.stat true (ancestorName r) = .ok n ∧
      n.fmt = .dir
  kept : ((createParentDirectories (pathName q)).run w).1 = true → ∀ p n, w.fs.find p = some n →
    ((createParentDirectories (pathName q)).run w).2.fs.find p = some n
  made : ((createParentDirectories (pathName q)).run w).1 = true → ∀ p, w.fs.find p = none →
    ((createParentDirectories (pathName q)).run w).2.fs.find p ≠ none →
      ∃ r, r <+: q ∧ r ≠ q ∧ Missing w.fs r ∧
        resolve ((createParentDirectories (pathName q)).run w).2.fs true (pathName r) = .ok p

theorem stat_slash (fs : Fs) : ∃ n, fs.stat true [slash] = .ok n ∧ n.fmt = .dir := by
  obtain ⟨n, hn, hfmt⟩ := Fs.isDir_iff.mp (Fs.isDir_root fs)
  have hcomponents : components [slash] = [str "."] := by decide
  refine ⟨n, Fs.stat_eq_ok.mpr ⟨[], ?_, hn⟩, hfmt⟩
  rw [resolve, if_neg (List.cons_ne_nil _ _), hcomponents]
  rfl

/-- The condition on the ancestors, said of what `stat` finds at each of them. -/
theorem ancestorsAreDirs_iff : AncestorsAreDirs fs q ↔
    ∀ r, r <+: q → r ≠ q → r ≠ [] → ∀ n, fs.stat true (pathName r) = .ok n → n.fmt = .dir := by
  constructor
  · intro h r hr hne hnil n hn
    refine h r hr hne n ?_
    rwa [ancestorName, if_neg hnil]
  · intro h r hr hne n hn
    by_cases hnil : r = []
    · obtain ⟨m, hm, hfmt⟩ := stat_slash fs
      rw [ancestorName, if_pos hnil] at hn
      cases hm.symm.trans hn
      exact hfmt
    · rw [ancestorName, if_neg hnil] at hn
      exact h r hr hne hnil n hn

/-- What is made is as one expects. -/
theorem Made.found (h : Made fs fs' r d) (hnames : PathNames (r ++ [c])) {r' : Path}
    (hr' : r' <+: r ++ [c]) (hne : r' ≠ r ++ [c]) :
    ∃ n, fs'.stat true (ancestorName r') = .ok n ∧ n.fmt = .dir := by
  by_cases hnil : r' = []
  · rw [ancestorName, if_pos hnil]
    exact stat_slash fs'
  · rw [ancestorName, if_neg hnil]
    obtain ⟨b, rfl⟩ := (List.prefix_concat_iff.mp hr').resolve_left hne
    have hlast : ∃ n, fs'.stat true (pathName (r' ++ b)) = .ok n ∧ n.fmt = .dir :=
      Fs.stat_of_isDir h.resolved h.isDir
    by_cases hb : b = []
    · rwa [hb, List.append_nil] at hlast
    · obtain ⟨n, hn, -⟩ := hlast
      have hnames' : PathNames (r' ++ b) := hnames.of_prefix (List.prefix_append _ _)
      obtain ⟨e, hres, he⟩ := Fs.isDir_of_stat hnames' hnil hb hn
      exact Fs.stat_of_isDir hres he

/-- The call does what one expects exactly where the path has two names or more, the first of them
is there, and `.` and `..` do not have to be made; where something else than a directory is in the
way the last does not matter. -/
theorem parents_right_iff (w : World) (q : Path) (hw : w.faults = []) (hq : q ≠ [])
    (hnames : PathNames q) (hlinks : NoDangling w.fs q) :
    ParentsRight w q ↔ 1 < q.length ∧ ¬Missing w.fs (q.take 1) ∧
      (AncestorsAreDirs w.fs q → ∀ r c, r ++ [c] <+: q → r ++ [c] ≠ q → Missing w.fs (r ++ [c]) →
        c ≠ str "." ∧ c ≠ str "..") := by
  obtain ⟨r, c, rfl⟩ : ∃ r c, q = r ++ [c] :=
    ⟨q.dropLast, q.getLast hq, (List.dropLast_concat_getLast hq).symm⟩
  have hcreatable : Creatable w.fs (r ++ [c]) ↔
      (1 < (r ++ [c]).length ∧ ¬Missing w.fs ((r ++ [c]).take 1) ∧
        (AncestorsAreDirs w.fs (r ++ [c]) → ∀ r' c', r' ++ [c'] <+: r ++ [c] →
          r' ++ [c'] ≠ r ++ [c] → Missing w.fs (r' ++ [c']) → c' ≠ str "." ∧ c' ≠ str "..")) ∧
        AncestorsAreDirs w.fs (r ++ [c]) := by
    constructor
    · intro h
      exact ⟨⟨h.deep, h.first, fun _ => h.plain⟩, ancestorsAreDirs_iff.mpr h.dirs⟩
    · intro ⟨⟨hdeep, hfirst, hplain⟩, hdirs⟩
      exact ⟨hdeep, hfirst, ancestorsAreDirs_iff.mp hdirs, hplain hdirs⟩
  obtain ⟨hcan, fs', d, hmade, hrun⟩ | ⟨hcannot, hrun⟩ :=
    createParentDirectories_run hw hnames hlinks
  · refine iff_of_true ?_ (hcreatable.mp hcan).1
    have hdirs := (hcreatable.mp hcan).2
    refine ⟨?_, fun _ r' hr' hne => ?_, fun _ p n hn => ?_, fun _ p hnone hsome => ?_⟩
    · rw [hrun]
      exact iff_of_true rfl hdirs
    · rw [hrun]
      exact hmade.found hnames hr' hne
    · rw [hrun]
      exact hmade.kept p n hn
    · rw [hrun] at hsome ⊢
      obtain ⟨r', hr', hmiss, hres⟩ := hmade.made p hnone hsome
      exact ⟨r', hr'.trans (List.prefix_append r [c]), ne_concat_of_isPrefix hr', hmiss, hres⟩
  · rw [hcreatable, not_and] at hcannot
    constructor
    · intro h
      -- the call fails, so that something is in the way
      have hblocked : ¬AncestorsAreDirs w.fs (r ++ [c]) := by
        rw [← h.result, hrun]
        exact Bool.false_ne_true
      have hdeep : r ≠ [] := by
        rintro rfl
        refine hblocked (ancestorsAreDirs_iff.mpr fun r' hr' hne hnil => ?_)
        exact absurd (List.prefix_nil.mp ((List.prefix_concat_iff.mp hr').resolve_left hne)) hnil
      refine ⟨?_, fun hmiss => ?_, fun hdirs => absurd hdirs hblocked⟩
      · have hpos := List.length_pos_iff.mpr hdeep
        rw [List.length_append, List.length_singleton]
        omega
      · refine hblocked (ancestorsAreDirs_iff.mpr fun r' hr' hne hnil n hn => ?_)
        have hnames' := hnames.of_prefix hr'
        obtain ⟨c₁, r', rfl⟩ := List.exists_cons_of_ne_nil hnil
        have hfirst : (r ++ [c]).take 1 = [c₁] := by
          obtain ⟨b, hb⟩ := hr'
          rw [← hb]
          rfl
        rw [hfirst] at hmiss
        exact absurd hn (missing_append (b := r') hnames' (by simp) hmiss n)
    · intro hcond
      have hblocked : ¬AncestorsAreDirs w.fs (r ++ [c]) := hcannot hcond
      have hfalse {P : Prop}
          (h : ((createParentDirectories (pathName (r ++ [c]))).run w).1 = true) :
          P := by
        rw [hrun] at h
        cases h
      refine ⟨?_, fun h => hfalse h, fun h => hfalse h, fun h => hfalse h⟩
      rw [hrun]
      exact iff_of_false Bool.false_ne_true hblocked

/-! ## A file system with one directory -/

/-- An empty directory of root. -/
def dirNode : Node := { fmt := .dir, perm := 0o755, uid := 0, gid := 0, data := [] }

/-- Nothing but the root -/
def bareFs : Fs :=
  .ofNodes (AList.singleton [] dirNode) ⟨dirNode, rfl, rfl⟩ <| by
    intro q c n h
    have hkey : q ++ [c] ∈ (AList.singleton [] dirNode : AList fun _ : Path => Node) :=
      AList.lookup_isSome.mp (by rw [h]; rfl)
    rw [AList.mem_keys, AList.keys_singleton, List.mem_singleton] at hkey
    simp at hkey

/-- The root and the directory `/d` -/
def dirFs : Fs := bareFs.create [str "d"] dirNode ⟨rfl, rfl⟩

theorem prefix_singleton {n : Name} (hr : r <+: [n]) : r = [] ∨ r = [n] := by
  have hr : r <+: [] ++ [n] := hr
  obtain rfl | hr := List.prefix_concat_iff.mp hr
  · exact Or.inr rfl
  · exact Or.inl (List.prefix_nil.mp hr)

/-- A world in which no call fails. -/
def quietWorld (fs : Fs) : World := { fs := fs, faults := [], canClone := false, umask := 0o022 }

theorem named_of_decide (h : (q.all fun n => n ≠ [] ∧ slash ∉ n) = true) : PathNames q := by
  intro n hn
  simpa using List.all_eq_true.mp h n hn

/-- The directory of `/d/f` is there. -/
theorem parents_right_iff_dir : ParentsRight (quietWorld dirFs) [str "d", str "f"] := by
  have hfind : dirFs.find [str "d"] = some dirNode := by
    rw [dirFs, Fs.find_create, Function.update_self]
  -- above the file there are the root and the directory
  have habove : ∀ r, r <+: [str "d", str "f"] → r ≠ [str "d", str "f"] → r = [] ∨
    r = [str "d"] := by
    intro r hr hne
    have hr : r <+: [str "d"] ++ [str "f"] := hr
    exact prefix_singleton ((List.prefix_concat_iff.mp hr).resolve_left hne)
  have hstat (follow : Bool) : dirFs.stat follow (pathName [str "d"]) = .ok dirNode := by
    refine Fs.stat_eq_ok.mpr ⟨[str "d"], resolve_of_dirs (by simp) (by decide) ?_ ?_, hfind⟩
    · intro r hr hne
      obtain rfl | rfl := prefix_singleton hr
      · exact Fs.isDir_root dirFs
      · exact absurd rfl hne
    · exact Or.inr (by simp [Fs.isLnk, hfind, dirNode])
  have hlinks : NoDangling dirFs [str "d", str "f"] := by
    intro r hr hne n hn hfmt
    obtain rfl | rfl := habove r hr hne
    · cases hn
    · cases (hstat false).symm.trans hn
      cases hfmt
  have hthere : ¬Missing dirFs [str "d"] := fun hmiss => hmiss _ (hstat true)
  refine (parents_right_iff (quietWorld dirFs) [str "d", str "f"] rfl (by simp)
    (named_of_decide (by decide)) hlinks).mpr ⟨by simp, hthere, fun _ r c hr hne hmiss => ?_⟩
  obtain heq | heq := habove _ hr hne
  · simp at heq
  · rw [heq] at hmiss
    exact absurd hmiss hthere

/-- The subvolume is `/`, and the file `/a` is right below it. -/
theorem top_level_fails :
    ¬∀ (w : World) (q : Path), w.faults = [] → q ≠ [] → PathNames q → NoDangling w.fs q →
      ParentsRight w q := by
  intro h
  have habove : ∀ r, r <+: [str "a"] → r ≠ [str "a"] → r = [] := by
    intro r hr hne
    exact (prefix_singleton hr).resolve_right hne
  have hright := h (quietWorld bareFs) [str "a"] rfl (by simp) (named_of_decide (by decide))
    (fun r hr hne n hn _ => by
      obtain rfl := habove r hr hne
      cases hn)
  have hrun : (createParentDirectories (pathName [str "a"])).run (quietWorld bareFs) = _ :=
    createParentDirectories_top rfl (by decide)
  have hdirs : AncestorsAreDirs bareFs [str "a"] :=
    ancestorsAreDirs_iff.mpr fun r hr hne hnil => absurd (habove r hr hne) hnil
  have htrue := hright.result.mpr hdirs
  rw [hrun] at htrue
  cases htrue

end Snapper
