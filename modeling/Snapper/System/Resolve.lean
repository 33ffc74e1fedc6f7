import Snapper.System.Fs

/-!
# Path resolution

How the kernel gets from a path string to a file: component by component from the root,
following symlinks on the way, and at the end only for the calls that do so.

## Main results

- `resolve_of_no_link`: without symlinks above it a path resolves to itself or not at all
- `resolve_of_dirs`: below directories a path resolves to itself
- `resolve_stop`: without following the last symlink a path resolves where it did or to a symlink
- `walk_append`: a walk goes on from the directory it has come to
- `resolve_mono`: what resolves still does so when files are added or changed otherwise
-/

namespace Snapper

/-- The components of a path string.  A slash at the end asks for a directory. -/
def components (s : Str) : List Name :=
  (s.splitOn slash).filter (· ≠ []) ++ if s.getLast? = some slash then [str "."] else []

/-- Where the target of a symlink in the directory `cur` starts from. -/
def linkBase (cur : Path) (target : Str) : Path :=
  if target.head? = some slash then [] else cur

/-- Walk down from the directory `cur`.  `jump` continues at the target of a symlink. -/
def walkComponents (fs : Fs) (follow : Bool)
    (jump : Path → Str → List Name → Except Errno Path) : Path → List Name → Except Errno Path
  | cur, [] => .ok cur
  | cur, c :: rest =>
    if c = str "." then walkComponents fs follow jump cur rest
    else if c = str ".." then walkComponents fs follow jump cur.dropLast rest
    else
      match fs.find (cur ++ [c]) with
      | none => if rest = [] then .ok (cur ++ [c]) else .error .enoent
      | some node =>
        match node.fmt with
        | .dir => walkComponents fs follow jump (cur ++ [c]) rest
        | .lnk =>
          if rest = [] ∧ follow = false then .ok (cur ++ [c]) else jump cur node.data rest
        | _ => if rest = [] then .ok (cur ++ [c]) else .error .enotdir

/-- Walk with at most `links` symlinks on the way. -/
def walk (fs : Fs) (follow : Bool) : Nat → Path → List Name → Except Errno Path
  | 0 => walkComponents fs follow fun _ _ _ => .error .eloop
  | links + 1 => walkComponents fs follow fun cur target rest =>
      walk fs follow links (linkBase cur target) (components target ++ rest)

/-- The file an absolute path string stands for; it may be missing from its directory.
`follow` says whether a symlink at the end is followed. -/
def resolve (fs : Fs) (follow : Bool) (s : Str) : Except Errno Path :=
  if s = [] then .error .enoent else walk fs follow 40 [] (components s)

/-! ## Paths of valid names -/

/-- The text of a path has the names of the path as its components, `.` and `..` included. -/
theorem components_pathName_of_ne {q : Path} (hne : ∀ n ∈ q, n ≠ []) (hslash : ∀ n ∈ q, slash ∉ n) :
    components (pathName q) = q := by
  have hlast : (pathName q).getLast? ≠ some slash := by
    induction q using List.reverseRec with
    | nil => simp
    | append_singleton q n _ =>
      have htext : pathName (q ++ [n]) = (pathName q ++ [slash]) ++ n := by
        simp [pathName_concat]
      rw [htext, List.getLast?_append_of_ne_nil _ (hne n (by simp))]
      exact fun h => hslash n (by simp) (List.mem_of_getLast? h)
  unfold components
  rw [splitOn_pathName hslash, if_neg hlast, List.append_nil]
  rw [List.filter_cons_of_neg (by simp)]
  apply List.filter_eq_self.mpr
  intro n hn
  exact decide_eq_true (hne n hn)

theorem components_pathName {q : Path} (hq : ∀ n ∈ q, ValidName n) :
    components (pathName q) = q :=
  components_pathName_of_ne (fun n hn => (hq n hn).ne_nil) fun n hn => (hq n hn).no_slash

/-! ## Paths without symlinks -/

/-- What a walk comes to when it meets no symlink: the path itself, or an error when
something on the way is not a directory. -/
theorem walkComponents_of_no_link {fs : Fs} {follow : Bool}
    {jump : Path → Str → List Name → Except Errno Path} {cur : Path} {rest : List Name}
    (hvalid : ∀ n ∈ rest, ValidName n)
    (hlink : ∀ r, r <+: rest → r ≠ rest → fs.isLnk (cur ++ r) = false)
    (hlast : follow = false ∨ fs.isLnk (cur ++ rest) = false) :
    walkComponents fs follow jump cur rest = .ok (cur ++ rest) ∨
      ((∃ e, walkComponents fs follow jump cur rest = .error e) ∧
        ∃ r, r <+: rest ∧ r ≠ rest ∧ r ≠ [] ∧ fs.isDir (cur ++ r) = false) := by
  induction rest generalizing cur with
  | nil =>
    left
    rw [walkComponents, List.append_nil]
  | cons c rest ih =>
    have hc : ValidName c := hvalid c (by simp)
    rw [walkComponents, if_neg hc.ne_dot, if_neg hc.ne_dotdot]
    by_cases hrest : rest = []
    · -- the last component
      subst hrest
      left
      cases hfind : fs.find (cur ++ [c]) with
      | none => rfl
      | some node =>
        simp only
        split
        · rfl
        · next hfmt =>
          have hfollow : follow = false := by
            obtain h | h := hlast
            · exact h
            · rw [Fs.isLnk_iff.mpr ⟨node, hfind, hfmt⟩] at h
              cases h
          simp [hfollow]
        · rfl
    · -- a component on the way is a directory or the walk ends here
      have hnext : [c] <+: c :: rest := ⟨rest, rfl⟩
      have hne : [c] ≠ c :: rest := by simpa using Ne.symm hrest
      have hnolink := hlink [c] hnext hne
      have hstop : fs.isDir (cur ++ [c]) = false →
          ∃ r, r <+: c :: rest ∧ r ≠ c :: rest ∧ r ≠ [] ∧ fs.isDir (cur ++ r) = false :=
        fun h => ⟨[c], hnext, hne, by simp, h⟩
      cases hfind : fs.find (cur ++ [c]) with
      | none =>
        right
        refine ⟨⟨_, if_neg hrest⟩, hstop ?_⟩
        simp [Fs.isDir, hfind]
      | some node =>
        simp only
        split
        · -- the induction hypothesis below the directory
          have hcur : cur ++ c :: rest = (cur ++ [c]) ++ rest := by simp
          rw [hcur]
          have hlink' : ∀ r, r <+: rest → r ≠ rest → fs.isLnk (cur ++ [c] ++ r) = false := by
            intro r hr hne'
            have := hlink (c :: r) (List.cons_prefix_cons.mpr ⟨rfl, hr⟩) (by simpa using hne')
            simpa using this
          obtain h | ⟨he, r, hr, hne', hnil, hdir⟩ :=
            ih (fun n hn => hvalid n (by simp [hn])) hlink' (by simpa using hlast)
          · exact Or.inl h
          · right
            refine ⟨he, c :: r, List.cons_prefix_cons.mpr ⟨rfl, hr⟩, by simpa using hne',
              by simp, ?_⟩
            simpa using hdir
        · next hfmt =>
          rw [Fs.isLnk_iff.mpr ⟨node, hfind, hfmt⟩] at hnolink
          cases hnolink
        · next hdir _ =>
          right
          refine ⟨⟨_, if_neg hrest⟩, hstop ?_⟩
          simpa [Fs.isDir, hfind] using hdir

/-- Where no component is a symlink the walk comes to the path itself, or stops at one that is no
directory. -/
theorem walk_of_no_link {fs : Fs} {follow : Bool} {links : Nat} {q : Path}
    (hvalid : ∀ n ∈ q, ValidName n)
    (hlink : ∀ r, r <+: q → r ≠ q → fs.isLnk r = false)
    (hlast : follow = false ∨ fs.isLnk q = false) :
    walk fs follow links [] q = .ok q ∨
      ((∃ e, walk fs follow links [] q = .error e) ∧
        ∃ r, r <+: q ∧ r ≠ q ∧ r ≠ [] ∧ fs.isDir r = false) := by
  cases links with
  | zero => exact @walkComponents_of_no_link fs follow _ [] q hvalid hlink hlast
  | succ links => exact @walkComponents_of_no_link fs follow _ [] q hvalid hlink hlast

/-- No symlink is above the path. -/
def NoLinkAbove (fs : Fs) (q : Path) : Prop := ∀ r, r <+: q → r ≠ q → fs.isLnk r = false

/-- Everything above the path is a directory. -/
def DirsAbove (fs : Fs) (q : Path) : Prop := ∀ r, r <+: q → r ≠ q → fs.isDir r = true

theorem not_isLnk_of_isDir {fs : Fs} {q : Path} (h : fs.isDir q = true) : fs.isLnk q = false := by
  obtain ⟨n, hn, hfmt⟩ := Fs.isDir_iff.mp h
  simp [Fs.isLnk, hn, hfmt]

theorem DirsAbove.noLinkAbove {fs : Fs} {q : Path} (h : DirsAbove fs q) : NoLinkAbove fs q :=
  fun r hr hne => not_isLnk_of_isDir (h r hr hne)

/-- Without symlinks above it a path resolves to itself or not at all. -/
theorem resolve_of_no_link {fs : Fs} {follow : Bool} {q : Path}
    (hvalid : ∀ n ∈ q, ValidName n) (hlink : NoLinkAbove fs q)
    (hlast : follow = false ∨ fs.isLnk q = false) :
    resolve fs follow (pathName q) = .ok q ∨ ∃ e, resolve fs follow (pathName q) = .error e := by
  unfold resolve
  by_cases hq : pathName q = []
  · exact Or.inr ⟨_, if_pos hq⟩
  · rw [if_neg hq, components_pathName hvalid]
    obtain h | ⟨h, _⟩ := walk_of_no_link hvalid hlink hlast
    · exact Or.inl h
    · exact Or.inr h

/-- Below directories a path resolves to itself. -/
theorem resolve_of_dirs {fs : Fs} {follow : Bool} {q : Path} (hq : q ≠ [])
    (hvalid : ∀ n ∈ q, ValidName n) (hdirs : DirsAbove fs q)
    (hlast : follow = false ∨ fs.isLnk q = false) :
    resolve fs follow (pathName q) = .ok q := by
  have hname : pathName q ≠ [] := by
    cases q with
    | nil => exact absurd rfl hq
    | cons n q => simp
  unfold resolve
  rw [if_neg hname, components_pathName hvalid]
  obtain h | ⟨_, r, hr, hne, _, hdir⟩ := walk_of_no_link hvalid hdirs.noLinkAbove hlast
  · exact h
  · rw [hdirs r hr hne] at hdir
    cases hdir

/-! ## Where a walk can end -/

/-- A walk that follows symlinks at its end does not end at one, if no jump does. -/
theorem walkComponents_follow {fs : Fs}
    {jump : Path → Str → List Name → Except Errno Path} {cur : Path} {rest : List Name}
    {q : Path} (hcur : fs.isDir cur = true)
    (hjump : ∀ cur target rest, fs.isDir cur = true → jump cur target rest = .ok q →
      fs.isLnk q = false)
    (h : walkComponents fs true jump cur rest = .ok q) : fs.isLnk q = false := by
  -- the walk goes on from another directory, so `cur` varies
  induction rest generalizing cur with
  | nil =>
    rw [walkComponents] at h
    cases h
    exact not_isLnk_of_isDir hcur
  | cons c rest ih =>
    rw [walkComponents] at h
    split at h
    · exact ih hcur h
    · split at h
      · exact ih (Fs.isDir_dropLast hcur) h
      · split at h
        · next hfind =>
          split at h
          · cases h
            simp [Fs.isLnk, hfind]
          · cases h
        · next node hfind =>
          split at h
          · next hfmt => exact ih (Fs.isDir_iff.mpr ⟨node, hfind, hfmt⟩) h
          · rw [if_neg (by simp)] at h
            exact hjump _ _ _ hcur h
          · next hlnk =>
            split at h
            · cases h
              simp only [Fs.isLnk, hfind, Option.any_some, decide_eq_false_iff_not]
              assumption
            · cases h

/-- A walk that follows symlinks does not end at one: there are jumps left, or it fails. -/
theorem walk_follow {fs : Fs} {links : Nat} {cur : Path} {rest : List Name} {q : Path}
    (hcur : fs.isDir cur = true) (h : walk fs true links cur rest = .ok q) :
    fs.isLnk q = false := by
  induction links generalizing cur rest with
  | zero =>
    refine walkComponents_follow hcur ?_ h
    intro _ _ _ _ h
    cases h
  | succ links ih =>
    refine walkComponents_follow hcur ?_ h
    intro cur target rest hcur h
    refine ih ?_ h
    unfold linkBase
    split
    · exact Fs.isDir_root fs
    · exact hcur

/-- A call that follows symlinks does not end at one. -/
theorem resolve_follow {fs : Fs} {s : Str} {q : Path} (h : resolve fs true s = .ok q) :
    fs.isLnk q = false := by
  unfold resolve at h
  split at h
  · cases h
  · exact walk_follow (Fs.isDir_root fs) h

/-- Where a call that follows symlinks gets, another one stops at a symlink or gets there
too. -/
theorem walkComponents_stop {fs : Fs}
    {jump jump' : Path → Str → List Name → Except Errno Path} {cur : Path} {rest : List Name}
    {q : Path}
    (hjump : ∀ cur target rest, jump cur target rest = .ok q →
      ∃ q', jump' cur target rest = .ok q' ∧ (q' = q ∨ fs.isLnk q' = true))
    (h : walkComponents fs true jump cur rest = .ok q) :
    ∃ q', walkComponents fs false jump' cur rest = .ok q' ∧ (q' = q ∨ fs.isLnk q' = true) := by
  induction rest generalizing cur with
  | nil =>
    rw [walkComponents] at h ⊢
    exact ⟨q, h, Or.inl rfl⟩
  | cons c rest ih =>
    rw [walkComponents] at h ⊢
    -- both walks do the same until they come to a symlink
    split at h
    · next hdot =>
      rw [if_pos hdot]
      exact ih h
    · next hdot =>
      rw [if_neg hdot]
      split at h
      · next hdotdot =>
        rw [if_pos hdotdot]
        exact ih h
      · next hdotdot =>
        rw [if_neg hdotdot]
        cases hfind : fs.find (cur ++ [c]) with
        | none =>
          simp only [hfind] at h ⊢
          exact ⟨q, h, Or.inl rfl⟩
        | some node =>
          simp only [hfind] at h ⊢
          split at h
          · exact ih h
          · next hlnk =>
            rw [if_neg (by simp)] at h
            by_cases hrest : rest = []
            · -- the last component is the symlink
              rw [if_pos ⟨hrest, trivial⟩]
              exact ⟨_, rfl, Or.inr (Fs.isLnk_iff.mpr ⟨node, hfind, hlnk⟩)⟩
            · rw [if_neg (by simp [hrest])]
              exact hjump _ _ _ h
          · exact ⟨q, h, Or.inl rfl⟩

/-- A walk that does not follow the last symlink ends there or where the other one ends. -/
theorem walk_stop {fs : Fs} {links : Nat} {cur : Path} {rest : List Name} {q : Path}
    (h : walk fs true links cur rest = .ok q) :
    ∃ q', walk fs false links cur rest = .ok q' ∧ (q' = q ∨ fs.isLnk q' = true) := by
  induction links generalizing cur rest with
  | zero =>
    refine walkComponents_stop ?_ h
    intro _ _ _ h
    cases h
  | succ links ih =>
    refine walkComponents_stop ?_ h
    intro _ _ _ h
    exact ih h

/-- The same for a path. -/
theorem resolve_stop {fs : Fs} {s : Str} {q : Path} (h : resolve fs true s = .ok q) :
    ∃ q', resolve fs false s = .ok q' ∧ (q' = q ∨ fs.isLnk q' = true) := by
  unfold resolve at h ⊢
  split at h
  · cases h
  · next hs =>
    rw [if_neg hs]
    exact walk_stop h

/-! ## Walks one after the other -/

/-- A walk that has come to a directory goes on from there, or after the last symlink. -/
theorem walkComponents_append {fs : Fs}
    {jump : Path → Str → List Name → Except Errno Path} {cur : Path} {front : List Name}
    {q : Path} (rest : List Name) (hq : fs.isDir q = true)
    (h : walkComponents fs false jump cur front = .ok q) :
    walkComponents fs false jump cur (front ++ rest) = walkComponents fs false jump q rest ∨
      ∃ cur' target front', jump cur' target front' = .ok q ∧
        walkComponents fs false jump cur (front ++ rest) = jump cur' target (front' ++ rest) := by
  induction front generalizing cur with
  | nil =>
    rw [walkComponents] at h
    cases h
    exact Or.inl rfl
  | cons c front ih =>
    rw [walkComponents] at h
    rw [List.cons_append, walkComponents]
    -- the walk does not end at anything but a directory
    have hend : ∀ r : Path, fs.isDir r = false → Except.ok (ε := Errno) r ≠ .ok q := by
      intro r hr heq
      cases heq
      rw [hq] at hr
      cases hr
    split at h
    · next hdot =>
      rw [if_pos hdot]
      exact ih h
    · next hdot =>
      rw [if_neg hdot]
      split at h
      · next hdotdot =>
        rw [if_pos hdotdot]
        exact ih h
      · next hdotdot =>
        rw [if_neg hdotdot]
        cases hfind : fs.find (cur ++ [c]) with
        | none =>
          simp only [hfind] at h
          split at h
          · exact absurd h (hend _ (by simp [Fs.isDir, hfind]))
          · cases h
        | some node =>
          simp only [hfind] at h ⊢
          split at h
          · exact ih h
          · next hlnk =>
            split at h
            · exact absurd h (hend _ (by simp [Fs.isDir, hfind, hlnk]))
            · next hnot =>
              have hfront : front ≠ [] := fun hnil => hnot ⟨hnil, trivial⟩
              rw [if_neg (by simp [hfront])]
              exact Or.inr ⟨cur, node.data, front, h, rfl⟩
          · next hdir _ =>
            split at h
            · exact absurd h (hend _ (by simpa [Fs.isDir, hfind] using hdir))
            · cases h

/-- A walk to a directory can be continued, with the jumps that are left. -/
theorem walk_append {fs : Fs} {links : Nat} {cur : Path} {front : List Name} {q : Path}
    (rest : List Name) (hq : fs.isDir q = true) (h : walk fs false links cur front = .ok q) :
    ∃ links', walk fs false links cur (front ++ rest) = walk fs false links' q rest := by
  induction links generalizing cur front with
  | zero =>
    obtain hon | ⟨_, _, _, hjump, _⟩ := walkComponents_append rest hq h
    · exact ⟨0, hon⟩
    · cases hjump
  | succ links ih =>
    obtain hon | ⟨cur', target, front', hjump, hon⟩ := walkComponents_append rest hq h
    · exact ⟨links + 1, hon⟩
    · obtain ⟨links', heq⟩ := ih hjump
      refine ⟨links', hon.trans ?_⟩
      rw [← List.append_assoc]
      exact heq

/-- The walk over more components goes on from the directory that the first ones lead to, or after
the same symlink, or it fails because they do not lead to a directory. -/
theorem walkComponents_front {fs : Fs} {follow : Bool}
    (jump jump' : Path → Str → List Name → Except Errno Path) {cur : Path} (front : List Name)
    {rest : List Name} (hrest : rest ≠ []) (hcur : fs.isDir cur = true) :
    (∃ d, fs.isDir d = true ∧ walkComponents fs true jump cur front = .ok d ∧
      walkComponents fs follow jump' cur (front ++ rest) = walkComponents fs follow jump' d rest) ∨
    (∃ cur' target front', fs.isDir cur' = true ∧
      walkComponents fs true jump cur front = jump cur' target front' ∧
      walkComponents fs follow jump' cur (front ++ rest) = jump' cur' target (front' ++ rest)) ∨
    ((∀ d, walkComponents fs true jump cur front = .ok d → fs.isDir d = false) ∧
      ∃ e, walkComponents fs follow jump' cur (front ++ rest) = .error e) := by
  induction front generalizing cur with
  | nil =>
    left
    exact ⟨cur, hcur, by rw [walkComponents], rfl⟩
  | cons c front ih =>
    have hmore : front ++ rest ≠ [] := List.append_ne_nil_of_right_ne_nil front hrest
    rw [List.cons_append]
    simp only [walkComponents]
    by_cases hdot : c = str "."
    · simp only [if_pos hdot]
      exact ih hcur
    · simp only [if_neg hdot]
      by_cases hdotdot : c = str ".."
      · simp only [if_pos hdotdot]
        exact ih (Fs.isDir_dropLast hcur)
      · simp only [if_neg hdotdot]
        -- what is not a directory ends the longer walk
        have hstop (e : Errno) (hno : fs.isDir (cur ++ [c]) = false) :
            ∀ d, (if front = [] then Except.ok (cur ++ [c]) else Except.error e) = .ok d →
              fs.isDir d = false := by
          intro d hd
          split_ifs at hd
          cases hd
          exact hno
        cases hfind : fs.find (cur ++ [c]) with
        | none =>
          right; right
          refine ⟨hstop _ (by simp [Fs.isDir, hfind]), .enoent, ?_⟩
          simp only [if_neg hmore]
        | some node =>
          cases hfmt : node.fmt with
          | dir =>
            simp only [hfmt]
            exact ih (Fs.isDir_iff.mpr ⟨node, hfind, hfmt⟩)
          | lnk =>
            right; left
            refine ⟨cur, node.data, front, hcur, ?_, ?_⟩
            · simp [hfmt]
            · simp only [hfmt]
              rw [if_neg fun h => hmore h.1]
          | _ =>
            right; right
            simp only [hfmt]
            refine ⟨hstop _ (by simp [Fs.isDir, hfind, hfmt]), .enotdir, ?_⟩
            rw [if_neg hmore]

/-- A walk passes the directory that its front part leads to, or fails there. -/
theorem walk_front {fs : Fs} {follow : Bool} {links : Nat} {cur : Path} (front : List Name)
    {rest : List Name} (hrest : rest ≠ []) (hcur : fs.isDir cur = true) :
    (∃ d links', fs.isDir d = true ∧ walk fs true links cur front = .ok d ∧
      walk fs follow links cur (front ++ rest) = walk fs follow links' d rest) ∨
    ((∀ d, walk fs true links cur front = .ok d → fs.isDir d = false) ∧
      ∃ e, walk fs follow links cur (front ++ rest) = .error e) := by
  -- each symlink on the way costs one of the links
  induction links generalizing cur front with
  | zero =>
    obtain ⟨d, hd, hfront, hon⟩ | ⟨_, _, _, _, hfront, hon⟩ | hstop :=
      walkComponents_front (fun _ _ _ => .error .eloop)
        (fun _ _ _ => .error .eloop) front hrest hcur
    · exact Or.inl ⟨d, 0, hd, hfront, hon⟩
    · refine Or.inr ⟨fun d hd => ?_, _, hon⟩
      cases hfront.symm.trans hd
    · exact Or.inr hstop
  | succ links ih =>
    obtain ⟨d, hd, hfront, hon⟩ | ⟨cur', target, front', hcur', hfront, hon⟩ | hstop :=
      walkComponents_front
        (fun cur target rest =>
          walk fs true links (linkBase cur target) (components target ++ rest))
        (fun cur target rest =>
          walk fs follow links (linkBase cur target) (components target ++ rest)) front hrest hcur
    · exact Or.inl ⟨d, links + 1, hd, hfront, hon⟩
    -- a target is walked from the root or from the directory of the symlink
    · have hbase : fs.isDir (linkBase cur' target) = true := by
        unfold linkBase
        split
        · exact Fs.isDir_root fs
        · exact hcur'
      rw [← List.append_assoc] at hon
      obtain ⟨d, links', hd, hwalk, hwalk'⟩ | ⟨hwalk, e, hwalk'⟩ :=
        ih (components target ++ front') hbase
      · exact Or.inl ⟨d, links', hd, hfront.trans hwalk, hon.trans hwalk'⟩
      · exact Or.inr ⟨fun d hd => hwalk d (hfront.symm.trans hd), e, hon.trans hwalk'⟩
    · exact Or.inr hstop

/-- Below an empty directory nothing is found. -/
theorem walk_of_missing {fs : Fs} {links : Nat} {q : Path} {c : Name} {rest : List Name}
    (hc : ValidName c) (hmissing : fs.find (q ++ [c]) = none) {r : Path}
    (h : walk fs false links q (c :: rest) = .ok r) : fs.find r = none := by
  have hstep : ∀ jump, walkComponents fs false jump q (c :: rest) = .ok r → fs.find r = none := by
    intro jump h
    rw [walkComponents, if_neg hc.ne_dot, if_neg hc.ne_dotdot] at h
    simp only [hmissing] at h
    split at h
    · cases h
      exact hmissing
    · cases h
  cases links with
  | zero => exact hstep _ h
  | succ links => exact hstep _ h

/-! ## More files -/

/-- The files of `fs` are in `fs'`, of the same type and with the same targets. -/
def Extends (fs fs' : Fs) : Prop :=
  ∀ q n, fs.find q = some n →
    ∃ n', fs'.find q = some n' ∧ n'.fmt = n.fmt ∧ (n.fmt = .lnk → n'.data = n.data)

/-- In a larger file system a walk comes where it came before, if its jumps do. -/
theorem walkComponents_mono {fs fs' : Fs} {follow : Bool}
    {jump jump' : Path → Str → List Name → Except Errno Path} {cur : Path} {rest : List Name}
    {q : Path} (hext : Extends fs fs') (hq : follow = false ∨ (fs.find q).isSome)
    (hjump : ∀ cur target rest, jump cur target rest = .ok q → jump' cur target rest = .ok q)
    (h : walkComponents fs follow jump cur rest = .ok q) :
    walkComponents fs' follow jump' cur rest = .ok q := by
  induction rest generalizing cur with
  | nil => exact h
  | cons c rest ih =>
    rw [walkComponents] at h ⊢
    split at h
    · next hdot =>
      rw [if_pos hdot]
      exact ih h
    · next hdot =>
      rw [if_neg hdot]
      split at h
      · next hdotdot =>
        rw [if_pos hdotdot]
        exact ih h
      · next hdotdot =>
        rw [if_neg hdotdot]
        cases hfind : fs.find (cur ++ [c]) with
        | none =>
          -- the last component was missing; a new file there is not followed
          simp only [hfind] at h
          split at h
          · next hrest =>
            cases h
            have hfollow : follow = false := by
              obtain hf | hs := hq
              · exact hf
              · rw [hfind] at hs
                cases hs
            subst hrest hfollow
            cases fs'.find (cur ++ [c]) with
            | none => rfl
            | some node =>
              simp only
              split <;> simp [walkComponents]
          · cases h
        | some node =>
          obtain ⟨node', hfind', hfmt, hdata⟩ := hext _ _ hfind
          simp only [hfind] at h
          simp only [hfind', hfmt]
          split at h
          · next hdir => exact ih h
          · next hlnk =>
            rw [hdata hlnk]
            split at h
            · next hlast =>
              rw [if_pos hlast]
              exact h
            · next hlast =>
              rw [if_neg hlast]
              exact hjump _ _ _ h
          · exact h

/-- And so does a walk with all of its jumps. -/
theorem walk_mono {fs fs' : Fs} {follow : Bool} {links : Nat} {cur : Path} {rest : List Name}
    {q : Path} (hext : Extends fs fs') (hq : follow = false ∨ (fs.find q).isSome)
    (h : walk fs follow links cur rest = .ok q) : walk fs' follow links cur rest = .ok q := by
  induction links generalizing cur rest with
  | zero => exact walkComponents_mono hext hq (fun _ _ _ h => h) h
  | succ links ih =>
    refine walkComponents_mono hext hq ?_ h
    intro cur target rest h
    exact ih h

/-- What resolves still does so when files are added or changed otherwise. -/
theorem resolve_mono {fs fs' : Fs} {follow : Bool} {s : Str} {q : Path} (hext : Extends fs fs')
    (hq : follow = false ∨ (fs.find q).isSome) (h : resolve fs follow s = .ok q) :
    resolve fs' follow s = .ok q := by
  unfold resolve at h ⊢
  split at h
  · cases h
  · next hs =>
    rw [if_neg hs]
    exact walk_mono hext hq h

end Snapper
