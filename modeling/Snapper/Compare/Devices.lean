import Snapper.Compare.Difference

/-!
# Mount points below the compared directories

`CmpData` keeps the devices of the two compared roots.  A name of both sides is
entered only when both files are on these devices, and a name of one side is
reported only when its file is.  `listSubdirs` looks at no device: below a directory
of one side it walks into every mount point.

## Main results

- `Walked.cases`: a reported path is on both devices, or lies in a tree walked alone
- `cmpDirs_stays_iff`: the comparison stays on the devices of its roots exactly when
  no tree that is walked alone holds a file of another device
-/

namespace Snapper

/-! ## Staying on one device -/

/-- `p` is in the tree, and it and all its ancestors are on the device `dev`. -/
def Tree.OnDevice (dev : Nat) : Path → Tree → Prop
  | [], t => t.inode.dev = dev
  | n :: p, t => t.inode.dev = dev ∧ ∃ c, t.entries.lookup n = some c ∧ Tree.OnDevice dev p c

/-- `p` is in the tree, on the device of the root together with all its ancestors. -/
def Tree.OnRootDevice (t : Tree) (p : Path) : Prop :=
  ∀ q, q <+: p → ∃ i, t.lookup q = some i ∧ i.dev = t.inode.dev

theorem Tree.lookup_cons {t : Tree} {n : Name} {p : Path} :
    t.lookup (n :: p) = (t.entries.lookup n).bind fun c => c.lookup p := by
  rw [Tree.lookup, Tree.find_cons]
  cases t.entries.lookup n <;> rfl

/-- A path is on a device when everything from the root to it is there and on it. -/
theorem Tree.onDevice_iff {dev : Nat} {p : Path} {t : Tree} :
    t.OnDevice dev p ↔ ∀ q, q <+: p → ∃ i, t.lookup q = some i ∧ i.dev = dev := by
  induction p generalizing t with
  | nil =>
    simp only [OnDevice, List.prefix_nil, forall_eq, lookup_nil, Option.some.injEq,
      exists_eq_left']
  | cons n p ih =>
    rw [OnDevice]
    constructor
    · intro ⟨hroot, c, hc, hp⟩ q hq
      cases q with
      | nil => exact ⟨t.inode, lookup_nil t, hroot⟩
      | cons m q =>
        obtain ⟨rfl, hqp⟩ := List.cons_prefix_cons.mp hq
        rw [Tree.lookup_cons, hc]
        exact ih.mp hp q hqp
    · intro h
      obtain ⟨i, hi, hroot⟩ := h [] List.nil_prefix
      rw [lookup_nil] at hi
      cases hi
      obtain ⟨i, hi, _⟩ := h [n] (List.cons_prefix_cons.mpr ⟨rfl, List.nil_prefix⟩)
      rw [Tree.lookup_cons] at hi
      obtain ⟨c, hc, _⟩ := Option.bind_eq_some_iff.mp hi
      refine ⟨hroot, c, hc, ih.mpr fun q hq => ?_⟩
      have hlong := h (n :: q) (List.cons_prefix_cons.mpr ⟨rfl, hq⟩)
      rw [Tree.lookup_cons, hc] at hlong
      exact hlong

theorem Tree.onRootDevice_iff {t : Tree} {p : Path} :
    t.OnRootDevice p ↔ t.OnDevice t.inode.dev p :=
  Tree.onDevice_iff.symm

/-- The way down to a path on the device starts with an entry on the device. -/
theorem Tree.onRootDevice_cons {t : Tree} {n : Name} {p : Path} :
    t.OnRootDevice (n :: p) ↔
      ∃ c, t.entries.lookup n = some c ∧ c.inode.dev = t.inode.dev ∧ c.OnRootDevice p := by
  simp only [Tree.onRootDevice_iff, OnDevice, true_and]
  refine exists_congr fun c => and_congr_right fun _ => ?_
  constructor
  · intro hp
    have hroot : c.inode.dev = t.inode.dev := by
      cases p with
      | nil => exact hp
      | cons m p => exact hp.1
    exact ⟨hroot, hroot ▸ hp⟩
  · intro ⟨hroot, hp⟩
    rwa [hroot] at hp

theorem Tree.onRootDevice_nil (t : Tree) : t.OnRootDevice [] :=
  Tree.onRootDevice_iff.mpr rfl

/-! ## Trees that are walked alone -/

/-- The directory at `p` of one tree is walked without the other tree: the other tree
does not have `p`, or has a file of another type there. -/
inductive WalkedAlone (t t' : Tree) : Path → Prop where
  | lonesome {p : Path} {n : Name} {dir : Tree} :
      t.OnRootDevice (p ++ [n]) → t'.OnRootDevice p → t'.find p = some dir →
      dir.isDir = true → dir.entries.lookup n = none → WalkedAlone t t' (p ++ [n])
  | typeChanged {p : Path} {dir file : Tree} :
      t.OnRootDevice p → t'.OnRootDevice p → t.find p = some dir → dir.isDir = true →
      t'.find p = some file → file.isDir = false → WalkedAlone t t' p

/-- Everything below `p` is on the device of the root. -/
def Tree.NoMountBelow (t : Tree) (p : Path) : Prop :=
  ∀ q i, t.lookup (p ++ q) = some i → i.dev = t.inode.dev

/-- No directory that is walked alone has a mount point below it. -/
def AloneUnmounted (t t' : Tree) : Prop :=
  ∀ p, ¬Ignored p → WalkedAlone t t' p → t.NoMountBelow p

/-- Two entries on the devices of their directories: what is walked alone below them. -/
theorem WalkedAlone.cons {t t' c c' : Tree} {n : Name} {p : Path} (h : WalkedAlone c c' p)
    (hc : t.entries.lookup n = some c) (hc' : t'.entries.lookup n = some c')
    (hdev : c.inode.dev = t.inode.dev) (hdev' : c'.inode.dev = t'.inode.dev) :
    WalkedAlone t t' (n :: p) := by
  have hbind : ∀ q, t.find (n :: q) = c.find q := fun q => by rw [Tree.find_cons, hc]; rfl
  have hbind' : ∀ q, t'.find (n :: q) = c'.find q := fun q => by rw [Tree.find_cons, hc']; rfl
  cases h with
  | lonesome hon hon' hdir hisDir hnone =>
    exact .lonesome (p := n :: _) (Tree.onRootDevice_cons.mpr ⟨c, hc, hdev, hon⟩)
      (Tree.onRootDevice_cons.mpr ⟨c', hc', hdev', hon'⟩) ((hbind' _).trans hdir) hisDir hnone
  | typeChanged hon hon' hdir hisDir hfile hnot =>
    exact .typeChanged (Tree.onRootDevice_cons.mpr ⟨c, hc, hdev, hon⟩)
      (Tree.onRootDevice_cons.mpr ⟨c', hc', hdev', hon'⟩) ((hbind _).trans hdir) hisDir
      ((hbind' _).trans hfile) hnot

/-- An entry of one side only starts a tree that is walked alone: at the entry when the
other side is a directory, and at the parent when it is not. -/
theorem walkedAlone_of_lookup_none {t t' c : Tree} {n : Name} (ht : t.WF)
    (hc : t.entries.lookup n = some c) (hnone : t'.entries.lookup n = none)
    (hdev : t'.isDir = true → c.inode.dev = t.inode.dev) :
    WalkedAlone t t' [n] ∨ WalkedAlone t t' [] := by
  cases hisDir : t'.isDir with
  | true =>
    refine Or.inl (.lonesome (p := []) ?_ t'.onRootDevice_nil t'.find_nil hisDir hnone)
    exact Tree.onRootDevice_cons.mpr ⟨c, hc, hdev hisDir, c.onRootDevice_nil⟩
  | false =>
    refine Or.inr (.typeChanged t.onRootDevice_nil t'.onRootDevice_nil t.find_nil ?_ t'.find_nil
      hisDir)
    have hfmt : t.inode.fmt = .dir := by
      by_contra hne
      rw [ht.entries_of_not_dir hne] at hc
      cases hc
    simp [Tree.isDir, hfmt]

/-- What is walked is on both devices, or below a tree that is walked alone. -/
theorem Walked.cases {cmpData : CmpData} {p : Path} {t1 t2 : Tree} {st : Status}
    (h : Walked cmpData p t1 t2 st) (h1 : t1.WF) (h2 : t2.WF)
    (hd1 : t1.inode.dev = cmpData.dev1) (hd2 : t2.inode.dev = cmpData.dev2) :
    (t1.OnRootDevice p ∧ t2.OnRootDevice p) ∨
    (∃ a b, p = a ++ b ∧ WalkedAlone t1 t2 a ∧ (t1.find p).isSome) ∨
    (∃ a b, p = a ++ b ∧ WalkedAlone t2 t1 a ∧ (t2.find p).isSome) := by
  induction p generalizing t1 t2 with
  | nil => exact Or.inl ⟨t1.onRootDevice_nil, t2.onRootDevice_nil⟩
  | cons n p ih =>
    rw [Walked] at h
    cases hleft : t1.entries.lookup n with
    | none =>
      -- the second tree goes on alone
      cases hright : t2.entries.lookup n with
      | none =>
        rw [hleft, hright] at h
        exact h.elim
      | some c2 =>
        rw [hleft, hright] at h
        obtain ⟨hdev, hsome, _⟩ := h
        have hfind : (t2.find (n :: p)).isSome := by simpa [Tree.find_cons, hright] using hsome
        rcases walkedAlone_of_lookup_none h2 hright hleft fun hd => (hdev hd).trans hd2.symm
          with halone | halone
        · exact Or.inr (Or.inr ⟨[n], p, rfl, halone, hfind⟩)
        · exact Or.inr (Or.inr ⟨[], n :: p, rfl, halone, hfind⟩)
    | some c1 =>
      cases hright : t2.entries.lookup n with
      | none =>
        rw [hleft, hright] at h
        obtain ⟨hdev, hsome, _⟩ := h
        have hfind : (t1.find (n :: p)).isSome := by simpa [Tree.find_cons, hleft] using hsome
        rcases walkedAlone_of_lookup_none h1 hleft hright fun hd => (hdev hd).trans hd1.symm
          with halone | halone
        · exact Or.inr (Or.inl ⟨[n], p, rfl, halone, hfind⟩)
        · exact Or.inr (Or.inl ⟨[], n :: p, rfl, halone, hfind⟩)
      | some c2 =>
        rw [hleft, hright] at h
        -- both have the entry, and the walk stays on both devices
        obtain ⟨hdev1, hdev2, hwalk⟩ := h
        have hroot1 : c1.inode.dev = t1.inode.dev := hdev1.trans hd1.symm
        have hroot2 : c2.inode.dev = t2.inode.dev := hdev2.trans hd2.symm
        have hfind1 : t1.find (n :: p) = c1.find p := by rw [Tree.find_cons, hleft]; rfl
        have hfind2 : t2.find (n :: p) = c2.find p := by rw [Tree.find_cons, hright]; rfl
        rw [hfind1, hfind2]
        rcases ih hwalk (h1.child (Tree.mem_of_lookup_eq_some hleft))
          (h2.child (Tree.mem_of_lookup_eq_some hright)) hdev1 hdev2
          with ⟨hp1, hp2⟩ | ⟨a, b, rfl, halone, hsome⟩ | ⟨a, b, rfl, halone, hsome⟩
        · exact Or.inl ⟨Tree.onRootDevice_cons.mpr ⟨c1, hleft, hroot1, hp1⟩,
            Tree.onRootDevice_cons.mpr ⟨c2, hright, hroot2, hp2⟩⟩
        · exact Or.inr (Or.inl ⟨n :: a, b, rfl, halone.cons hleft hright hroot1 hroot2, hsome⟩)
        · exact Or.inr (Or.inr ⟨n :: a, b, rfl, halone.cons hright hleft hroot2 hroot1, hsome⟩)

/-- Below files that both trees have on their devices, the walk goes on from these. -/
theorem walked_append {cmpData : CmpData} {p q : Path} {t1 t2 c1 c2 : Tree} {st : Status}
    (hd1 : t1.inode.dev = cmpData.dev1) (hd2 : t2.inode.dev = cmpData.dev2)
    (hp1 : t1.OnRootDevice p) (hp2 : t2.OnRootDevice p) (hc1 : t1.find p = some c1)
    (hc2 : t2.find p = some c2) :
    Walked cmpData (p ++ q) t1 t2 st ↔ Walked cmpData q c1 c2 st := by
  induction p generalizing t1 t2 with
  | nil =>
    rw [Tree.find_nil] at hc1 hc2
    cases hc1
    cases hc2
    rfl
  | cons n p ih =>
    obtain ⟨d1, hleft, hroot1, hp1⟩ := Tree.onRootDevice_cons.mp hp1
    obtain ⟨d2, hright, hroot2, hp2⟩ := Tree.onRootDevice_cons.mp hp2
    rw [Tree.find_cons, hleft] at hc1
    rw [Tree.find_cons, hright] at hc2
    rw [List.cons_append, Walked, hleft, hright]
    simp only [hroot1, hroot2, hd1, hd2, true_and]
    exact ih (hroot1.trans hd1) (hroot2.trans hd2) hp1 hp2 hc1 hc2

/-- What is found at a path is an entry of the directory above it. -/
theorem Tree.find_concat {t : Tree} {p : Path} {n : Name} {c : Tree}
    (h : t.find (p ++ [n]) = some c) :
    ∃ d, t.find p = some d ∧ d.entries.lookup n = some c := by
  rw [Tree.find_append] at h
  obtain ⟨d, hd, hc⟩ := Option.bind_eq_some_iff.mp h
  rw [Tree.find_cons] at hc
  obtain ⟨c', hc', hnil⟩ := Option.bind_eq_some_iff.mp hc
  rw [Tree.find_nil] at hnil
  cases hnil
  exact ⟨d, hd, hc'⟩

theorem Tree.OnRootDevice.of_append {t : Tree} {p q : Path} (h : t.OnRootDevice (p ++ q)) :
    t.OnRootDevice p := fun r hr => h r (hr.trans (List.prefix_append p q))

theorem Tree.OnRootDevice.find {t : Tree} {p : Path} (h : t.OnRootDevice p) :
    ∃ c, t.find p = some c ∧ c.inode.dev = t.inode.dev := by
  obtain ⟨i, hi, hdev⟩ := h p (List.prefix_refl p)
  obtain ⟨c, hc, rfl⟩ := Option.map_eq_some_iff.mp hi
  exact ⟨c, hc, hdev⟩

/-- The other tree has nothing below a directory that is walked alone. -/
theorem WalkedAlone.find_none {t t' : Tree} {p q : Path} (h : WalkedAlone t t' p)
    (ht' : t'.WF) (hq : q ≠ []) : t'.find (p ++ q) = none := by
  cases h with
  | @lonesome p n dir _ _ hdir _ hnone =>
    rw [List.append_assoc, Tree.find_append, hdir]
    simp [Tree.find_cons, hnone]
  | @typeChanged _ dir file _ _ _ _ hfile hnot =>
    rw [Tree.find_append, hfile]
    have hfmt : file.inode.fmt ≠ .dir := by simpa [Tree.isDir] using hnot
    have hwf : file.WF := Tree.All.of_find ht' hfile
    exact hwf.find_of_not_dir hfmt hq

/-- A tree that is walked alone is on the device of its root. -/
theorem WalkedAlone.onRootDevice {t t' : Tree} {p : Path} (h : WalkedAlone t t' p) :
    t.OnRootDevice p := by
  cases h with
  | lonesome hon => exact hon
  | typeChanged hon => exact hon

/-- Everything below a directory of the first tree that is walked alone is reported. -/
theorem WalkedAlone.walked {t1 t2 : Tree} {p q : Path} (h : WalkedAlone t1 t2 p) (h2 : t2.WF)
    (hq : q ≠ []) (hsome : (t1.find (p ++ q)).isSome) :
    Walked ⟨t1.inode.dev, t2.inode.dev⟩ (p ++ q) t1 t2 .DELETED := by
  cases h with
  | @lonesome p n dir hon hon' hdir hisDir hnone =>
    obtain ⟨c, hc, hdev⟩ := hon.find
    obtain ⟨d, hd, hlookup⟩ := Tree.find_concat hc
    rw [Tree.find_append, hc] at hsome
    rw [List.append_assoc, walked_append rfl rfl hon.of_append hon' hd hdir, List.singleton_append,
      Walked, hlookup, hnone]
    exact ⟨fun _ => hdev, hsome, rfl⟩
  | @typeChanged _ dir file hon hon' hdir _ hfile hnot =>
    have hfmt : file.inode.fmt ≠ .dir := by simpa [Tree.isDir] using hnot
    rw [Tree.find_append, hdir] at hsome
    rw [walked_append rfl rfl hon hon' hdir hfile]
    obtain ⟨n, r, rfl⟩ := List.exists_cons_of_ne_nil hq
    exact (walked_cons_of_not_dir_right (Tree.All.of_find h2 hfile) hfmt).mpr ⟨hq, hsome, rfl⟩

/-- Everything below a directory of the second tree that is walked alone is reported. -/
theorem WalkedAlone.walked_right {t1 t2 : Tree} {p q : Path} (h : WalkedAlone t2 t1 p)
    (h1 : t1.WF) (hq : q ≠ []) (hsome : (t2.find (p ++ q)).isSome) :
    Walked ⟨t1.inode.dev, t2.inode.dev⟩ (p ++ q) t1 t2 .CREATED := by
  cases h with
  | @lonesome p n dir hon hon' hdir hisDir hnone =>
    obtain ⟨c, hc, hdev⟩ := hon.find
    obtain ⟨d, hd, hlookup⟩ := Tree.find_concat hc
    rw [Tree.find_append, hc] at hsome
    rw [List.append_assoc, walked_append rfl rfl hon' hon.of_append hdir hd, List.singleton_append,
      Walked, hlookup, hnone]
    exact ⟨fun _ => hdev, hsome, rfl⟩
  | @typeChanged _ dir file hon hon' hdir _ hfile hnot =>
    have hfmt : file.inode.fmt ≠ .dir := by simpa [Tree.isDir] using hnot
    rw [Tree.find_append, hdir] at hsome
    rw [walked_append rfl rfl hon' hon hfile hdir]
    obtain ⟨n, r, rfl⟩ := List.exists_cons_of_ne_nil hq
    exact (walked_cons_of_not_dir_left (Tree.All.of_find h1 hfile) hfmt).mpr ⟨hq, hsome, rfl⟩

/-! ## The comparison stays on its devices -/

/-- Every reported path is on the device of the root, with all its ancestors, in one of
the trees. -/
def StaysOnDevices (t1 t2 : Tree) : Prop :=
  ∀ name st, (name, st) ∈ cmpDirs t1 t2 →
    ∃ p, name = pathName p ∧ (t1.OnRootDevice p ∨ t2.OnRootDevice p)

/-- A path below a directory whose subtree holds no mount point is on the device. -/
theorem Tree.NoMountBelow.onRootDevice {t : Tree} {a b : Path} (h : t.NoMountBelow a)
    (hon : t.OnRootDevice a) (hsome : (t.find (a ++ b)).isSome) : t.OnRootDevice (a ++ b) := by
  intro q hq
  rcases le_total q.length a.length with hle | hle
  · exact hon q (List.prefix_of_prefix_length_le hq (List.prefix_append a b) hle)
  · obtain ⟨r, rfl⟩ := List.prefix_of_prefix_length_le (List.prefix_append a b) hq hle
    obtain ⟨s, hs⟩ := hq
    rw [← hs, Tree.find_append] at hsome
    cases hfind : t.find (a ++ r) with
    | none =>
      rw [hfind] at hsome
      cases hsome
    | some c =>
      have hlookup : t.lookup (a ++ r) = some c.inode := by simp [Tree.lookup, hfind]
      exact ⟨_, hlookup, h r _ hlookup⟩

theorem Tree.WF.no_slash {t : Tree} (h : t.WF) {p : Path} (hon : t.OnRootDevice p) :
    ∀ n ∈ p, slash ∉ n := by
  obtain ⟨c, hc, _⟩ := hon.find
  exact fun n hn => (h.validName hc n hn).no_slash

theorem ignored_append {a b : Path} (ha : a ≠ []) : Ignored (a ++ b) ↔ Ignored a := by
  obtain ⟨n, r, rfl⟩ := List.exists_cons_of_ne_nil ha
  rfl

/-- Two compared directories are entered together. -/
theorem WalkedAlone.ne_nil {t t' : Tree} {p : Path} (h : WalkedAlone t t' p)
    (hdir : t'.inode.fmt = .dir) : p ≠ [] := by
  cases h with
  | lonesome => simp
  | typeChanged _ _ _ _ hfile hnot =>
    rintro rfl
    rw [Tree.find_nil] at hfile
    cases hfile
    simp [Tree.isDir, hdir] at hnot

/-- A mount point in a tree that is walked alone is reported. -/
theorem aloneUnmounted_of_stays {t1 t2 t t' : Tree} {status : Status} (h1 : t1.WF) (h2 : t2.WF)
    (ht' : t'.WF) (hdir : t'.inode.fmt = .dir) (hstays : StaysOnDevices t1 t2)
    (hreports : Reports [] (WalkedBelow ⟨t1.inode.dev, t2.inode.dev⟩ [] t1 t2) (cmpDirs t1 t2))
    (hside : ∀ p, t1.OnRootDevice p ∨ t2.OnRootDevice p → t.OnRootDevice p ∨ t'.OnRootDevice p)
    (hwalk : ∀ p q, WalkedAlone t t' p → q ≠ [] → (t.find (p ++ q)).isSome →
      Walked ⟨t1.inode.dev, t2.inode.dev⟩ (p ++ q) t1 t2 status) :
    AloneUnmounted t t' := by
  intro p hign halone q i hi
  by_cases hq : q = []
  · -- the directory itself is on the device of the root
    rw [hq, List.append_nil] at hi
    obtain ⟨j, hj, hdev⟩ := halone.onRootDevice p (List.prefix_refl p)
    rw [hi] at hj
    cases hj
    exact hdev
  have hp : p ≠ [] := halone.ne_nil hdir
  have hsome : (t.find (p ++ q)).isSome := by
    rw [← lookup_isSome, hi]
    rfl
  -- below it the path is reported, so that one of the compared trees has it on the device of its
  -- root
  have hwalked : WalkedBelow ⟨t1.inode.dev, t2.inode.dev⟩ [] t1 t2 (p ++ q) status :=
    ⟨by simp [hp], fun h => hign ((ignored_append hp).mp h.2), hwalk p q halone hq hsome⟩
  obtain ⟨p', hname, hon⟩ := hstays _ _ ((hreports.mem_iff _ _).mpr ⟨p ++ q, rfl, hwalked⟩)
  have hslash : ∀ n ∈ p', slash ∉ n := hon.elim h1.no_slash h2.no_slash
  have heq : p ++ q = p' := pathName_injective (hreports.valid _ _ hwalked) hslash hname
  rw [← heq] at hon
  rcases hside _ hon with hon | hon
  · obtain ⟨j, hj, hdev⟩ := hon _ (List.prefix_refl _)
    rw [hi] at hj
    cases hj
    exact hdev
  · -- the other tree does not have the path
    obtain ⟨c, hc, _⟩ := hon.find
    rw [halone.find_none ht' hq] at hc
    cases hc

/-- The comparison reports only paths on the devices of the compared roots exactly when
no directory that it walks in one tree alone has a mount point below it. -/
theorem cmpDirs_stays_iff (t1 t2 : DirTree) :
    StaysOnDevices t1.root t2.root ↔
      AloneUnmounted t1.root t2.root ∧ AloneUnmounted t2.root t1.root := by
  have hreports := cmpDirs_walks t1 t2
  constructor
  · intro hstays
    exact ⟨aloneUnmounted_of_stays t1.wf t2.wf t2.wf t2.isDir hstays hreports (fun _ h => h)
        fun p q halone hq hsome => halone.walked t2.wf hq hsome,
      aloneUnmounted_of_stays t1.wf t2.wf t1.wf t1.isDir hstays hreports (fun _ h => h.symm)
        fun p q halone hq hsome => halone.walked_right t1.wf hq hsome⟩
  · intro ⟨h1, h2⟩ name st hmem
    obtain ⟨p, hname, hp, hign, hwalk⟩ := (hreports.mem_iff _ _).mp hmem
    refine ⟨p, hname, ?_⟩
    -- a reported path is walked in both trees, with its devices checked, or below a directory that
    -- one tree has alone
    rcases hwalk.cases t1.wf t2.wf rfl rfl with hon | ⟨a, b, rfl, halone, hsome⟩ |
      ⟨a, b, rfl, halone, hsome⟩
    · exact Or.inl hon.1
    · have ha : ¬Ignored a := fun h =>
        hign ⟨rfl, (ignored_append (halone.ne_nil t2.isDir)).mpr h⟩
      exact Or.inl ((h1 a ha halone).onRootDevice halone.onRootDevice hsome)
    · have ha : ¬Ignored a := fun h =>
        hign ⟨rfl, (ignored_append (halone.ne_nil t1.isDir)).mpr h⟩
      exact Or.inr ((h2 a ha halone).onRootDevice halone.onRootDevice hsome)

/-- A directory on a device, with the entries given. -/
def mountDir (dev : Nat) (entries : List (Name × Tree)) : Tree :=
  .node { fmt := .dir, perm := 0, uid := 0, gid := 0, mtimeSec := 0, mtimeNsec := 0, size := 0,
          dev := dev, ino := 0, data := none } entries

/-- The created directory `/a` has a file system mounted at `/a/m`: the root of the
mounted file system is reported as created. -/
theorem cmpDirs_enters_mount :
    ¬StaysOnDevices (mountDir 1 [])
      (mountDir 1 [(str "a", mountDir 1 [(str "m", mountDir 2 [])])]) := by
  set before : DirTree := ⟨mountDir 1 [], by decide, rfl⟩
  set after : DirTree :=
    ⟨mountDir 1 [(str "a", mountDir 1 [(str "m", mountDir 2 [])])], by decide, rfl⟩
  have hreports := cmpDirs_walks before after
  have hwalked : WalkedBelow ⟨1, 1⟩ [] before.root after.root [str "a", str "m"] .CREATED := by
    refine ⟨by simp, by decide, ?_⟩
    exact ⟨fun _ => rfl, rfl, rfl⟩
  intro hstays
  obtain ⟨p, hname, hon⟩ := hstays _ _ ((hreports.mem_iff _ _).mpr ⟨_, rfl, hwalked⟩)
  have hslash : ∀ n ∈ p, slash ∉ n := hon.elim before.wf.no_slash after.wf.no_slash
  have heq : [str "a", str "m"] = p := pathName_injective (by decide) hslash hname
  subst heq
  rcases hon with hon | hon
  · -- the first tree is empty
    obtain ⟨c, hc, _⟩ := hon.find
    cases hc
  · -- the second tree has it on the other device
    obtain ⟨c, hc, hdev⟩ := hon.find
    cases hc
    cases hdev

end Snapper
