import Snapper.Compare.CmpDirs

/-!
# The comparison reports exactly the differences

`Differs t1 t2 p st` says, without any traversal, that `p` is a path at which two
trees differ and what its status is.  `cmpDirs` reports each such path once and
nothing else.

## Structure of the proof

- `Reports q R L`: the calls `L` report the paths `q ++ p` with `R p st`, once each
- `Reports.flatMap`: the reports of a directory from the reports of its entries
- `Walked`: what is reported of two files, their devices taken into account
- `listSubdirs_reports`, `twosome_walks`, `cmpDirsWorker_walks`: one lemma for each
  routine of the comparison
- `walked_iff_differing`: without mount points that is what differs
-/

namespace Snapper

open General

/-! ## The specification -/

/-- The status of a path from what the two trees hold there. -/
def diffStatus : Option Inode → Option Inode → Option Status
  | none, none => none
  | none, some _ => some .CREATED
  | some _, none => some .DELETED
  | some f1, some f2 => if cmpFiles f1 f2 = .zero then none else some (cmpFiles f1 f2)

/-- `/.snapshots` and everything below it. -/
def Ignored (p : Path) : Prop := p.head? = some (str ".snapshots")

instance (p : Path) : Decidable (Ignored p) := inferInstanceAs (Decidable (_ = _))

/-- The trees differ at `p`, with status `st`. -/
def Differs (t1 t2 : Tree) (p : Path) (st : Status) : Prop :=
  p ≠ [] ∧ ¬Ignored p ∧ diffStatus (t1.lookup p) (t2.lookup p) = some st

instance (t1 t2 : Tree) (p : Path) (st : Status) : Decidable (Differs t1 t2 p st) :=
  inferInstanceAs (Decidable (_ ∧ _ ∧ _))

/-- A differing path exists in one of the trees. -/
theorem Differs.exists_lookup {t1 t2 : Tree} {p : Path} {st : Status} (h : Differs t1 t2 p st) :
    (∃ f, t1.lookup p = some f) ∨ (∃ f, t2.lookup p = some f) := by
  obtain ⟨_, _, h⟩ := h
  cases h1 : t1.lookup p with
  | some f => exact Or.inl ⟨f, rfl⟩
  | none =>
    cases h2 : t2.lookup p with
    | some f => exact Or.inr ⟨f, rfl⟩
    | none =>
      rw [h1, h2] at h
      cases h

/-- A reported status is one that the text form of a status can express. -/
theorem Differs.reported {t1 t2 : Tree} {p : Path} {st : Status} (h : Differs t1 t2 p st) :
    st.Reported := by
  obtain ⟨_, _, h⟩ := h
  cases h1 : t1.lookup p <;> cases h2 : t2.lookup p <;> rw [h1, h2] at h
  · cases h
  · cases h
    exact Or.inl rfl
  · cases h
    exact Or.inr (Or.inl rfl)
  · simp only [diffStatus] at h
    split_ifs at h
    cases h
    exact Or.inr (Or.inr (cmpFiles_both _ _))

/-! ## Lists of reports -/

/-- The reports `L` name the paths `q ++ p` with `R p st`, each of them once. -/
structure Reports (q : Path) (R : Path → Status → Prop) (L : List Report) : Prop where
  once : (L.map Prod.fst).Nodup
  mem_iff : ∀ name st, (name, st) ∈ L ↔ ∃ p, name = pathName (q ++ p) ∧ R p st
  valid : ∀ p st, R p st → ∀ n ∈ p, slash ∉ n

namespace Reports

variable {q : Path} {R R' : Path → Status → Prop} {L : List Report}

theorem congr (h : Reports q R L) (hR : ∀ p st, R p st ↔ R' p st) : Reports q R' L := by
  have : R = R' := funext fun p => funext fun st => propext (hR p st)
  exact this ▸ h

theorem nil (hR : ∀ p st, ¬R p st) : Reports q R [] where
  once := List.nodup_nil
  mem_iff name st := by
    refine iff_of_false (List.not_mem_nil) ?_
    rintro ⟨p, _, hp⟩
    exact hR p st hp
  valid p st hp := absurd hp (hR p st)

/-- Reports that are made only under a condition. -/
theorem guard (h : Reports q R L) (c : Prop) [Decidable c] :
    Reports q (fun p st => c ∧ R p st) (if c then L else []) := by
  by_cases hc : c
  · simpa [hc] using h
  · simpa [hc] using Reports.nil (q := q) (R := fun _ _ => False) (by simp)

/-- A report of the directory itself, before the reports of the files below it. -/
theorem cons (hq : ∀ n ∈ q, slash ∉ n) (h : Reports q R L) (hne : ∀ st, ¬R [] st)
    (status : Status) :
    Reports q (fun p st => (p = [] ∧ st = status) ∨ R p st) ((pathName q, status) :: L) where
  once := by
    rw [List.map_cons, List.nodup_cons]
    refine ⟨?_, h.once⟩
    rintro hmem
    obtain ⟨⟨name, st⟩, hL, rfl⟩ := List.mem_map.mp hmem
    obtain ⟨p, hname, hp⟩ := (h.mem_iff _ _).mp hL
    -- the same name would be a report of the path itself
    have hqp : q = q ++ p := by
      refine pathName_injective hq ?_ hname
      intro n hn
      rcases List.mem_append.mp hn with hn | hn
      · exact hq n hn
      · exact h.valid p st hp n hn
    have : p = [] := by simpa using hqp
    exact hne st (this ▸ hp)
  mem_iff name st := by
    rw [List.mem_cons, Prod.mk.injEq, h.mem_iff]
    constructor
    · rintro (⟨hname, hst⟩ | ⟨p, hname, hp⟩)
      · exact ⟨[], by simpa using hname, Or.inl ⟨rfl, hst⟩⟩
      · exact ⟨p, hname, Or.inr hp⟩
    · rintro ⟨p, hname, ⟨rfl, hst⟩ | hp⟩
      · exact Or.inl ⟨by simpa using hname, hst⟩
      · exact Or.inr ⟨p, hname, hp⟩
  valid p st hp := by
    rcases hp with ⟨rfl, _⟩ | hp
    · intro n hn
      cases hn
    · exact h.valid p st hp

/-- Reports of disjoint sets of paths, one after the other. -/
theorem append {L' : List Report} (hq : ∀ n ∈ q, slash ∉ n) (h : Reports q R L)
    (h' : Reports q R' L') (hdisj : ∀ p st st', R p st → ¬R' p st') :
    Reports q (fun p st => R p st ∨ R' p st) (L ++ L') where
  once := by
    rw [List.map_append, List.nodup_append]
    refine ⟨h.once, h'.once, ?_⟩
    intro a ha b hb heq
    obtain ⟨⟨name, st⟩, hL, rfl⟩ := List.mem_map.mp ha
    obtain ⟨⟨name', st'⟩, hL', rfl⟩ := List.mem_map.mp hb
    obtain ⟨p, hp, hR⟩ := (h.mem_iff _ _).mp hL
    obtain ⟨p', hp', hR'⟩ := (h'.mem_iff _ _).mp hL'
    simp only at heq hp hp'
    -- equal names are equal paths, and these are in one of the two relations only
    have hpp : q ++ p = q ++ p' := by
      refine pathName_injective ?_ ?_ (hp.symm.trans (heq.trans hp'))
      · intro n hn
        exact (List.mem_append.mp hn).elim (hq n) (h.valid p st hR n)
      · intro n hn
        exact (List.mem_append.mp hn).elim (hq n) (h'.valid p' st' hR' n)
    have : p = p' := List.append_cancel_left hpp
    exact hdisj p st st' hR (this ▸ hR')
  mem_iff name st := by
    rw [List.mem_append, h.mem_iff, h'.mem_iff]
    constructor
    · rintro (⟨p, hp, hR⟩ | ⟨p, hp, hR⟩)
      · exact ⟨p, hp, Or.inl hR⟩
      · exact ⟨p, hp, Or.inr hR⟩
    · rintro ⟨p, hp, hR | hR⟩
      · exact Or.inl ⟨p, hp, hR⟩
      · exact Or.inr ⟨p, hp, hR⟩
  valid p st hp := hp.elim (h.valid p st) (h'.valid p st)

/-- The reports of one entry, as reports of its directory. -/
theorem ofEntry {n : Name} (hn : slash ∉ n) (h : Reports (q ++ [n]) R L) :
    Reports q (fun p st => ∃ p', p = n :: p' ∧ R p' st) L where
  once := h.once
  mem_iff name st := by
    rw [h.mem_iff]
    constructor
    · rintro ⟨p, hp, hR⟩
      exact ⟨n :: p, by simpa using hp, p, rfl, hR⟩
    · rintro ⟨_, hp, p, rfl, hR⟩
      exact ⟨p, by simpa using hp, hR⟩
  valid p st hp := by
    obtain ⟨p', rfl, hR⟩ := hp
    intro m hm
    rcases List.mem_cons.mp hm with rfl | hm
    · exact hn
    · exact h.valid p' st hR m hm

/-- The reports of a directory from the reports of its entries, whose names differ. -/
theorem flatMap {ι : Type} (hq : ∀ n ∈ q, slash ∉ n) (items : List (Name × ι))
    (hkeys : (items.map Prod.fst).Nodup) (f : Name × ι → List Report)
    (S : Name × ι → Path → Status → Prop) (hvalid : ∀ x ∈ items, slash ∉ x.1)
    (hf : ∀ x ∈ items, Reports (q ++ [x.1]) (S x) (f x)) :
    Reports q (fun p st => ∃ x ∈ items, ∃ p', p = x.1 :: p' ∧ S x p' st) (items.flatMap f) := by
  -- the names differ, so no two entries report the same path
  induction items with
  | nil => exact nil (by simp)
  | cons x items ih =>
    rw [List.map_cons, List.nodup_cons] at hkeys
    have hx := (hf x (List.mem_cons_self ..)).ofEntry (hvalid x (List.mem_cons_self ..))
    have hrest := ih hkeys.2 (fun y hy => hvalid y (List.mem_cons_of_mem _ hy))
      fun y hy => hf y (List.mem_cons_of_mem _ hy)
    rw [List.flatMap_cons]
    refine (hx.append hq hrest ?_).congr ?_
    · rintro p st st' ⟨p', rfl, _⟩ ⟨y, hy, p'', heq, _⟩
      apply hkeys.1
      rw [(List.cons.inj heq).1]
      exact List.mem_map.mpr ⟨y, hy, rfl⟩
    · intro p st
      simp

end Reports

/-! ## Everything below a directory -/

/-- `listSubdirs` as a function of the listing. -/
theorem listEntries_eq_flatMap (es : List (Name × Tree)) (path : Str) (status : Status) :
    listEntries es path status = es.flatMap fun e => lonesome path e.1 e.2 status := by
  induction es with
  | nil => simp [listEntries]
  | cons e es ih =>
    obtain ⟨n, t⟩ := e
    simp [listEntries, lonesome, ih]

/-- In a well-formed tree a path below a directory is one below the entry of its first name. -/
theorem find_isSome_cons {t : Tree} (h : t.WF) {n : Name} {p : Path} :
    (t.find (n :: p)).isSome ↔ ∃ c, (n, c) ∈ t.entries ∧ (c.find p).isSome := by
  rw [Tree.find_cons]
  cases hn : t.entries.lookup n with
  | none =>
    refine iff_of_false (by simp) ?_
    rintro ⟨c, hc, _⟩
    rw [h.lookup_iff_mem.mpr hc] at hn
    cases hn
  | some c =>
    constructor
    · intro hp
      exact ⟨c, Tree.mem_of_lookup_eq_some hn, hp⟩
    · rintro ⟨c', hc', hp⟩
      rw [h.lookup_iff_mem.mpr hc'] at hn
      cases hn
      exact hp

/-- A file that is not a directory has nothing below it. -/
theorem Tree.WF.find_of_not_dir {t : Tree} (h : t.WF) (hdir : t.inode.fmt ≠ .dir) {p : Path}
    (hp : p ≠ []) : t.find p = none := by
  cases p with
  | nil => exact absurd rfl hp
  | cons n p =>
    cases hc : t.find (n :: p) with
    | none => rfl
    | some c => exact absurd (h.isDir_of_find_cons hc) hdir

/-- What `listSubdirs` and `lonesome` report of a tree, relative to it. -/
def Below (t : Tree) (status : Status) (p : Path) (st : Status) : Prop :=
  p ≠ [] ∧ (t.find p).isSome ∧ st = status

/-- The file itself and everything below it, from everything below it. -/
theorem lonesome_reports_of {q : Path} {n : Name} {t : Tree} (ht : t.WF) (status : Status)
    (hq : ∀ m ∈ q ++ [n], slash ∉ m)
    (h : t.inode.fmt = .dir →
      Reports (q ++ [n]) (Below t status) (listSubdirs t (pathName (q ++ [n])) status)) :
    Reports (q ++ [n]) (fun p st => (t.find p).isSome ∧ st = status)
      (lonesome (pathName q) n t status) := by
  -- there is something below a directory only
  have hbelow : Reports (q ++ [n]) (Below t status)
      (if t.isDir then listSubdirs t (pathName (q ++ [n])) status else []) := by
    by_cases hdir : t.inode.fmt = .dir
    · rw [if_pos (by simp [Tree.isDir, hdir])]
      exact h hdir
    · rw [if_neg (by simp [Tree.isDir, hdir])]
      refine Reports.nil ?_
      rintro p st ⟨hp, hsome, _⟩
      rw [ht.find_of_not_dir hdir hp] at hsome
      cases hsome
  unfold lonesome
  rw [← pathName_concat]
  refine (hbelow.cons hq (by simp [Below]) status).congr ?_
  intro p st
  by_cases hp : p = []
  · subst hp
    simp [Below]
  · simp [Below, hp]

/-- The walk of a subtree reports everything below it once, with the one status. -/
theorem listSubdirs_reports {q : Path} {t : Tree} (ht : t.WF) (status : Status)
    (hq : ∀ m ∈ q, slash ∉ m) :
    Reports q (Below t status) (listSubdirs t (pathName q) status) := by
  induction ht generalizing q with
  | @node i es hnames hes ih =>
    have hwf : (Tree.node i es).WF := .node hnames hes
    have hname : ∀ e ∈ es, slash ∉ e.1 := fun e he =>
      (hnames.valid e.1 (List.mem_map.mpr ⟨e, he, rfl⟩)).no_slash
    have hqn : ∀ e ∈ es, ∀ m ∈ q ++ [e.1], slash ∉ m := by
      intro e he m hm
      rcases List.mem_append.mp hm with hm | hm
      · exact hq m hm
      · rw [List.mem_singleton.mp hm]
        exact hname e he
    rw [listSubdirs, listEntries_eq_flatMap]
    refine (Reports.flatMap hq es hnames.distinct _
      (fun e p st => (e.2.find p).isSome ∧ st = status) hname ?_).congr ?_
    · intro e he
      exact lonesome_reports_of (hes e he) status (hqn e he) fun _ => ih e he (hqn e he)
    · intro p st
      -- a path below begins with one of the entries
      cases p with
      | nil => simp [Below]
      | cons n p =>
        simp only [Below, ne_eq, reduceCtorEq, not_false_eq_true, true_and, List.cons.injEq]
        rw [find_isSome_cons hwf]
        constructor
        · rintro ⟨⟨m, c⟩, hc, p', ⟨rfl, rfl⟩, hsome, hst⟩
          exact ⟨⟨c, hc, hsome⟩, hst⟩
        · rintro ⟨⟨c, hc, hsome⟩, hst⟩
          exact ⟨(n, c), hc, p, ⟨rfl, rfl⟩, hsome, hst⟩

theorem lonesome_reports {q : Path} {n : Name} {t : Tree} (ht : t.WF) (status : Status)
    (hq : ∀ m ∈ q ++ [n], slash ∉ m) :
    Reports (q ++ [n]) (fun p st => (t.find p).isSome ∧ st = status)
      (lonesome (pathName q) n t status) :=
  lonesome_reports_of ht status hq fun _ => listSubdirs_reports ht status hq

/-! ## Both sides -/

/-- What the comparison of two files and everything below them reports, relative to them. -/
def Differing (t1 t2 : Tree) (p : Path) (st : Status) : Prop :=
  diffStatus (t1.lookup p) (t2.lookup p) = some st

theorem lookup_nil (t : Tree) : t.lookup [] = some t.inode := by
  simp [Tree.lookup]

theorem lookup_isSome {t : Tree} {p : Path} : (t.lookup p).isSome = (t.find p).isSome := by
  simp [Tree.lookup]

theorem diffStatus_none_left {f : Option Inode} {st : Status} :
    diffStatus none f = some st ↔ f.isSome ∧ st = .CREATED := by
  cases f <;> simp [diffStatus, eq_comm]

theorem diffStatus_none_right {f : Option Inode} {st : Status} :
    diffStatus f none = some st ↔ f.isSome ∧ st = .DELETED := by
  cases f <;> simp [diffStatus, eq_comm]

/-- What the comparison reports of two files and everything below them, relative to them.

A file of both sides is looked at when it is on both devices; a file of one side only is
reported with everything below it. -/
def Walked (cmpData : CmpData) : Path → Tree → Tree → Status → Prop
  | [], t1, t2, st => cmpFiles t1.inode t2.inode ≠ .zero ∧ st = cmpFiles t1.inode t2.inode
  | n :: p, t1, t2, st =>
    match t1.entries.lookup n, t2.entries.lookup n with
    | none, none => False
    -- below a file whose type changed the device of an entry is not looked at
    | some c1, none =>
      (t2.isDir = true → c1.inode.dev = cmpData.dev1) ∧ (c1.find p).isSome ∧ st = .DELETED
    | none, some c2 =>
      (t1.isDir = true → c2.inode.dev = cmpData.dev2) ∧ (c2.find p).isSome ∧ st = .CREATED
    | some c1, some c2 =>
      c1.inode.dev = cmpData.dev1 ∧ c2.inode.dev = cmpData.dev2 ∧ Walked cmpData p c1 c2 st

/-- A file without entries has nothing of its own to walk. -/
theorem Tree.WF.entries_of_not_dir {t : Tree} (h : t.WF) (hdir : t.inode.fmt ≠ .dir) :
    t.entries = [] := by
  have hnames : t.entries.map Prod.fst = [] := by
    by_contra hne
    exact hdir ((All.root h).onlyDir hne)
  exact List.map_eq_nil_iff.mp hnames

/-- Below a directory that became something else, everything is deleted. -/
theorem walked_cons_of_not_dir_right {cmpData : CmpData} {t1 t2 : Tree} (h2 : t2.WF)
    (hdir : t2.inode.fmt ≠ .dir) {n : Name} {p : Path} {st : Status} :
    Walked cmpData (n :: p) t1 t2 st ↔ Below t1 .DELETED (n :: p) st := by
  have hright : t2.entries.lookup n = none := by simp [h2.entries_of_not_dir hdir]
  rw [Walked, hright]
  cases hleft : t1.entries.lookup n <;>
    simp [Below, Tree.find_cons, hleft, Tree.isDir, hdir]

/-- Below something that became a directory, everything is created. -/
theorem walked_cons_of_not_dir_left {cmpData : CmpData} {t1 t2 : Tree} (h1 : t1.WF)
    (hdir : t1.inode.fmt ≠ .dir) {n : Name} {p : Path} {st : Status} :
    Walked cmpData (n :: p) t1 t2 st ↔ Below t2 .CREATED (n :: p) st := by
  have hleft : t1.entries.lookup n = none := by simp [h1.entries_of_not_dir hdir]
  rw [Walked, hleft]
  cases hright : t2.entries.lookup n <;>
    simp [Below, Tree.find_cons, hright, Tree.isDir, hdir]

/-- The reports of `twosome`, from those of the worker for two directories. -/
theorem twosome_walks {cmpData : CmpData} {worker : Tree → Tree → Str → List Report}
    {q : Path} {n : Name} {t1 t2 : Tree} (h1 : t1.WF) (h2 : t2.WF)
    (hq : ∀ m ∈ q ++ [n], slash ∉ m)
    (hworker : t1.inode.fmt = .dir → t2.inode.fmt = .dir →
      Reports (q ++ [n]) (fun p st => p ≠ [] ∧ Walked cmpData p t1 t2 st)
        (worker t1 t2 (pathName (q ++ [n])))) :
    Reports (q ++ [n])
      (fun p st => t1.inode.dev = cmpData.dev1 ∧ t2.inode.dev = cmpData.dev2 ∧
        Walked cmpData p t1 t2 st)
      (twosome cmpData worker (pathName q) n t1 t2) := by
  unfold twosome
  by_cases hdev : t1.inode.dev = cmpData.dev1 ∧ t2.inode.dev = cmpData.dev2
  case neg =>
    -- on another device nothing is compared and no directory is entered
    have htype : Status.zero.type = false := rfl
    simp only [hdev, if_false, htype]
    refine Reports.congr (R := fun _ _ => False) ?_ fun p st => ?_
    · simpa using Reports.nil (q := q ++ [n]) (R := fun _ _ => False) (by simp)
    · exact iff_of_false id fun h => hdev ⟨h.1, h.2.1⟩
  obtain ⟨hd1, hd2⟩ := hdev
  simp only [hd1, hd2, and_self, if_true, true_and, ← pathName_concat]
  -- the reports of the files below, in each of the three modes
  have hbelow : Reports (q ++ [n]) (fun p st => p ≠ [] ∧ Walked cmpData p t1 t2 st)
      (if (cmpFiles t1.inode t2.inode).type = false then
        if t1.isDir = true then worker t1 t2 (pathName (q ++ [n])) else []
      else
        (if t1.isDir = true then listSubdirs t1 (pathName (q ++ [n])) .DELETED else []) ++
        if t2.isDir = true then listSubdirs t2 (pathName (q ++ [n])) .CREATED else []) := by
    by_cases hfmt : t1.inode.fmt = t2.inode.fmt
    · rw [if_pos (by simp [cmpFiles, hfmt])]
      by_cases hdir : t1.inode.fmt = .dir
      · rw [if_pos (by simp [Tree.isDir, hdir])]
        exact hworker hdir (hfmt ▸ hdir)
      · rw [if_neg (by simp [Tree.isDir, hdir])]
        refine Reports.nil ?_
        rintro (_ | ⟨m, p⟩) st ⟨hp, hwalk⟩
        · exact hp rfl
        · rw [Walked, h1.entries_of_not_dir hdir,
            h2.entries_of_not_dir fun h => hdir (hfmt.trans h)] at hwalk
          exact hwalk
    · rw [if_neg (by simp [cmpFiles, hfmt])]
      by_cases hdir1 : t1.inode.fmt = .dir
      · -- a directory became something else: all below it is deleted
        have hdir2 : t2.inode.fmt ≠ .dir := fun h => hfmt (hdir1.trans h.symm)
        rw [if_pos (by simp [Tree.isDir, hdir1]), if_neg (by simp [Tree.isDir, hdir2]),
          List.append_nil]
        refine (listSubdirs_reports h1 .DELETED hq).congr fun p st => ?_
        cases p with
        | nil => simp [Below]
        | cons m p => simp [walked_cons_of_not_dir_right h2 hdir2]
      · by_cases hdir2 : t2.inode.fmt = .dir
        · -- something else became a directory: all below it is created
          rw [if_neg (by simp [Tree.isDir, hdir1]), if_pos (by simp [Tree.isDir, hdir2]),
            List.nil_append]
          refine (listSubdirs_reports h2 .CREATED hq).congr fun p st => ?_
          cases p with
          | nil => simp [Below]
          | cons m p => simp [walked_cons_of_not_dir_left h1 hdir1]
        · rw [if_neg (by simp [Tree.isDir, hdir1]), if_neg (by simp [Tree.isDir, hdir2])]
          refine Reports.nil ?_
          rintro (_ | ⟨m, p⟩) st ⟨hp, hwalk⟩
          · exact hp rfl
          · rw [Walked, h1.entries_of_not_dir hdir1, h2.entries_of_not_dir hdir2] at hwalk
            exact hwalk
  by_cases hzero : cmpFiles t1.inode t2.inode = .zero
  · rw [if_neg (by simp [hzero]), List.nil_append]
    refine hbelow.congr fun p st => ?_
    refine and_iff_right_of_imp ?_
    rintro hwalk rfl
    exact hwalk.1 hzero
  · rw [if_pos hzero, List.singleton_append]
    refine (hbelow.cons hq (by simp) _).congr fun p st => ?_
    by_cases hp : p = []
    · subst hp
      simp [Walked, hzero]
    · simp [hp]

/-! ## Whole directories -/

/-- The filter leaves out the directory of the snapshots, at the top only. -/
theorem filter_iff {q : Path} {n : Name} (hq : ∀ m ∈ q ++ [n], slash ∉ m) :
    filter (pathName q ++ slash :: n) = true ↔ q = [] ∧ n = str ".snapshots" := by
  have htext : str "/.snapshots" = pathName [str ".snapshots"] := by decide
  have hclean : ∀ m ∈ [str ".snapshots"], slash ∉ m := by decide
  rw [filter, decide_eq_true_iff, ← pathName_concat, htext]
  constructor
  · intro h
    have := pathName_injective hq hclean h
    cases q with
    | nil => exact ⟨rfl, by simpa using this⟩
    | cons m q => simp at this
  · rintro ⟨rfl, rfl⟩
    rfl

theorem lookup_cons_of_mem {t c : Tree} (h : t.WF) {n : Name} {p : Path}
    (hc : (n, c) ∈ t.entries) : t.lookup (n :: p) = c.lookup p := by
  simp [Tree.lookup, Tree.find_cons, h.lookup_iff_mem.mpr hc]

/-- What the comparison of two directories reports, relative to them; `q` is their path. -/
def WalkedBelow (cmpData : CmpData) (q : Path) (t1 t2 : Tree) (p : Path) (st : Status) : Prop :=
  p ≠ [] ∧ ¬(q = [] ∧ Ignored p) ∧ Walked cmpData p t1 t2 st

/-- The walk of two directories reports once, and with its status, every path that it comes to and
that differs. -/
theorem cmpDirsWorker_walks {cmpData : CmpData} {fuel : Nat} {q : Path} {t1 t2 : Tree}
    (hfuel : t1.height < fuel) (h1 : t1.WF) (h2 : t2.WF) (hdir1 : t1.inode.fmt = .dir)
    (hdir2 : t2.inode.fmt = .dir) (hq : ∀ m ∈ q, slash ∉ m) :
    Reports q (WalkedBelow cmpData q t1 t2) (cmpDirsWorker cmpData fuel t1 t2 (pathName q)) := by
  -- the induction is on the directory levels below the first tree
  induction fuel generalizing q t1 t2 with
  | zero => exact absurd hfuel (Nat.not_lt_zero _)
  | succ fuel ih =>
    set l := keepEntries (pathName q) (sortEntries t1.entries) with hl
    set r := keepEntries (pathName q) (sortEntries t2.entries) with hr
    have hlSorted : KeysSorted l :=
      keepEntries_keysSorted (sortEntries_keysSorted (Tree.All.root h1).distinct)
    have hrSorted : KeysSorted r :=
      keepEntries_keysSorted (sortEntries_keysSorted (Tree.All.root h2).distinct)
    have hname : ∀ {t c : Tree} {n : Name}, t.WF → (n, c) ∈ t.entries →
        ∀ m ∈ q ++ [n], slash ∉ m := by
      intro t c n ht hc m hm
      rcases List.mem_append.mp hm with hm | hm
      · exact hq m hm
      · rw [List.mem_singleton.mp hm]
        exact ((Tree.All.root ht).valid n (List.mem_map.mpr ⟨_, hc, rfl⟩)).no_slash
    -- an entry is compared iff it is there and is not the ignored one
    have hmem : ∀ {t c : Tree} {n : Name}, t.WF →
        ((n, c) ∈ keepEntries (pathName q) (sortEntries t.entries) ↔
          (n, c) ∈ t.entries ∧ ¬(q = [] ∧ n = str ".snapshots")) := by
      intro t c n ht
      rw [mem_keepEntries, mem_sortEntries]
      refine and_congr_right fun hc => ?_
      rw [← filter_iff (hname ht hc), Bool.not_eq_true]
    rw [cmpDirsWorker, cmpDirsLoop_eq]
    -- the reports of one visit, relative to the visited name
    refine (Reports.flatMap hq (mergeJoin l r) ?_ _
      (fun x p st => match x.2 with
        | .left t => t.inode.dev = cmpData.dev1 ∧ (t.find p).isSome ∧ st = .DELETED
        | .right t => t.inode.dev = cmpData.dev2 ∧ (t.find p).isSome ∧ st = .CREATED
        | .both c1 c2 => c1.inode.dev = cmpData.dev1 ∧ c2.inode.dev = cmpData.dev2 ∧
            Walked cmpData p c1 c2 st) ?_ ?_).congr ?_
    · exact List.pairwise_map.mpr
        ((mergeJoin_keys_pairwise l r hlSorted hrSorted).imp fun hlt => ne_of_lt hlt)
    · rintro ⟨n, v⟩ hx
      rcases mergeJoin_key_mem l r hx with ⟨c, hc⟩ | ⟨c, hc⟩
      · exact hname h1 ((hmem h1).mp hc).1 n (by simp)
      · exact hname h2 ((hmem h2).mp hc).1 n (by simp)
    · rintro ⟨n, v⟩ hx
      have hsound := mergeJoin_sound l r hx
      cases v with
      | left c =>
        obtain ⟨hc, _⟩ := (hmem h1).mp hsound
        exact (lonesome_reports (h1.child hc) .DELETED (hname h1 hc)).guard _
      | right c =>
        obtain ⟨hc, _⟩ := (hmem h2).mp hsound
        exact (lonesome_reports (h2.child hc) .CREATED (hname h2 hc)).guard _
      | both c1 c2 =>
        obtain ⟨hc1, _⟩ := (hmem h1).mp hsound.1
        obtain ⟨hc2, _⟩ := (hmem h2).mp hsound.2
        refine twosome_walks (h1.child hc1) (h2.child hc2) (hname h1 hc1) fun hfmt1 hfmt2 => ?_
        have hlevel : c1.height < fuel := by
          have : c1.height < t1.height := by
            cases t1
            exact Tree.height_lt_of_mem hc1
          omega
        refine (ih hlevel (h1.child hc1) (h2.child hc2) hfmt1 hfmt2 (hname h1 hc1)).congr ?_
        intro p st
        simp [WalkedBelow]
    · intro p st
      cases p with
      | nil => simp [WalkedBelow]
      | cons n p =>
        have hd1 : t1.isDir = true := by simp [Tree.isDir, hdir1]
        have hd2 : t2.isDir = true := by simp [Tree.isDir, hdir2]
        have hnone : ∀ {t : Tree}, t.WF → (∀ c, (n, c) ∉ t.entries) →
            t.entries.lookup n = none := fun ht hno =>
          Option.eq_none_iff_forall_not_mem.mpr fun c hc => hno c (ht.lookup_iff_mem.mp hc)
        simp only [WalkedBelow, Walked, hd1, hd2, true_implies, Ignored, ne_eq, reduceCtorEq,
          not_false_eq_true, true_and, List.head?_cons, Option.some.injEq, List.cons.injEq]
        constructor
        · rintro ⟨⟨m, v⟩, hx, p', ⟨rfl, rfl⟩, hv⟩
          cases v with
          | left c =>
            obtain ⟨hc, hnot⟩ := (mem_mergeJoin_left hlSorted hrSorted).mp hx
            obtain ⟨hc, hign⟩ := (hmem h1).mp hc
            rw [h1.lookup_iff_mem.mpr hc,
              hnone h2 fun c' hc' => hnot c' ((hmem h2).mpr ⟨hc', hign⟩)]
            exact ⟨hign, hv⟩
          | right c =>
            obtain ⟨hc, hnot⟩ := (mem_mergeJoin_right hlSorted hrSorted).mp hx
            obtain ⟨hc, hign⟩ := (hmem h2).mp hc
            rw [h2.lookup_iff_mem.mpr hc,
              hnone h1 fun c' hc' => hnot c' ((hmem h1).mpr ⟨hc', hign⟩)]
            exact ⟨hign, hv⟩
          | both c1 c2 =>
            obtain ⟨hc1, hc2⟩ := (mem_mergeJoin_both hlSorted hrSorted).mp hx
            obtain ⟨hc1, hign⟩ := (hmem h1).mp hc1
            obtain ⟨hc2, _⟩ := (hmem h2).mp hc2
            rw [h1.lookup_iff_mem.mpr hc1, h2.lookup_iff_mem.mpr hc2]
            exact ⟨hign, hv⟩
        · rintro ⟨hign, hwalk⟩
          cases hleft : t1.entries.lookup n with
          | none =>
            cases hright : t2.entries.lookup n with
            | none =>
              rw [hleft, hright] at hwalk
              exact hwalk.elim
            | some c2 =>
              rw [hleft, hright] at hwalk
              have hmem2 := h2.lookup_iff_mem.mp hright
              refine ⟨(n, .right c2), (mem_mergeJoin_right hlSorted hrSorted).mpr
                ⟨(hmem h2).mpr ⟨hmem2, hign⟩, fun c hc => ?_⟩, p, ⟨rfl, rfl⟩, hwalk⟩
              rw [h1.lookup_iff_mem.mpr ((hmem h1).mp hc).1] at hleft
              cases hleft
          | some c1 =>
            have hmem1 := h1.lookup_iff_mem.mp hleft
            cases hright : t2.entries.lookup n with
            | none =>
              rw [hleft, hright] at hwalk
              refine ⟨(n, .left c1), (mem_mergeJoin_left hlSorted hrSorted).mpr
                ⟨(hmem h1).mpr ⟨hmem1, hign⟩, fun c hc => ?_⟩, p, ⟨rfl, rfl⟩, hwalk⟩
              rw [h2.lookup_iff_mem.mpr ((hmem h2).mp hc).1] at hright
              cases hright
            | some c2 =>
              rw [hleft, hright] at hwalk
              have hmem2 := h2.lookup_iff_mem.mp hright
              exact ⟨(n, .both c1 c2), (mem_mergeJoin_both hlSorted hrSorted).mpr
                ⟨(hmem h1).mpr ⟨hmem1, hign⟩, (hmem h2).mpr ⟨hmem2, hign⟩⟩,
                p, ⟨rfl, rfl⟩, hwalk⟩

/-- The calls of the callback, for any two directories. -/
theorem cmpDirs_walks (t1 t2 : DirTree) :
    Reports [] (WalkedBelow ⟨t1.root.inode.dev, t2.root.inode.dev⟩ [] t1.root t2.root)
      (cmpDirs t1.root t2.root) :=
  cmpDirsWorker_walks (q := []) (Nat.lt_succ_self _) t1.wf t2.wf t1.isDir t2.isDir (by simp)

/-! ## Trees on one device -/

/-- Without mount points the comparison walks exactly the differing paths. -/
theorem walked_iff_differing {cmpData : CmpData} {p : Path} {t1 t2 : Tree} {st : Status}
    (hd1 : t1.All fun i _ => i.dev = cmpData.dev1)
    (hd2 : t2.All fun i _ => i.dev = cmpData.dev2) :
    Walked cmpData p t1 t2 st ↔ Differing t1 t2 p st := by
  -- along the path: the devices never differ
  induction p generalizing t1 t2 with
  | nil =>
    rw [Walked, Differing, lookup_nil, lookup_nil, diffStatus]
    by_cases hzero : cmpFiles t1.inode t2.inode = .zero <;> simp [hzero, eq_comm]
  | cons n p ih =>
    rw [Walked, Differing, Tree.lookup, Tree.lookup, Tree.find_cons, Tree.find_cons]
    cases hleft : t1.entries.lookup n with
    | none =>
      cases hright : t2.entries.lookup n with
      | none => simp [diffStatus]
      | some c2 =>
        have hdev : c2.inode.dev = cmpData.dev2 :=
          (hd2.child (Tree.mem_of_lookup_eq_some hright)).root
        simp [diffStatus_none_left, hdev]
    | some c1 =>
      have hmem1 := hd1.child (Tree.mem_of_lookup_eq_some hleft)
      cases hright : t2.entries.lookup n with
      | none => simp [diffStatus_none_right, hmem1.root]
      | some c2 =>
        have hmem2 := hd2.child (Tree.mem_of_lookup_eq_some hright)
        simp only [hmem1.root, hmem2.root, true_and]
        exact ih hmem1 hmem2

/-- The calls of the callback, for two trees without mount points. -/
theorem cmpDirs_reports (t1 t2 : SnapshotTree) :
    Reports [] (Differs t1.root t2.root) (cmpDirs t1.root t2.root) := by
  refine (cmpDirs_walks t1.toDirTree t2.toDirTree).congr fun p st => ?_
  rw [WalkedBelow, walked_iff_differing t1.oneDev t2.oneDev]
  simp [Differs, Differing]

/-- `cmpDirs` calls the callback exactly once for each differing path, with its status,
and for no other path. -/
theorem cmpDirs_exact (t1 t2 : SnapshotTree) :
    ((cmpDirs t1.root t2.root).map Prod.fst).Nodup ∧
    (∀ name st, (name, st) ∈ cmpDirs t1.root t2.root ↔
      ∃ p, name = pathName p ∧ Differs t1.root t2.root p st) ∧
    (∀ p p' st st', Differs t1.root t2.root p st → Differs t1.root t2.root p' st' →
      pathName p = pathName p' → p = p') := by
  have h := cmpDirs_reports t1 t2
  refine ⟨h.once, h.mem_iff, ?_⟩
  intro p p' st st' hp hp' heq
  exact pathName_injective (h.valid p st hp) (h.valid p' st' hp') heq

end Snapper
