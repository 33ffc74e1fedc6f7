import Snapper.Base.Number
import Snapper.Comparison.Cached
import Snapper.General.Keyed
import Snapper.General.Run
import Snapper.Server.Snapshots

/-!
# File lists and reused numbers

Numbers of deleted snapshots are used again, and the file list of two snapshots is named
after their numbers.  Deleting a snapshot therefore removes the file lists it is part of:
those in its own info directory, and those named after it in the other ones.

Every snapshot here has, besides its number, the time of its creation, which is never used
again, and every file list the times of the two snapshots it was computed from.  The program
keeps neither.

## Main results

- `Fresh.step`: every call keeps the file lists those of the snapshots in the list
- `filelists_fresh`: so after any calls what `load` finds was made of the snapshots that
  have the two numbers now
-/

namespace Snapper

open General

/-! ## Snapshots and their info directories -/

/-- A snapshot of the list, with the time of its creation. -/
structure Kept where
  num : UInt32
  dir : DirTree
  born : Nat

/-- What a comparison reads of it. -/
def Kept.compared (s : Kept) : ComparedSnapshot := ⟨s.num.toNat, s.dir⟩

/-- The snapshots of a config other than the current one, and the info directories. -/
structure Store where
  entries : List Kept := []
  dirs : List UInt32 := []
  infos : Infos := fun _ => none
  /-- The number of snapshots created so far -/
  clock : Nat := 0
  /-- The times of the two snapshots a file list was made of, the smaller number first -/
  madeOf : Nat × Str → Option (Nat × Nat) := fun _ => none

namespace Store

/-- `Snapshots::find` -/
def find (num : UInt32) (store : Store) : Option Kept :=
  store.entries.find? (·.num = num)

/-- What a comparison finds under a number: `system` is the tree of the current snapshot. -/
def compared (num : UInt32) (system : DirTree) (store : Store) : Option ComparedSnapshot :=
  if num = 0 then some ⟨0, system⟩ else (store.find num).map Kept.compared

/-- `Snapshots::nextNumber`: the first number after the last one that has no directory. -/
def nextNumber (store : Store) : Option UInt32 :=
  let last := (store.entries.getLast?.map Kept.num).getD 0
  (Server.candidates last (store.dirs.length + 1)).find? (· ∉ store.dirs)

/-- A new snapshot with its `info.xml` -/
def add (num : UInt32) (dir : DirTree) (info : Str) (store : Store) : Store :=
  { store with
    entries := store.entries ++ [⟨num, dir, store.clock⟩]
    infos := Function.update store.infos (num.toNat, infoName) (some info)
    clock := store.clock + 1 }

/-- `createSingleSnapshot`, `createPreSnapshot` and `createPostSnapshot`; `info` is what
`flushInfo` writes. -/
def create (dir : DirTree) (info : Str) (store : Store) : Store :=
  match store.nextNumber with
  | none => store
  | some num =>
    let store := { store with dirs := store.dirs ++ [num] }
    -- `createFilesystemSnapshot` refuses the number of the current snapshot
    if num = 0 then store
    else store.add num dir info

/-- What `deleteSnapshot` leaves in the info directories. -/
def removeFiles (num : UInt32) (entries : List Kept) (infos : Infos) : Infos := fun key =>
  -- the files of the snapshot itself
  if key.1 = num.toNat ∧ (key.2 = infoName ∨ isFilelistFile key.2) then none
  -- the file lists of the other ones
  else if key.2 = filelistName num.toNat ∧ ∃ s ∈ entries, s.num.toNat = key.1 then none
  else infos key

/-- Files, directory and entry of a snapshot are removed. -/
def remove (num : UInt32) (store : Store) : Store :=
  { store with
    infos := removeFiles num store.entries store.infos
    dirs := store.dirs.filter (· ≠ num)
    entries := store.entries.eraseP (·.num = num) }

/-- `Snapshots::deleteSnapshot`; the current snapshot and a number that is not in the list are
illegal. -/
def delete (num : UInt32) (store : Store) : Store :=
  match store.find num with
  | none => store
  | some _ => store.remove num

/-- The times that belong to a new file list. -/
def birthsOf (num1 num2 : UInt32) (store : Store) : Option (Nat × Nat) := do
  let s ← store.find (min num1 num2)
  let t ← store.find (max num1 num2)
  pure (s.born, t.born)

/-- A `Comparison` of two snapshots of the list, in this order. -/
def compare (fnmatch : Str → Str → Bool) (ignorePatterns : List Str) (num1 num2 : UInt32)
    (system : DirTree) (store : Store) : Store :=
  match store.compared num1 system, store.compared num2 system with
  | some snapshot1, some snapshot2 =>
    match newComparison fnmatch ignorePatterns snapshot1 snapshot2 store.infos with
    | .error _ => store
    | .ok (_, infos) =>
      let key := filelistKey num1.toNat num2.toNat
      -- the file list is new
      if store.infos key = none ∧ infos key ≠ none then
        { store with
          infos := infos
          madeOf := Function.update store.madeOf key (store.birthsOf num1 num2) }
      else { store with infos := infos }
  | _, _ => store

end Store

/-- The calls that create snapshots, compare them and delete them. -/
inductive StoreCall where
  | create (dir : DirTree) (info : Str)
  | compare (num1 num2 : UInt32) (system : DirTree)
  | delete (num : UInt32)

/-- One call. -/
def Store.step (fnmatch : Str → Str → Bool) (ignorePatterns : List Str) (store : Store) :
    StoreCall → Store
  | .create dir info => store.create dir info
  | .compare num1 num2 system => store.compare fnmatch ignorePatterns num1 num2 system
  | .delete num => store.delete num

/-! ## Names of file lists -/

theorem filelistName_eq (num : Nat) :
    filelistName num = str "filelist-" ++ decString num ++ str ".txt" := rfl

theorem filelistName_injective {a b : Nat} (h : filelistName a = filelistName b) : a = b := by
  rw [filelistName_eq, filelistName_eq, List.append_assoc, List.append_assoc] at h
  exact decString_injective (List.append_cancel_right (List.append_cancel_left h))

theorem isFilelistFile_filelistName (num : Nat) :
    isFilelistFile (filelistName num) = true := by
  rw [filelistName_eq, List.append_assoc, isFilelistFile, List.drop_left]
  simp [List.prefix_append, List.suffix_append]

theorem filelistKey_of_lt {a b : Nat} (h : a < b) : filelistKey a b = (b, filelistName a) := by
  simp [filelistKey, Nat.not_lt_of_gt h]

/-! ## The invariant -/

/-- The text that a comparison of the two snapshots saves, in one direction or the other. -/
def SavedText (s t : Kept) (text : Str) : Prop :=
  ∃ x y : Kept, ((x = s ∧ y = t) ∨ (x = t ∧ y = s)) ∧
    text = saveText (x.num.toNat > y.num.toNat) (create x.compared y.compared)

theorem SavedText.symm {s t : Kept} {text : Str} (h : SavedText s t text) : SavedText t s text := by
  obtain ⟨x, y, hxy, htext⟩ := h
  exact ⟨x, y, hxy.symm, htext⟩

/-- The file list `filelist-a.txt` in the info directory of `b` was computed from the snapshots
that have the numbers `a` and `b`. -/
def Store.Current (store : Store) (a b : Nat) (text : Str) : Prop :=
  ∃ s ∈ store.entries, ∃ t ∈ store.entries, s.num.toNat = a ∧ t.num.toNat = b ∧ a < b ∧
    store.madeOf (b, filelistName a) = some (s.born, t.born) ∧ SavedText s t text

/-- What the calls keep. -/
structure Fresh (store : Store) : Prop where
  /-- A snapshot has a directory of its own. -/
  nums : (store.entries.map Kept.num).Nodup
  nonzero : ∀ s ∈ store.entries, s.num ≠ 0
  dirs : ∀ s ∈ store.entries, s.num ∈ store.dirs
  /-- Times are never used again. -/
  births : (store.entries.map Kept.born).Nodup
  past : ∀ s ∈ store.entries, s.born < store.clock
  /-- The files are those of the snapshots in the list. -/
  owner : ∀ b name text, store.infos (b, name) = some text → ∃ t ∈ store.entries, t.num.toNat = b
  current : ∀ b name text, store.infos (b, name) = some text →
    name = infoName ∨ ∃ a, name = filelistName a ∧ store.Current a b text

variable {store : Store} {fnmatch : Str → Str → Bool} {ignorePatterns : List Str}

/-- A store without snapshots has no file list that could be stale. -/
theorem Fresh.empty : Fresh {} where
  nums := by simp
  nonzero := by simp
  dirs := by simp
  births := by simp
  past := by simp
  owner := by simp
  current := by simp

/-- Two snapshots with one number are the same. -/
theorem Fresh.eq_of_num (h : Fresh store) {s t : Kept} (hs : s ∈ store.entries)
    (ht : t ∈ store.entries) (hnum : s.num = t.num) : s = t :=
  List.inj_on_of_nodup_map h.nums hs ht hnum

/-- Numbers stand once in the store, so a snapshot is found under its own. -/
theorem Fresh.find_eq (h : Fresh store) {s : Kept} (hs : s ∈ store.entries) :
    store.find s.num = some s := by
  obtain ⟨t, ht⟩ : ∃ t, store.find s.num = some t := by
    rw [← Option.isSome_iff_exists, Store.find, List.find?_isSome]
    exact ⟨s, hs, by simp⟩
  have hmem := List.mem_of_find?_eq_some ht
  have hnum : t.num = s.num := by simpa using List.find?_some ht
  rw [ht, h.eq_of_num hmem hs hnum]

theorem find_mem {num : UInt32} {s : Kept} (h : store.find num = some s) :
    s ∈ store.entries ∧ s.num = num :=
  ⟨List.mem_of_find?_eq_some h, by simpa using List.find?_some h⟩

/-! ## Creation -/

/-- The number of a new snapshot has no directory. -/
theorem nextNumber_not_mem {num : UInt32} (h : store.nextNumber = some num) :
    num ∉ store.dirs := by
  simpa using List.find?_some h

theorem Store.Current.mono {store' : Store} {a b : Nat} {text : Str}
    (h : store.Current a b text) (hentries : ∀ s ∈ store.entries, s ∈ store'.entries)
    (hmade : store'.madeOf = store.madeOf) : store'.Current a b text := by
  obtain ⟨s, hs, t, ht, ha, hb, hlt, hborn, htext⟩ := h
  rw [← hmade] at hborn
  exact ⟨s, hentries s hs, t, hentries t ht, ha, hb, hlt, hborn, htext⟩

/-- A new number: the snapshot is put at the end of the list. -/
theorem Fresh.add (h : Fresh store) {num : UInt32} (dir : DirTree) (info : Str)
    (hdir : num ∈ store.dirs) (hnew : ∀ s ∈ store.entries, s.num ≠ num) (hzero : num ≠ 0) :
    Fresh (store.add num dir info) := by
  have hmem : ∀ {s}, s ∈ (store.add num dir info).entries ↔
      s ∈ store.entries ∨ s = ⟨num, dir, store.clock⟩ := by simp [Store.add]
  have hold : ∀ {key text}, (store.add num dir info).infos key = some text →
      key = (num.toNat, infoName) ∨ store.infos key = some text := by
    intro key text htext
    obtain rfl | hne := eq_or_ne key (num.toNat, infoName)
    · exact Or.inl rfl
    · exact Or.inr (by simpa [Store.add, hne] using htext)
  refine ⟨?_, ?_, ?_, ?_, ?_, ?_, ?_⟩
  · simpa [Store.add, List.nodup_append, h.nums] using hnew
  · intro s hs
    obtain hs | rfl := hmem.mp hs
    · exact h.nonzero s hs
    · exact hzero
  · intro s hs
    obtain hs | rfl := hmem.mp hs
    · exact h.dirs s hs
    · exact hdir
  -- the clock is past every birth, so the new one is another
  · have hpast : ∀ s ∈ store.entries, s.born ≠ store.clock :=
      fun s hs => Nat.ne_of_lt (h.past s hs)
    simpa [Store.add, List.nodup_append, h.births] using hpast
  · intro s hs
    obtain hs | rfl := hmem.mp hs
    · exact Nat.lt_succ_of_lt (h.past s hs)
    · exact Nat.lt_succ_self _
  · intro b name text htext
    obtain hkey | htext := hold htext
    · cases hkey
      exact ⟨_, hmem.mpr (Or.inr rfl), rfl⟩
    · obtain ⟨t, ht, hb⟩ := h.owner b name text htext
      exact ⟨t, hmem.mpr (Or.inl ht), hb⟩
  · intro b name text htext
    obtain hkey | htext := hold htext
    · cases hkey
      exact Or.inl rfl
    · refine (h.current b name text htext).imp_right fun ⟨a, hname, hcur⟩ => ⟨a, hname, ?_⟩
      exact hcur.mono (fun s hs => hmem.mpr (Or.inl hs)) rfl

/-- A new snapshot has an unused number, so that nothing that is there can pass for a file list of
it. -/
theorem Fresh.create (h : Fresh store) (dir : DirTree) (info : Str) :
    Fresh (store.create dir info) := by
  unfold Store.create
  cases hnext : store.nextNumber with
  | none => exact h
  | some num =>
    have hfree := nextNumber_not_mem hnext
    have hnew : ∀ s ∈ store.entries, s.num ≠ num := fun s hs heq => hfree (heq ▸ h.dirs s hs)
    have hmkdir : Fresh { store with dirs := store.dirs ++ [num] } :=
      { h with dirs := fun s hs => List.mem_append_left _ (h.dirs s hs) }
    dsimp only
    split
    · exact hmkdir
    next hzero => exact hmkdir.add dir info (by simp) hnew hzero

/-! ## Deletion -/

/-- A file that a deletion leaves was there before, and is neither in the directory of the number
under a name that goes nor named for it in the directory of another snapshot. -/
theorem removeFiles_some {num : UInt32} {entries : List Kept} {infos : Infos} {key : Nat × Str}
    {text : Str} (h : Store.removeFiles num entries infos key = some text) :
    infos key = some text ∧
      ¬ (key.1 = num.toNat ∧ (key.2 = infoName ∨ isFilelistFile key.2)) ∧
      ¬ (key.2 = filelistName num.toNat ∧ ∃ s ∈ entries, s.num.toNat = key.1) := by
  unfold Store.removeFiles at h
  split at h
  · cases h
  next hown =>
    split at h
    · cases h
    next hother => exact ⟨h, hown, hother⟩

/-- The other snapshots stay in the list. -/
theorem Fresh.mem_remove (h : Fresh store) {num : UInt32} {s : Kept} :
    s ∈ (store.remove num).entries ↔ s ∈ store.entries ∧ s.num ≠ num :=
  mem_eraseP_iff h.nums

/-- A deletion takes with it all file lists of the number, its own and those that others have of
it. -/
theorem Fresh.delete (h : Fresh store) (num : UInt32) : Fresh (store.delete num) := by
  unfold Store.delete
  cases hfind : store.find num with
  | none => exact h
  | some _ =>
    show Fresh (store.remove num)
    have hsub : (store.remove num).entries.Sublist store.entries := List.eraseP_sublist
    refine ⟨?_, ?_, ?_, ?_, ?_, ?_, ?_⟩
    · exact h.nums.sublist (hsub.map _)
    · exact fun s hs => h.nonzero s (hsub.subset hs)
    · intro s hs
      have hs := h.mem_remove.mp hs
      exact List.mem_filter.mpr ⟨h.dirs s hs.1, by simpa using hs.2⟩
    · exact h.births.sublist (hsub.map _)
    · exact fun s hs => h.past s (hsub.subset hs)
    · intro b name text htext
      obtain ⟨hkept, hown, -⟩ := removeFiles_some htext
      obtain ⟨t, ht, rfl⟩ := h.owner b name text hkept
      refine ⟨t, h.mem_remove.mpr ⟨ht, ?_⟩, rfl⟩
      -- the snapshot itself has no other files
      rintro rfl
      apply hown
      obtain hname | ⟨a, rfl, -⟩ := h.current t.num.toNat name text hkept
      · exact ⟨rfl, Or.inl hname⟩
      · exact ⟨rfl, Or.inr (isFilelistFile_filelistName a)⟩
    · intro b name text htext
      obtain ⟨htext, hown, hother⟩ := removeFiles_some htext
      refine (h.current b name text htext).imp_right ?_
      rintro ⟨a, rfl, s, hs, t, ht, ha, hb, hlt, hborn, hsaved⟩
      -- neither of the two is the deleted snapshot
      have hs' : s.num ≠ num := by
        rintro rfl
        exact hother ⟨by rw [ha], t, ht, hb⟩
      have ht' : t.num ≠ num := by
        rintro rfl
        exact hown ⟨hb.symm, Or.inr (isFilelistFile_filelistName a)⟩
      exact ⟨a, rfl, s, h.mem_remove.mpr ⟨hs, hs'⟩, t, h.mem_remove.mpr ⟨ht, ht'⟩, ha, hb, hlt,
        hborn, hsaved⟩

/-! ## Comparison -/

/-- A comparison leaves the info directories as they are, or saves the file list that two
snapshots other than the current one lack. -/
theorem newComparison_infos {snapshot1 snapshot2 : ComparedSnapshot} {infos infos' : Infos}
    {files : List File}
    (h : newComparison fnmatch ignorePatterns snapshot1 snapshot2 infos = .ok (files, infos')) :
    infos' = infos ∨
      snapshot1.num ≠ snapshot2.num ∧ snapshot1.num ≠ 0 ∧ snapshot2.num ≠ 0 ∧
        infos (filelistKey snapshot1.num snapshot2.num) = none ∧
        infos' = Function.update infos (filelistKey snapshot1.num snapshot2.num)
          (some (saveText (snapshot1.num > snapshot2.num)
            (Snapper.create snapshot1 snapshot2))) := by
  unfold newComparison at h
  by_cases hsame : snapshot1.num = snapshot2.num
  · simp [hsame, bind, Except.bind] at h
  by_cases hcur : isCurrent snapshot1.num || isCurrent snapshot2.num
  · -- a comparison with the current system is not saved
    simp [hsame, hcur, pure, Except.pure] at h
    exact Or.inl h.2.symm
  have hzero : snapshot1.num ≠ 0 ∧ snapshot2.num ≠ 0 := by simpa [isCurrent] using hcur
  cases hinfo : infos (filelistKey snapshot1.num snapshot2.num) with
  | some text =>
    simp [hsame, hcur, load, hinfo, bind, Except.bind, pure, Except.pure] at h
    exact Or.inl h.2.symm
  | none =>
    simp [hsame, hcur, load, save, hinfo, bind, Except.bind, pure, Except.pure] at h
    exact Or.inr ⟨hsame, hzero.1, hzero.2, rfl, h.2.symm⟩

/-- A snapshot with a number other than that of the current one is in the list. -/
theorem compared_mem {num : UInt32} {system : DirTree} {snapshot : ComparedSnapshot}
    (h : store.compared num system = some snapshot) :
    snapshot.num = num.toNat ∧
      (snapshot.num ≠ 0 → ∃ s ∈ store.entries, s.num = num ∧ s.compared = snapshot) := by
  unfold Store.compared at h
  split at h
  next hzero =>
    cases h
    exact ⟨by rw [hzero]; rfl, fun hne => absurd rfl hne⟩
  · obtain ⟨s, hs, rfl⟩ := Option.map_eq_some_iff.mp h
    obtain ⟨hmem, rfl⟩ := find_mem hs
    exact ⟨rfl, fun _ => ⟨s, hmem, rfl, rfl⟩⟩

/-- The file list of two snapshots of the list is saved. -/
theorem Fresh.save (h : Fresh store) {x y : Kept} (hx : x ∈ store.entries)
    (hy : y ∈ store.entries) (hne : x.num ≠ y.num) :
    Fresh { store with
      infos := Function.update store.infos (filelistKey x.num.toNat y.num.toNat)
        (some (saveText (x.num.toNat > y.num.toNat) (Snapper.create x.compared y.compared)))
      madeOf := Function.update store.madeOf (filelistKey x.num.toNat y.num.toNat)
        (store.birthsOf x.num y.num) } := by
  -- the smaller and the larger of the two
  obtain ⟨s, t, hs, ht, hlt, hst, hkey, hbirths⟩ : ∃ s t : Kept, s ∈ store.entries ∧
      t ∈ store.entries ∧ s.num.toNat < t.num.toNat ∧ ((x = s ∧ y = t) ∨ (x = t ∧ y = s)) ∧
      filelistKey x.num.toNat y.num.toNat = (t.num.toNat, filelistName s.num.toNat) ∧
      store.birthsOf x.num y.num = some (s.born, t.born) := by
    have hnat : x.num.toNat ≠ y.num.toNat := fun heq => hne (UInt32.toNat_inj.mp heq)
    obtain hlt | hlt := Nat.lt_or_gt_of_ne hnat
    · refine ⟨x, y, hx, hy, hlt, Or.inl ⟨rfl, rfl⟩, ?_, ?_⟩
      · exact filelistKey_of_lt hlt
      · have hle : x.num ≤ y.num := UInt32.le_iff_toNat_le.mpr (Nat.le_of_lt hlt)
        simp [Store.birthsOf, min_eq_left hle, max_eq_right hle, h.find_eq hx, h.find_eq hy]
    · refine ⟨y, x, hy, hx, hlt, Or.inr ⟨rfl, rfl⟩, ?_, ?_⟩
      · rw [filelistKey_comm, filelistKey_of_lt hlt]
      · have hle : y.num ≤ x.num := UInt32.le_iff_toNat_le.mpr (Nat.le_of_lt hlt)
        simp [Store.birthsOf, min_eq_right hle, max_eq_left hle, h.find_eq hx, h.find_eq hy]
  rw [hkey, hbirths]
  refine { h with owner := ?_, current := ?_ }
  · intro b name text htext
    obtain heq | hother := eq_or_ne (b, name) (t.num.toNat, filelistName s.num.toNat)
    · cases heq
      exact ⟨t, ht, rfl⟩
    · exact h.owner b name text (by simpa [hother] using htext)
  · intro b name text htext
    obtain heq | hother := eq_or_ne (b, name) (t.num.toNat, filelistName s.num.toNat)
    · cases heq
      refine Or.inr ⟨s.num.toNat, rfl, s, hs, t, ht, rfl, rfl, hlt, by simp, x, y, hst, ?_⟩
      simpa using htext.symm
    · obtain hname | ⟨a, rfl, s', hs', t', ht', ha, hb, hlt', hborn, hsaved⟩ :=
        h.current b name text (by simpa [hother] using htext)
      · exact Or.inl hname
      · exact Or.inr ⟨a, rfl, s', hs', t', ht', ha, hb, hlt', by simpa [hother] using hborn,
          hsaved⟩

/-- A comparison saves a list of two snapshots of the store, made from their trees, or nothing. -/
theorem Fresh.compare (h : Fresh store) (num1 num2 : UInt32) (system : DirTree) :
    Fresh (store.compare fnmatch ignorePatterns num1 num2 system) := by
  unfold Store.compare
  split
  next snapshot1 snapshot2 h1 h2 =>
    split
    · exact h
    next files infos hnew =>
      obtain ⟨hnum1, hmem1⟩ := compared_mem h1
      obtain ⟨hnum2, hmem2⟩ := compared_mem h2
      obtain rfl | ⟨hne, hzero1, hzero2, hnone, rfl⟩ := newComparison_infos hnew
      · -- nothing was saved
        rw [if_neg (fun hchange => hchange.2 hchange.1)]
        exact h
      · obtain ⟨x, hx, rfl, rfl⟩ := hmem1 hzero1
        obtain ⟨y, hy, rfl, rfl⟩ := hmem2 hzero2
        rw [if_pos ⟨hnone, by simp [Kept.compared]⟩]
        exact h.save hx hy (fun heq => hne (congrArg UInt32.toNat heq))
  · exact h

/-! ## Every sequence of calls -/

theorem Fresh.step (h : Fresh store) (call : StoreCall) :
    Fresh (store.step fnmatch ignorePatterns call) := by
  cases call with
  | create dir info => exact h.create dir info
  | compare num1 num2 system => exact h.compare num1 num2 system
  | delete num => exact h.delete num

theorem fresh_foldl (calls : List StoreCall) :
    Fresh (calls.foldl (Store.step fnmatch ignorePatterns) {}) :=
  foldl_induction (P := fun _ => Fresh) Fresh.empty
    (fun _ call _ _ h => h.step call) (List.append_nil calls).symm

/-- A file list, wherever it is. -/
theorem Fresh.filelist (h : Fresh store) {a b : Nat} {text : Str}
    (htext : store.infos (b, filelistName a) = some text) : store.Current a b text := by
  obtain hname | ⟨a', hname, hcur⟩ := h.current b _ text htext
  · exact absurd hname (filelistName_ne_infoName a)
  · rwa [filelistName_injective hname]

/-- What `load` finds for two snapshots of the list is a list saved by a comparison of these
two, in one direction or the other. -/
theorem Fresh.load_current (h : Fresh store) {s t : Kept} (hs : s ∈ store.entries)
    (ht : t ∈ store.entries) {files : List File}
    (hload : load s.num.toNat t.num.toNat store.infos = .ok (some files)) :
    ∃ text, SavedText s t text ∧
      files = sortFiles (loadText (s.num.toNat > t.num.toNat) text) := by
  unfold load at hload
  split at hload
  · cases hload
  split at hload
  · cases hload
  next text htext =>
    cases hload
    refine ⟨text, ?_, rfl⟩
    have hsame : ∀ {x y : Kept}, x ∈ store.entries → y ∈ store.entries →
        x.num.toNat = y.num.toNat → x = y :=
      fun hx hy heq => h.eq_of_num hx hy (UInt32.toNat_inj.mp heq)
    obtain hlt | heq | hlt := Nat.lt_trichotomy s.num.toNat t.num.toNat
    · rw [filelistKey_of_lt hlt] at htext
      obtain ⟨x, hx, y, hy, ha, hb, -, -, hsaved⟩ := h.filelist htext
      rwa [← hsame hx hs ha, ← hsame hy ht hb]
    · -- no snapshot has a file list with itself
      have hkey : ∀ n, filelistKey n n = (n, filelistName n) := by simp [filelistKey]
      rw [heq, hkey] at htext
      obtain ⟨x, hx, y, hy, ha, hb, hlt, -⟩ := h.filelist htext
      exact absurd hlt (lt_irrefl _)
    · rw [filelistKey_comm, filelistKey_of_lt hlt] at htext
      obtain ⟨x, hx, y, hy, ha, hb, -, -, hsaved⟩ := h.filelist htext
      rw [← hsame hx ht ha, ← hsame hy hs hb]
      exact hsaved.symm

/-- After any calls the file lists are those of the snapshots that have the two numbers now:
`filelist-a.txt` in the info directory of `b` was computed from them, with `a` smaller than `b`,
and `load` returns what a comparison of these two saved. -/
theorem filelists_fresh (fnmatch : Str → Str → Bool) (ignorePatterns : List Str)
    (calls : List StoreCall) :
    let store := calls.foldl (Store.step fnmatch ignorePatterns) {}
    (store.entries.map Kept.num).Nodup ∧ (store.entries.map Kept.born).Nodup ∧
      (∀ a b text, store.infos (b, filelistName a) = some text → store.Current a b text) ∧
      ∀ s ∈ store.entries, ∀ t ∈ store.entries, ∀ files,
        load s.num.toNat t.num.toNat store.infos = .ok (some files) →
          ∃ text, SavedText s t text ∧
            files = sortFiles (loadText (s.num.toNat > t.num.toNat) text) := by
  intro store
  have h : Fresh store := fresh_foldl calls
  exact ⟨h.nums, h.births, fun a b text htext => h.filelist htext,
    fun s hs t ht files hload => h.load_current hs ht hload⟩

end Snapper
