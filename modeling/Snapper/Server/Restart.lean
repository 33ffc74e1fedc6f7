import Snapper.Info.Datetime
import Snapper.Server.Stored
import Snapper.Server.Touches

/-!
# Restarting from the files

For the daemon the disk of a config is a list of snapshots.  What is really there are
directories with an `info.xml` each, which `writeInfo` has made and `Snapshots::initialize`
reads.  Both views agree, as long as the texts are XML texts and the clock shows a year of up
to four digits.  What can not be read, for the file does not open or `checkSnapshot` finds no
subvolume, is passed over by both.

## Main results

* `initializeSnapshots_files`: what is read from files that were written.
* `restart_reads_files`: after every history the files give the snapshots that a daemon shows
  when it starts.
-/

namespace Snapper

open General

/-! ## What is read back -/

/-- `writeInfo` writes, and `read` reads it again: the texts are XML texts, and so is the date,
which is not the one that `scan_datetime` fails with. -/
def Snapshot.Legible (s : Snapshot) : Prop := s.XmlTexts ∧ s.date ≠ -1 ∧ FourDigits s.date

instance (s : Snapshot) : Decidable s.Legible := inferInstanceAs (Decidable (_ ∧ _))

/-- A snapshot as the requests make it, with a date that can be written. -/
structure Snapshot.Writable (s : Snapshot) : Prop where
  storable : s.Storable
  noNul : s.NoNul
  date : Representable s.date

/-- An XML text has no NUL. -/
theorem no_nul_of_isXmlText {t : Str} (h : isXmlText t = true) : 0 ∉ t := by
  -- no byte of a character is zero
  have hsingle : ∀ b, isChar1 b = true → 0 ≠ b := by
    rintro _ hchar rfl
    exact absurd hchar (by decide)
  have htail : ∀ b, isTail b = true → 0 ≠ b := by
    rintro _ hchar rfl
    exact absurd hchar (by decide)
  have hlead : ∀ {n b : UInt8}, n ≤ b → 194 ≤ n → 0 ≠ b := by
    rintro n _ hn hlow rfl
    exact absurd (le_trans hlow hn) (by decide)
  fun_induction isXmlText t with
  | case1 => exact List.not_mem_nil
  | case2 b rest hchar ih =>
    simp only [List.mem_cons, not_or]
    exact ⟨hsingle b hchar, ih h⟩
  | case3 => cases h
  | case4 b _ c rest hchar ih =>
    simp only [isChar2, decide_eq_true_eq] at hchar
    simp only [List.mem_cons, not_or]
    exact ⟨hlead hchar.1.1 (by decide), htail c hchar.2, ih h⟩
  | case5 => cases h
  | case6 b _ c _ d rest hchar ih =>
    simp only [isChar3, decide_eq_true_eq] at hchar
    simp only [List.mem_cons, not_or]
    exact ⟨hlead hchar.1.1 (by decide), htail c hchar.2.1, htail d hchar.2.2.1, ih h⟩
  | case7 => cases h
  | case8 b _ c _ d _ e rest ih =>
    obtain ⟨hchar, hrest⟩ := Bool.and_eq_true_iff.mp h
    simp only [isChar4, decide_eq_true_eq] at hchar
    simp only [List.mem_cons, not_or]
    exact ⟨hlead hchar.1.1 (by decide), htail c hchar.2.1, htail d hchar.2.2.1,
      htail e hchar.2.2.2.1, ih hrest⟩

theorem Snapshot.Legible.noNul {s : Snapshot} (h : s.Legible) : s.NoNul where
  description := no_nul_of_isXmlText h.1.description
  cleanup := no_nul_of_isXmlText h.1.cleanup
  userdata e he :=
    ⟨no_nul_of_isXmlText (h.1.userdata e he).1, no_nul_of_isXmlText (h.1.userdata e he).2⟩

/-- A snapshot that is stored and read without loss. -/
structure Snapshot.Sound (s : Snapshot) : Prop where
  storable : s.Storable
  legible : s.Legible

theorem Snapshot.Sound.writable {s : Snapshot} (h : s.Sound) : s.Writable :=
  ⟨h.storable, h.legible.noNul, h.legible.2.2.representable⟩

end Snapper

namespace Snapper.Server

open General Act

section Files

variable {xml : LibXml} {checkSnapshot : UInt32 → Bool} {unset : Name → UInt32} {s : Snapshot}
  {disk : Disk} {dir : InfosDir}

/-- The directory of a snapshot, with what is read from its `info.xml`. -/
def infoEntry (xml : LibXml) (s : Snapshot) : Name × Option (List XmlNode) :=
  (decString s.num.toNat, xml.read (xml.dump (s.writeInfo datetime)))

/-- The fields of a snapshot that was just read. -/
theorem eq_stored {s' : Snapshot} (h : s.SameInfo s') (hpre : s.type ≠ .POST → s.preNum = 0)
    (hnew : s'.infoModified = false ∧ s'.mountChecked = false ∧ s'.mountUserRequest = false ∧
      s'.mountUseCount = 0) : s' = Snapshot.stored s := by
  cases s' with
  | mk =>
    obtain ⟨hnum, htype, hdate, huid, hpreNum, hdescription, hcleanup, huserdata⟩ := h
    obtain ⟨hmodified, hchecked, hrequest, hcount⟩ := hnew
    dsimp only at *
    subst hnum htype hdate huid hpreNum hdescription hcleanup huserdata
    subst hmodified hchecked hrequest hcount
    rw [Snapshot.stored]
    congr
    split
    · rfl
    · next hpost => exact hpre hpost

/-- The snapshot is read as it was written, or not at all. -/
theorem readEntry_infoEntry (hxml : xml.Faithful) (hs : s.Writable) (hnum : s.num ≠ 0)
    (hcheck : checkSnapshot s.num = true) :
    readEntry scanDatetime checkSnapshot unset (infoEntry xml s) =
      if s.Legible then some (Snapshot.stored s) else none := by
  have hascii := datetime_ascii hs.date
  -- the document is well-formed, then the date is of four digits, then it is not -1
  by_cases htexts : s.XmlTexts
  · have hread : xml.read (xml.dump (s.writeInfo datetime)) = some [(s.writeInfo datetime).shown] :=
      hxml.reads _ (writeInfo_plain datetime s) ((writeInfo_texts hs.noNul hascii).mpr htexts)
    have hinfo : readInfo scanDatetime checkSnapshot (unset (decString s.num.toNat))
        (decString s.num.toNat) [(s.writeInfo datetime).shown] = _ :=
      readInfo_dated hs.noNul hascii hnum hcheck
    rw [infoEntry, readEntry, hread, Option.bind_some, hinfo, scanDatetime_datetime hs.date]
    by_cases hyear : FourDigits s.date
    · rw [if_pos hyear]
      by_cases hdate : s.date = -1
      · rw [if_pos hdate, if_neg fun h => h.2.1 hdate]
      · rw [if_neg hdate, if_pos ⟨htexts, hdate, hyear⟩]
        congr 1
        exact eq_stored (readFields_shownNodes hs.storable) hs.storable.preNum
          ⟨rfl, rfl, rfl, rfl⟩
    · rw [if_neg hyear, if_pos rfl, if_neg fun h => hyear h.2.2]
  · have hread : xml.read (xml.dump (s.writeInfo datetime)) = none :=
      read_writeInfo_none hxml hs.noNul hascii htexts
    rw [infoEntry, readEntry, hread, if_neg fun h => htexts h.1, Option.bind_none]

/-- A snapshot that does not pass the check is not read, whatever its file holds. -/
theorem readEntry_unchecked (hcheck : checkSnapshot s.num = false) :
    readEntry scanDatetime checkSnapshot unset (infoEntry xml s) = none := by
  rw [infoEntry]
  cases xml.read (xml.dump (s.writeInfo datetime)) with
  | none => rfl
  | some root =>
    cases hread : readEntry scanDatetime checkSnapshot unset
        (decString s.num.toNat, some root) with
    | none => rfl
    | some s' =>
      have hload := loadable_of_readEntry hread
      -- the check was made for the number that the directory is named for
      have hnum := hload.named
      rw [extract_decString] at hnum
      have hchecked := hload.checked
      rw [← hnum, hcheck] at hchecked
      cases hchecked

/-- `.snapshots` has the files that were written for the snapshots, and no other `info.xml`
that can be read.  An entry that is not readable has no file that opens, or one whose snapshot
does not pass the check. -/
structure Disk.Files (xml : LibXml) (checkSnapshot : UInt32 → Bool) (disk : Disk)
    (dir : InfosDir) : Prop where
  infos : ∀ s ∈ disk.readable, infoEntry xml s ∈ dir.entries
  others : ∀ e ∈ dir.entries, e.2 = none ∨ ∃ s ∈ disk.infos, e = infoEntry xml s
  check : ∀ s ∈ disk.infos, infoEntry xml s ∈ dir.entries →
    (checkSnapshot s.num = true ↔ s.num ∉ disk.unreadable)

/-- Nothing but these files -/
def Disk.infosDir (xml : LibXml) (disk : Disk) (hdisk : disk.WF) : InfosDir where
  entries := disk.infos.map (infoEntry xml)
  distinct := by
    have hnums : disk.infos.Pairwise fun a b => a.num ≠ b.num := List.pairwise_map.mp hdisk.nodup
    rw [List.map_map]
    refine List.pairwise_map.mpr (hnums.imp fun hne hname => hne ?_)
    exact UInt32.toNat.inj (decString_injective hname)

/-- The infos on disk, written as files, are the files of the directory: the readable entries are
those whose check succeeds. -/
theorem infosDir_files {hdisk : disk.WF}
    (hcheck : ∀ s ∈ disk.infos, checkSnapshot s.num = true ↔ s.num ∉ disk.unreadable) :
    disk.Files xml checkSnapshot (disk.infosDir xml hdisk) where
  infos _ hs := List.mem_map_of_mem (mem_infos_of_readable hs)
  others e he := by
    obtain ⟨s, hs, rfl⟩ := List.mem_map.mp he
    exact Or.inr ⟨s, hs, rfl⟩
  check s hs _ := hcheck s hs

/-- Only the directories of snapshots are loaded. -/
theorem Disk.Files.plainNames (h : disk.Files xml checkSnapshot dir) :
    PlainNames scanDatetime checkSnapshot unset dir := by
  intro name root num hmem hload
  rcases h.others _ hmem with hnone | ⟨s, -, hentry⟩
  · cases hnone
  · obtain ⟨rfl, -⟩ := Prod.mk.inj hentry
    have hnum := hload.named
    rw [extract_decString] at hnum
    rw [hnum]

/-- What is read are the snapshots that are readable and legible. -/
theorem mem_filterMap_files (hxml : xml.Faithful) (hdisk : disk.WF)
    (hfiles : disk.Files xml checkSnapshot dir) (hwritable : ∀ s ∈ disk.infos, s.Writable) :
    s ∈ dir.entries.filterMap (readEntry scanDatetime checkSnapshot unset) ↔
      s ∈ disk.readable.filter (·.Legible) := by
  -- of an entry that passes the check the info is read back if it is legible
  have hread : ∀ s ∈ disk.infos, checkSnapshot s.num = true →
      readEntry scanDatetime checkSnapshot unset (infoEntry xml s) =
        if s.Legible then some s else none := by
    intro s hs hcheck
    rw [readEntry_infoEntry hxml (hwritable s hs) (hdisk.nonzero s hs) hcheck, hdisk.stored s hs]
  rw [List.mem_filterMap, List.mem_filter]
  constructor
  · rintro ⟨e, he, hes⟩
    -- an entry without an info, or that of a snapshot on disk
    rcases hfiles.others e he with hnone | ⟨s', hs', rfl⟩
    · rw [readEntry, hnone] at hes
      cases hes
    · cases hcheck : checkSnapshot s'.num with
      | false =>
        rw [readEntry_unchecked hcheck] at hes
        cases hes
      | true =>
        rw [hread s' hs' hcheck] at hes
        split at hes
        · next hlegible =>
          obtain rfl := Option.some.inj hes
          have hreadable := (hfiles.check s' hs' he).mp hcheck
          exact ⟨mem_readable.mpr ⟨hs', hreadable⟩, decide_eq_true hlegible⟩
        · cases hes
  · rintro ⟨hs, hlegible⟩
    have hinfos := mem_infos_of_readable hs
    have hcheck := (hfiles.check s hinfos (hfiles.infos s hs)).mpr (mem_readable.mp hs).2
    refine ⟨_, hfiles.infos s hs, ?_⟩
    rw [hread s hinfos hcheck, if_pos (of_decide_eq_true hlegible)]

/-- What `Snapshots::initialize` reads from the files that were written. -/
theorem initializeSnapshots_files (hxml : xml.Faithful) (hdisk : disk.WF)
    (hfiles : disk.Files xml checkSnapshot dir) (hwritable : ∀ s ∈ disk.infos, s.Writable) :
    initializeSnapshots scanDatetime checkSnapshot unset dir =
      Snapshot.current ::
        (disk.readable.filter (·.Legible)).insertionSort fun a b => a.num ≤ b.num := by
  rw [initializeSnapshots_eq]
  refine congrArg (Snapshot.current :: ·) ?_
  have hdistinct := PlainNames.nums_distinct
    (hfiles.plainNames : PlainNames scanDatetime checkSnapshot unset dir)
  have hdistinct' : (disk.readable.filter (·.Legible)).Pairwise fun a b => a.num ≠ b.num :=
    ((List.pairwise_map.mp hdisk.nodup).filter _).filter _
  -- both lists have the same snapshots, with different numbers
  have hperm : (dir.entries.filterMap (readEntry scanDatetime checkSnapshot unset)).Perm
      (disk.readable.filter (·.Legible)) := by
    rw [List.perm_ext_iff_of_nodup]
    · exact fun s => mem_filterMap_files hxml hdisk hfiles hwritable
    · exact hdistinct.imp fun hne heq => hne (congrArg Snapshot.num heq)
    · exact hdistinct'.imp fun hne heq => hne (congrArg Snapshot.num heq)
  refine List.Perm.eq_of_pairwise (?_ : ∀ a b : Snapshot, _ → _ → a.num < b.num → _) ?_ ?_ ?_
  · exact fun a b _ _ hab hba => absurd hba (lt_asymm hab)
  · exact insertionSort_ascending_iff.mpr hdistinct
  · exact insertionSort_ascending_iff.mpr hdistinct'
  · exact (List.perm_insertionSort _ _).trans (hperm.trans (List.perm_insertionSort _ _).symm)

end Files

/-- Three snapshots: the second has a control character for its description, and of the third
there is no subvolume. -/
def threeInfos : Disk :=
  ⟨[1, 2, 3], [Snapshot.new .SINGLE 1 0, { Snapshot.new .SINGLE 2 0 with description := [1] },
    Snapshot.new .SINGLE 3 0], [3]⟩

theorem threeInfos_wf : threeInfos.WF := ⟨by decide, by decide, by decide, by decide +kernel⟩

/-- Only the first one is read. -/
theorem initializeSnapshots_files_three :
    initializeSnapshots scanDatetime (fun num => num ≠ 3) (fun _ => 0)
      (threeInfos.infosDir plainXml threeInfos_wf) =
        [Snapshot.current, Snapshot.new .SINGLE 1 0] := by
  have hnew : ∀ num description, 0 ∉ description →
      ({ Snapshot.new .SINGLE num 0 with description := description } : Snapshot).Writable := by
    intro num description hnul
    have hdate : Representable 0 := FourDigits.representable (by decide +kernel)
    exact ⟨⟨fun _ => rfl, fun _ he => nomatch he⟩,
      ⟨hnul, List.not_mem_nil, fun _ he => nomatch he⟩, hdate⟩
  have hwritable : ∀ s ∈ threeInfos.infos, s.Writable := by
    simp only [threeInfos, List.forall_mem_cons]
    exact ⟨hnew 1 [] (by decide), hnew 2 [1] (by decide), hnew 3 [] (by decide), nofun⟩
  have hcheck : ∀ s ∈ threeInfos.infos,
      (decide (s.num ≠ 3)) = true ↔ s.num ∉ threeInfos.unreadable := by decide
  exact initializeSnapshots_files plainXml_faithful threeInfos_wf (infosDir_files hcheck) hwritable

/-! ## Histories -/

/-- Texts of a request that XML allows -/
structure LegibleTexts (description cleanup : Str) (userdata : StrMap) : Prop where
  description : isXmlText description = true
  cleanup : isXmlText cleanup = true
  userdata : ∀ e ∈ userdata.entries, isXmlText e.1 = true ∧ isXmlText e.2 = true

/-- The clock shows a time that is read as it was written. -/
def LegibleTime (time : Int64) : Prop := time ≠ -1 ∧ FourDigits time

/-- What comes with the request is legible. -/
def Request.Legible (env : Env) : Request → Prop
  | .createConfig .. => ∀ s ∈ env.createdDisk.infos, s.Sound
  | .setSnapshot _ _ description cleanup userdata => LegibleTexts description cleanup userdata
  | .createSingleSnapshot _ description cleanup userdata =>
    LegibleTexts description cleanup userdata ∧ LegibleTime env.time
  | .createPreSnapshot _ description cleanup userdata =>
    LegibleTexts description cleanup userdata ∧ LegibleTime env.time
  | .createPostSnapshot _ _ description cleanup userdata =>
    LegibleTexts description cleanup userdata ∧ LegibleTime env.time
  | _ => True

/-- The request that is served next, if any, is legible, and so are the configs that a restart
finds for the first time. -/
def Clear (d : Daemon) : Event → Prop
  | .step (.work name env) => ∀ request, d.next name = some request → request.Legible env
  | .step _ => True
  | .restart _ _ added => ∀ found ∈ added, ∀ s ∈ found.disk.infos, s.Sound

/-- All snapshots are sound, but for the current ones. -/
def MetaSnapper.Sound (m : MetaSnapper) : Prop :=
  ∀ s, s ∈ m.snapshots ∨ s ∈ m.disk.infos → s.num ≠ 0 → s.Sound

/-- Sound snapshots stay sound. -/
def KeepsSound (f : Snapshot → Snapshot) : Prop := ∀ s, s.Sound → (f s).Sound

section Sound

variable {s : Snapshot} {env : Env} {description cleanup : Str} {userdata : StrMap}

/-- A change that leaves the data of the info alone keeps a snapshot sound. -/
theorem keepsSound_of_same {f : Snapshot → Snapshot} (hsame : ∀ s, (f s).type = s.type ∧
    (f s).date = s.date ∧ (f s).preNum = s.preNum ∧ (f s).description = s.description ∧
    (f s).cleanup = s.cleanup ∧ (f s).userdata = s.userdata) : KeepsSound f := by
  rintro s ⟨⟨hpre, hkeys⟩, ⟨hd, hc, hu⟩, htime⟩
  obtain ⟨htype, hdate, hpreNum, hdescription, hcleanup, huserdata⟩ := hsame s
  refine ⟨⟨?_, ?_⟩, ⟨?_, ?_, ?_⟩, ?_⟩
  · rwa [htype, hpreNum]
  · rwa [huserdata]
  · rwa [hdescription]
  · rwa [hcleanup]
  · rwa [huserdata]
  · rwa [hdate]

/-- Counting mounts and looking at them are such changes. -/
theorem routine_keepsSound : Routine KeepsSound where
  checkMounted mounted := by
    apply keepsSound_of_same
    intro s
    rw [Snapshot.checkMounted]
    split <;> exact ⟨rfl, rfl, rfl, rfl, rfl, rfl⟩
  countMount userRequest := by
    apply keepsSound_of_same
    cases userRequest <;> exact fun _ => ⟨rfl, rfl, rfl, rfl, rfl, rfl⟩
  countUmount userRequest := by
    apply keepsSound_of_same
    cases userRequest <;> exact fun _ => ⟨rfl, rfl, rfl, rfl, rfl, rfl⟩
  flushed := keepsSound_of_same fun _ => ⟨rfl, rfl, rfl, rfl, rfl, rfl⟩
  setUid val := keepsSound_of_same fun _ => ⟨rfl, rfl, rfl, rfl, rfl, rfl⟩
  raced userRequest useCount := by
    apply keepsSound_of_same
    intro s
    rw [Snapshot.raced]
    split <;> exact ⟨rfl, rfl, rfl, rfl, rfl, rfl⟩

theorem stored_sound (h : s.Sound) : (Snapshot.stored s).Sound :=
  ⟨stored_storable h.storable, ⟨h.legible.1.description, h.legible.1.cleanup, h.legible.1.userdata⟩,
    h.legible.2⟩

/-- What the fields are set to is legible. -/
theorem LegibleTexts.keeps (h : LegibleTexts description cleanup userdata) :
    KeepsSound (Snapshot.setDescription description) ∧ KeepsSound (Snapshot.setCleanup cleanup) ∧
      (validUserdata userdata = true → KeepsSound (Snapshot.setUserdata userdata)) := by
  refine ⟨?_, ?_, ?_⟩
  · rintro s ⟨hstorable, htexts, htime⟩
    exact ⟨(setDescription_keeps _).storable s hstorable,
      ⟨h.description, htexts.cleanup, htexts.userdata⟩, htime⟩
  · rintro s ⟨hstorable, htexts, htime⟩
    exact ⟨(setCleanup_keeps _).storable s hstorable,
      ⟨htexts.description, h.cleanup, htexts.userdata⟩, htime⟩
  · rintro hvalid s ⟨hstorable, htexts, htime⟩
    exact ⟨(setUserdata_keeps hvalid).storable s hstorable,
      ⟨htexts.description, htexts.cleanup, h.userdata⟩, htime⟩

theorem made_sound {type : SnapshotType} {preNum num : UInt32} (htype : type ≠ .POST → preNum = 0)
    (hdescription : isXmlText description = true) (htime : LegibleTime env.time) :
    (env.made type preNum description num).Sound :=
  ⟨⟨htype, fun _ he => nomatch he⟩, ⟨hdescription, rfl, fun _ he => nomatch he⟩, htime⟩

/-- A legible request brings only sound snapshots. -/
theorem Request.Legible.brings {request : Request} (h : request.Legible env) :
    request.Brings Snapshot.Sound KeepsSound env := by
  cases request with
  | createConfig => exact h
  | setSnapshot => exact LegibleTexts.keeps h
  | createSingleSnapshot =>
    exact ⟨fun _ => made_sound (fun _ => rfl) h.1.description h.2, h.1.keeps.2⟩
  | createPreSnapshot =>
    exact ⟨fun _ => made_sound (fun _ => rfl) h.1.description h.2, h.1.keeps.2⟩
  | createPostSnapshot =>
    exact ⟨fun _ => made_sound (fun hpost => absurd rfl hpost) h.1.description h.2, h.1.keeps.2⟩
  | _ => trivial

section Configs

variable {m m' : MetaSnapper}

/-- A config stays sound when its list is changed to sound snapshots. -/
theorem sound_setSnapshots {f : List Snapshot → List Snapshot} (h : m.Sound)
    (hf : ∀ s ∈ f m.snapshots, s.num ≠ 0 → s.Sound) : (m.setSnapshots f).Sound := by
  rintro s (hs | hs) hnum
  · cases hsnapper : m.snapper with
    | none => simp [MetaSnapper.setSnapshots, MetaSnapper.snapshots, hsnapper] at hs
    | some loaded =>
      have hloaded : m.isLoaded = true := by simp [MetaSnapper.isLoaded, hsnapper]
      rw [setSnapshots_snapshots hloaded] at hs
      exact hf s hs hnum
  · exact h s (Or.inr hs) hnum

theorem sound_disk {disk : Disk} (h : m.Sound) (hinfos : ∀ s ∈ disk.infos, s.num ≠ 0 → s.Sound) :
    ({ m with disk := disk } : MetaSnapper).Sound := by
  rintro s (hs | hs) hnum
  · exact h s (Or.inl hs) hnum
  · exact hinfos s hs hnum

/-- A config stays sound when the info of a sound snapshot is written. -/
theorem sound_write (hs : s.Sound) (h : m.Sound) :
    ({ m with disk := m.disk.write s } : MetaSnapper).Sound := by
  apply sound_disk h
  intro s' hs' hnum
  rcases List.mem_append.mp hs' with hold | hnew
  · exact h s' (Or.inr (List.mem_filter.mp hold).1) hnum
  · rw [List.mem_singleton.mp hnew]
    exact stored_sound hs

/-- Snapshots stay sound through every kind of change. -/
theorem sound_lasts : Lasts Snapshot.Sound KeepsSound MetaSnapper.Sound where
  same m m' _ hdisk hsnapper h s hs := by
    rw [MetaSnapper.snapshots, hsnapper, hdisk] at hs
    exact h s hs
  unload m m' _ hdisk hsnapper h s hs := by
    rw [MetaSnapper.snapshots, hsnapper, hdisk] at hs
    exact h s (Or.inr (hs.resolve_left List.not_mem_nil))
  load m id h := by
    rintro s (hs | hs) hnum
    · rcases mem_read.mp hs with rfl | hs
      · exact absurd rfl hnum
      · exact h s (Or.inr (mem_infos_of_readable hs)) hnum
    · exact h s (Or.inr hs) hnum
  -- the request brings sound data only
  change m num f hnum hkeeps hf h := by
    apply sound_setSnapshots h
    intro s hs hzero
    obtain ⟨s', hs', ⟨-, rfl⟩ | ⟨-, rfl⟩⟩ := mem_update hs
    · rw [hkeeps] at hzero
      exact hf s' (h s' (Or.inl hs') hzero)
    · exact h s (Or.inl hs') hzero
  write m m' s hs hnum h' h := sound_write (h' s (Or.inl hs) hnum) h
  dirs m dirs h := sound_disk h fun s hs => h s (Or.inr hs)
  spoil m nums h := sound_disk h fun s hs => h s (Or.inr hs)
  insert m s hs hnum h := by
    apply sound_write (m := m.setSnapshots (· ++ [s.flushed])) hs
    apply sound_setSnapshots h
    intro s' hs' hzero
    rcases List.mem_append.mp hs' with hold | hnew
    · exact h s' (Or.inl hold) hzero
    · rw [List.mem_singleton.mp hnew]
      exact routine_keepsSound.flushed s hs
  lose m p h := sound_disk h fun s hs => h s (Or.inr (List.mem_filter.mp hs).1)
  erase m num dirs hnum h := by
    apply sound_disk
    · apply sound_setSnapshots h
      exact fun s hs => h s (Or.inl (List.mem_of_mem_eraseP hs))
    · exact fun s hs => h s (Or.inr hs)
  add m hunloaded hdisk hnew := by
    rintro s (hs | hs) hnum
    · rw [MetaSnapper.snapshots, hunloaded] at hs
      exact absurd hs List.not_mem_nil
    · exact hnew s hs

end Configs

end Sound

/-- A clear event brings only sound snapshots. -/
theorem Clear.brings {d : Daemon} {event : Event} (h : Clear d event) :
    event.Brings Snapshot.Sound KeepsSound d := by
  cases event with
  | restart => exact h
  | step a =>
    cases a with
    | work name env => exact fun request hnext => (h request hnext).brings
    | _ => trivial

/-- After every history with legible requests, the files of a config give the very snapshots
that the daemon shows when it has started again, be it with fewer configs or with others. -/
theorem restart_reads_files (xml : LibXml) (checkSnapshot : UInt32 → Bool) (unset : Name → UInt32)
    {start : Daemon} {events : List Event} (now : Int) (listed : Str → Bool) (added : List Found)
    (hxml : xml.Faithful) (hstart : start.Initial)
    (hsound : ∀ m ∈ start.metaSnappers, ∀ s ∈ m.disk.infos, s.Sound)
    (hclear : Along Clear Daemon.event (events ++ [.restart now listed added]) start) :
    ∀ m ∈ ((events.foldl Daemon.event start).restart now listed added).metaSnappers,
      ∀ dir : InfosDir, m.disk.Files xml checkSnapshot dir →
        initializeSnapshots scanDatetime checkSnapshot unset dir = m.shown := by
  intro m hm dir hfiles
  have hrestarted := restart_initial (history_unseen hstart events).base now listed added
  -- the restart is the last event of the history
  have hall : ∀ m ∈ ((events.foldl Daemon.event start).restart now listed added).metaSnappers,
      m.Sound := by
    have hfold : (events.foldl Daemon.event start).restart now listed added =
        (events ++ [Event.restart now listed added]).foldl Daemon.event start := by
      rw [List.foldl_append]
      rfl
    rw [hfold]
    apply sound_lasts.history routine_keepsSound
    · rintro m hm s (hs | hs) -
      · rw [MetaSnapper.snapshots, hstart.unloaded m hm] at hs
        exact absurd hs List.not_mem_nil
      · exact hsound m hm s hs
    · exact along_iff.mpr fun done event rest hsplit =>
        (along_iff.mp hclear done event rest hsplit).brings
  have hinfos : ∀ s ∈ m.disk.infos, s.Sound := fun s hs =>
    hall m hm s (Or.inr hs) ((hrestarted.disk m hm).nonzero s hs)
  have hlegible : m.disk.readable.filter (·.Legible) = m.disk.readable :=
    List.filter_eq_self.mpr fun s hs =>
      decide_eq_true (hinfos s (mem_infos_of_readable hs)).legible
  rw [initializeSnapshots_files hxml (hrestarted.disk m hm) hfiles fun s hs =>
    (hinfos s hs).writable,
    MetaSnapper.shown, hrestarted.unloaded m hm, Disk.read, hlegible]

/-- Another config comes into `SNAPPER_CONFIGS` while the daemon does not run. -/
def homeFound : Found where
  configInfo := ⟨str "home", str "/home", .empty⟩
  uids := []
  disk := ⟨[7], [Snapshot.new .SINGLE 7 0], []⟩
  wf := ⟨by decide, by decide, by decide, by decide +kernel⟩

/-- A snapshot is created, the daemon is killed, and the files of both configs are read: of root
with the created snapshot, and of home, which is new. -/
theorem restart_reads_files_created :
    let d := ([Event.step (.receive (str "a") (.createSingleSnapshot (str "root")
        (str "before") [] .empty)), .step (.work (str "a") Env.quiet)].foldl
      Daemon.event Daemon.rootOnly).restart 5 (fun _ => true) [homeFound]
    d.metaSnappers.map (·.disk.infos.length) = [2, 1] ∧
      ∀ m ∈ d.metaSnappers, ∃ hdisk : m.disk.WF,
        initializeSnapshots scanDatetime (fun num => num ∉ m.disk.unreadable) (fun _ => 0)
          (m.disk.infosDir plainXml hdisk) = m.shown := by
  set events := [Event.step (.receive (str "a") (.createSingleSnapshot (str "root")
    (str "before") [] .empty)), .step (.work (str "a") Env.quiet)] with hevents
  have hsound : ∀ m ∈ Daemon.rootOnly.metaSnappers, ∀ s ∈ m.disk.infos, s.Sound := by
    intro m hm s hs
    obtain rfl := List.mem_singleton.mp hm
    obtain rfl := List.mem_singleton.mp hs
    exact ⟨⟨fun _ => rfl, fun _ he => nomatch he⟩, by decide +kernel⟩
  -- the request has legible texts and the clock is in range
  have hclear : Along Clear Daemon.event (events ++ [.restart 5 (fun _ => true) [homeFound]])
      Daemon.rootOnly := by
    refine ⟨trivial, ?_, ?_, trivial⟩
    · intro request hnext
      obtain rfl : Request.createSingleSnapshot (str "root") (str "before") [] .empty = request :=
        Option.some.inj hnext
      exact ⟨⟨by decide +kernel, by decide, fun _ he => nomatch he⟩, by decide, by decide +kernel⟩
    · intro found hfound s hs
      obtain rfl := List.mem_singleton.mp hfound
      obtain rfl := List.mem_singleton.mp hs
      exact ⟨⟨fun _ => rfl, fun _ he => nomatch he⟩, by decide +kernel⟩
  have hinitial := restart_initial (history_unseen rootOnly_initial events).base 5 (fun _ => true)
    [homeFound]
  refine ⟨rfl, fun m hm => ⟨hinitial.disk m hm, ?_⟩⟩
  exact restart_reads_files plainXml (fun num => num ∉ m.disk.unreadable) (fun _ => 0) 5
    (fun _ => true) [homeFound] plainXml_faithful rootOnly_initial hsound hclear m hm _
    (infosDir_files fun s _ => decide_eq_true_iff)

end Snapper.Server
