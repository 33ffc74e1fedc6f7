import Snapper.Info.Loading
import Snapper.Server.Access

/-!
# Snapshots survive a restart

What a request makes of a snapshot is written to its `info.xml`, and read from there when the
config is loaded the next time.  The format holds every snapshot that requests make, as long
as its texts are made of characters that XML allows; the requests take any bytes.

## Main results

- `handle_stores`: the requests that create and change snapshots keep them storable
- `info_survives_iff`: a snapshot is read as it was written exactly when its texts are XML texts
-/

namespace Snapper.Server

open General

/-! ## Snapshots that requests make -/

/-- The request creates or changes a snapshot. -/
def Request.makes : Request → Bool
  | .createSingleSnapshot .. | .createPreSnapshot .. | .createPostSnapshot .. => true
  | .setSnapshot .. => true
  | _ => false

/-- Snapshots in the list or on disk are storable, but for those of some numbers: what was there
before the requests may be anything. -/
def MetaSnapper.Stores (apart : UInt32 → Prop) (m : MetaSnapper) : Prop :=
  ∀ s, s ∈ m.snapshots ∨ s ∈ m.disk.infos → apart s.num ∨ s.Storable

/-- The same for every config; `apart` gives numbers by the address of the config. -/
def Daemon.Stores (apart : Nat → UInt32 → Prop) (d : Daemon) : Prop :=
  ∀ m ∈ d.metaSnappers, m.Stores (apart m.id)

/-- A change of a snapshot that keeps it storable. -/
structure KeepsStorable (f : Snapshot → Snapshot) : Prop where
  num : ∀ s, (f s).num = s.num
  storable : ∀ s, s.Storable → (f s).Storable

theorem current_storable : Snapshot.current.Storable := ⟨fun _ => rfl, fun _ h => nomatch h⟩

section Fields

variable {s : Snapshot}

/-- A uid is a number. -/
theorem setUid_keeps (val : UInt32) : KeepsStorable (Snapshot.setUid val) :=
  ⟨fun _ => rfl, fun _ h => ⟨h.preNum, h.keys⟩⟩

/-- A description may be any text. -/
theorem setDescription_keeps (val : Str) : KeepsStorable (Snapshot.setDescription val) :=
  ⟨fun _ => rfl, fun _ h => ⟨h.preNum, h.keys⟩⟩

/-- A cleanup algorithm may be any text. -/
theorem setCleanup_keeps (val : Str) : KeepsStorable (Snapshot.setCleanup val) :=
  ⟨fun _ => rfl, fun _ h => ⟨h.preNum, h.keys⟩⟩

theorem flushed_keeps : KeepsStorable Snapshot.flushed :=
  ⟨fun _ => rfl, fun _ h => ⟨h.preNum, h.keys⟩⟩

/-- Valid userdata has no empty key. -/
theorem setUserdata_keeps {val : StrMap} (h : validUserdata val = true) :
    KeepsStorable (Snapshot.setUserdata val) := by
  refine ⟨fun _ => rfl, fun s hs => ⟨hs.preNum, fun e he => ?_⟩⟩
  have hentry := List.all_eq_true.mp h e he
  simp only [Bool.and_eq_true, Bool.not_eq_true', List.isEmpty_eq_false_iff] at hentry
  exact hentry.1.1

/-- What is on disk of a storable snapshot is storable. -/
theorem stored_storable (h : s.Storable) : (Snapshot.stored s).Storable :=
  ⟨fun hpost => if_neg hpost, h.keys⟩

end Fields

/-! ## Changes that keep them -/

section Changes

variable {apart : Nat → UInt32 → Prop} {d : Daemon} {id : Nat}

/-- A change of one config. -/
theorem Daemon.Stores.modMeta {f : MetaSnapper → MetaSnapper} (h : d.Stores apart)
    (hid : ∀ m, (f m).id = m.id)
    (hf : ∀ m, m.id = id → m.Stores (apart m.id) → (f m).Stores (apart m.id)) :
    (d.modMeta id f).Stores apart := by
  intro m' hm'
  obtain ⟨m, hm, ⟨hmid, rfl⟩ | ⟨-, rfl⟩⟩ := mem_update hm'
  · rw [hid]
    exact hf m hmid (h m hm)
  · exact h m' hm

/-- A change of the list of a config. -/
theorem MetaSnapper.Stores.setSnapshots {p : UInt32 → Prop} {m : MetaSnapper}
    {f : List Snapshot → List Snapshot} (h : m.Stores p)
    (hf : ∀ s ∈ f m.snapshots, p s.num ∨ s.Storable) : (m.setSnapshots f).Stores p := by
  intro s hs
  rcases hs with hs | hs
  · refine hf s ?_
    cases hsnapper : m.snapper with
    | none => simp [MetaSnapper.setSnapshots, MetaSnapper.snapshots, hsnapper] at hs
    | some loaded =>
      simpa [MetaSnapper.setSnapshots, MetaSnapper.snapshots, hsnapper] using hs
  · exact h s (Or.inr hs)

/-- A change of one snapshot. -/
theorem Daemon.Stores.modSnapshot {num : UInt32} {g : Snapshot → Snapshot} (h : d.Stores apart)
    (hg : KeepsStorable g) : (d.modSnapshot id num g).Stores apart := by
  refine h.modMeta (fun _ => rfl) fun m _ hm => hm.setSnapshots fun s hs => ?_
  obtain ⟨s', hs', ⟨-, rfl⟩ | ⟨-, rfl⟩⟩ := mem_update hs
  · rw [hg.num]
    exact (hm s' (Or.inl hs')).imp_right (hg.storable s')
  · exact hm s (Or.inl hs')

/-- A storable snapshot is written. -/
theorem MetaSnapper.Stores.write {p : UInt32 → Prop} {m : MetaSnapper} {s : Snapshot}
    (h : m.Stores p) (hs : p s.num ∨ s.Storable) :
    ({ m with disk := m.disk.write s } : MetaSnapper).Stores p := by
  intro s' hs'
  rcases hs' with hs' | hs'
  · exact h s' (Or.inl hs')
  · rcases List.mem_append.mp hs' with hs' | hs'
    · exact h s' (Or.inr (List.mem_filter.mp hs').1)
    · rw [List.mem_singleton.mp hs']
      exact hs.imp_right stored_storable

/-- What is loaded was on disk. -/
theorem Daemon.Stores.load (h : d.Stores apart) : (d.load id).Stores apart := by
  refine Daemon.Stores.modMeta (d := d) h (fun _ => rfl) fun m _ hm s hs => ?_
  rcases hs with hs | hs
  · rcases List.mem_cons.mp hs with rfl | hs
    · exact Or.inr current_storable
    · exact hm s (Or.inr (mem_infos_of_readable ((List.mem_insertionSort _).mp hs)))
  · exact hm s (Or.inr hs)

/-- A new storable snapshot is put into the list and written. -/
theorem Daemon.Stores.insert {s : Snapshot} (h : d.Stores apart) (hs : s.Storable) :
    (d.insert id s).Stores apart := by
  refine h.modMeta (fun _ => rfl) fun m _ hm => ?_
  have hlist : (m.setSnapshots (· ++ [s.flushed])).Stores (apart m.id) := by
    refine hm.setSnapshots fun s' hs' => ?_
    rcases List.mem_append.mp hs' with hs' | hs'
    · exact hm s' (Or.inl hs')
    · rw [List.mem_singleton.mp hs']
      exact Or.inr (flushed_keeps.storable s hs)
  exact hlist.write (Or.inr hs)

end Changes

/-! ## Requests that create and change snapshots -/

section Handlers

variable {apart : Nat → UInt32 → Prop} {env : Env} {me : Str} {id : Nat} {num : UInt32} {α : Type}

/-- The action keeps snapshots storable, also when it throws. -/
def KeepsStored (apart : Nat → UInt32 → Prop) (c : Handler α) : Prop :=
  Act.Spec (Daemon.Stores apart) c (fun _ => Daemon.Stores apart) fun _ => Daemon.Stores apart

theorem KeepsStored.bind {β : Type} {c : Handler α} {k : α → Handler β} (hc : KeepsStored apart c)
    (hk : ∀ a, KeepsStored apart (k a)) : KeepsStored apart (c >>= k) := Act.Spec.bind hc hk

theorem KeepsStored.pure (a : α) : KeepsStored apart (pure a : Handler α) :=
  Act.Spec.pure fun _ h => h

theorem KeepsStored.throw (e : Exception) : KeepsStored apart (throw e : Handler α) :=
  Act.Spec.throw fun _ h => h

theorem KeepsStored.read (f : Daemon → α) : KeepsStored apart (Act.read f : Handler α) :=
  Act.Spec.read fun _ h => h

theorem KeepsStored.modify {f : Daemon → Daemon} (hf : ∀ d, d.Stores apart → (f d).Stores apart) :
    KeepsStored apart (Act.modify f) := Act.Spec.modify hf

theorem KeepsStored.ite {p : Prop} [Decidable p] {c c' : Handler α} (hc : p → KeepsStored apart c)
    (hc' : ¬p → KeepsStored apart c') :
    KeepsStored apart (if p then c else c') :=
  Act.Spec.ite hc hc'

theorem KeepsStored.throwIf (b : Bool) (e : Exception) : KeepsStored apart (Act.throwIf b e) :=
  Act.Spec.throwIf (fun _ _ h => h) fun _ _ h => h

theorem call_keeps (c : Call) : KeepsStored apart (call env c) := by
  unfold call
  split
  · exact .pure _
  · exact .throw _

theorem findConfig_keeps (configName : Str) : KeepsStored apart (findConfig configName) := by
  refine .bind (.read _) fun r => ?_
  cases r with
  | none => exact .throw _
  | some m => exact .pure m

theorem getUnixUserid_keeps (again : Bool) : KeepsStored apart (getUnixUserid env again) :=
  .bind (call_keeps _) fun _ => .pure _

/-- Loading keeps what is stored. -/
theorem getSnapper_keeps : KeepsStored apart (getSnapper env id) := by
  refine .bind (.read _) fun r => ?_
  cases r with
  | none => exact .pure _
  | some m =>
    have huse : KeepsStored apart
        (Act.modify (Daemon.modMeta id fun m => { m with lastUsed := env.now })) :=
      .modify fun d hd => hd.modMeta (fun _ => rfl) fun _ _ hm => hm
    refine KeepsStored.ite (fun _ => huse) fun _ => ?_
    exact .bind (call_keeps _) fun _ => .bind (.modify fun d hd => hd.load) fun _ => huse

/-- So does the common beginning of the handlers. -/
theorem openConfig_keeps (configName : Str) : KeepsStored apart (openConfig env configName) :=
  .bind (findConfig_keeps _) fun m =>
    .bind (.bind (getUnixUserid_keeps _) fun _ => .throwIf _ _) fun _ =>
      .bind getSnapper_keeps fun _ => .pure m

theorem setField_keeps {f : Snapshot → Snapshot} (hf : KeepsStorable f) :
    KeepsStored apart (setField id num f) :=
  .ite (fun _ => .throw _) fun _ => .modify fun _ hd => hd.modSnapshot hf

/-- Userdata are only set when they are valid, and valid userdata have no empty key. -/
theorem setUserdata_action_keeps (val : StrMap) : KeepsStored apart (setUserdata id num val) := by
  refine .ite (fun _ => .throw _) fun hvalid => ?_
  by_cases hnum : num = 0
  · -- the current snapshot has no setters
    subst hnum
    exact .throw _
  · have hval : validUserdata val = true := by
      by_contra hinvalid
      exact hvalid ⟨hnum, by simpa using hinvalid⟩
    exact setField_keeps (setUserdata_keeps hval)

/-- The snapshot that is written is one of the list. -/
theorem flushInfo_keeps (again : Bool) : KeepsStored apart (flushInfo env id num again) := by
  refine Act.Spec.bind (Q := fun r d => d.Stores apart ∧
    ∀ s, r = some s → apart id s.num ∨ s.Storable) (Act.Spec.read fun d hd => ⟨hd, ?_⟩) ?_
  · intro s hs
    have hmem : s ∈ d.snapshots id := mem_of_lookup hs
    unfold Daemon.snapshots at hmem
    split at hmem
    · cases hmem
    · next m hm =>
      have hid : m.id = id := key_of_lookup hm
      exact hid ▸ hd m (mem_of_lookup hm) s (Or.inl hmem)
  · intro r
    cases r with
    | none => exact Act.Spec.pure fun _ h => h.1
    | some s =>
      refine Act.Spec.ite (fun _ => ?_) fun _ => Act.Spec.pure fun _ h => h.1
      -- what is known of the snapshot does not depend on the state
      intro d hd
      have hs := hd.2 s rfl
      refine (KeepsStored.bind (.throwIf _ _) fun _ => .bind (call_keeps _) fun _ =>
        .bind (.modify fun d hd => ?_) fun _ => .modify fun d hd => hd.modSnapshot flushed_keeps)
          d hd.1
      exact hd.modMeta (fun _ => rfl) fun m hid hm => hm.write (hid ▸ hs)

theorem nextNumber_keeps : KeepsStored apart (nextNumber env id) := by
  refine .bind (.read _) fun snapshots => .bind (.read _) fun m => ?_
  dsimp only
  split
  · exact .throw _
  · refine .bind (call_keeps _) fun _ => .bind (.modify fun _ hd => ?_) fun _ => .pure _
    exact hd.modMeta (fun _ => rfl) fun _ _ hm => hm

theorem removeDir_keeps : KeepsStored apart (removeDir env id num) :=
  .modify fun _ hd => hd.modMeta (fun _ => rfl) fun _ _ hm => hm

/-- The helper puts a storable snapshot into the list and on disk, or removes a directory. -/
theorem createHelper_keeps {s : Snapshot} (hs : s.Storable) :
    KeepsStored apart (createHelper env id s) := by
  refine .bind (.throwIf _ _) fun _ => ?_
  split
  · exact .bind removeDir_keeps fun _ => .throw _
  · exact .throw _
  · split
    · exact .bind (call_keeps _) fun _ => .bind removeDir_keeps fun _ => .throw _
    · exact .throw _
    · exact .modify fun _ hd => hd.insert hs

/-- Only a post snapshot is given the number of a pre snapshot. -/
theorem createSnapshot_keeps {type : SnapshotType} {preNum : UInt32} {description : Str}
    (hpre : type ≠ .POST → preNum = 0) :
    KeepsStored apart (createSnapshot env id type preNum description) :=
  .bind nextNumber_keeps fun _ =>
    .bind (createHelper_keeps ⟨hpre, fun _ he => nomatch he⟩) fun _ => .pure _

/-- A post snapshot gets the number of its pre snapshot, which is written with it. -/
theorem createPostSnapshot_keeps {description : Str} {pre : Option Snapshot} :
    KeepsStored apart (createPostSnapshot env id description pre) := by
  refine .bind (.read _) fun snapshots => ?_
  cases pre with
  | none => exact .throw _
  | some pre =>
    exact .ite (fun _ => .throw _) fun _ => createSnapshot_keeps fun h => absurd rfl h

/-- What a handler does after the creation sets fields and writes them. -/
theorem finishCreate_keeps {cleanup : Str} {userdata : StrMap} :
    KeepsStored apart (finishCreate env id num cleanup userdata) :=
  .bind (getUnixUserid_keeps _) fun uid =>
    .bind (setField_keeps (setUid_keeps uid)) fun _ =>
      .bind (setField_keeps (setCleanup_keeps cleanup)) fun _ =>
        .bind (setUserdata_action_keeps userdata) fun _ => flushInfo_keeps _

theorem send_keeps (msg : Sent) : KeepsStored apart (Act.modify (Daemon.send msg)) :=
  .modify fun _ hd => hd

/-- The handlers of the requests that create and change snapshots keep them storable. -/
theorem handle_stores {request : Request} (h : request.makes = true) :
    KeepsStored apart (handle env me request) := by
  cases request with
  | setSnapshot configName num description cleanup userdata =>
    refine .bind (openConfig_keeps _) fun m => .bind (.bind (.read _) fun r => ?_) fun s =>
      .bind (setField_keeps (setDescription_keeps description)) fun _ =>
        .bind (setField_keeps (setCleanup_keeps cleanup)) fun _ =>
          .bind (setUserdata_action_keeps userdata) fun _ =>
            .bind (flushInfo_keeps _) fun _ => .bind (send_keeps _) fun _ => send_keeps _
    cases r with
    | none => exact .throw _
    | some s => exact .pure s
  | createSingleSnapshot configName description cleanup userdata =>
    exact .bind (openConfig_keeps _) fun m => .bind (createSnapshot_keeps fun _ => rfl) fun num =>
      .bind finishCreate_keeps fun _ => .bind (send_keeps _) fun _ => send_keeps _
  | createPreSnapshot configName description cleanup userdata =>
    exact .bind (openConfig_keeps _) fun m => .bind (createSnapshot_keeps fun _ => rfl) fun num =>
      .bind finishCreate_keeps fun _ => .bind (send_keeps _) fun _ => send_keeps _
  | createPostSnapshot configName preNum description cleanup userdata =>
    refine .bind (openConfig_keeps _) fun m => .bind (.read _) fun pre =>
      .bind createPostSnapshot_keeps fun num => .bind finishCreate_keeps fun _ => ?_
    have hend : KeepsStored apart (do
        sendReply me (.number num)
        signal (.snapshotCreated configName num)) := .bind (send_keeps _) fun _ => send_keeps _
    -- the background comparison only raises the use count
    have htask : KeepsStored apart (addTask ⟨m.id, preNum, num⟩) :=
      .bind (.modify fun _ hd => hd) fun _ =>
        .modify fun d hd => hd.modMeta (fun _ => rfl) fun _ _ hm => hm
    exact KeepsStored.ite (fun _ => .bind htask fun _ => hend) fun _ => hend
  | _ => cases h

/-- A request with its answer. -/
theorem dispatch_stores {request : Request} {d : Daemon} (h : request.makes = true)
    (hd : d.Stores apart) : (dispatch env me request d).Stores apart := by
  have hkeeps : KeepsStored apart (handle env me request) := handle_stores h
  have hspec := hkeeps d hd
  unfold dispatch
  cases hrun : (handle env me request).run d with
  | mk r d' =>
    rw [hrun] at hspec
    cases r with
    | ok _ => exact hspec
    | error e => exact hspec

end Handlers

/-! ## The restart -/

/-- The state after requests, each with what is outside and with its sender. -/
def serve (requests : List (Env × Str × Request)) (start : Daemon) : Daemon :=
  requests.foldl (fun d r => dispatch r.1 r.2.1 r.2.2 d) start

/-- A snapshot of this number was there that no request can have made. -/
def Unmade (start : Daemon) (id : Nat) (num : UInt32) : Prop :=
  ∃ m ∈ start.metaSnappers, m.id = id ∧
    ∃ s, (s ∈ m.snapshots ∨ s ∈ m.disk.infos) ∧ s.num = num ∧ ¬s.Storable

/-- At the beginning everything that is not storable was not made by a request. -/
theorem stores_unmade (start : Daemon) : start.Stores (Unmade start) := by
  intro m hm s hs
  by_cases hstorable : s.Storable
  · exact Or.inr hstorable
  · exact Or.inl ⟨m, hm, rfl, s, hs, rfl, hstorable⟩

/-- The requests keep the snapshots storable that they make. -/
theorem serve_stores {apart : Nat → UInt32 → Prop} {requests : List (Env × Str × Request)}
    {start : Daemon} (hmakes : ∀ r ∈ requests, r.2.2.makes = true) (hstart : start.Stores apart) :
    (serve requests start).Stores apart := by
  induction requests generalizing start with
  | nil => exact hstart
  | cons r requests ih =>
    exact ih (fun r' hr' => hmakes r' (List.mem_cons_of_mem _ hr'))
      (dispatch_stores (hmakes r (List.mem_cons_self ..)) hstart)

/-- A text that XML does not allow makes the `info.xml` unreadable. -/
theorem read_writeInfo_none {xml : LibXml} {datetime : Int64 → Str} {s : Snapshot}
    (hxml : xml.Faithful) (hnul : s.NoNul) (hascii : ∀ b ∈ datetime s.date, 32 ≤ b ∧ b < 127)
    (hbad : ¬s.XmlTexts) : xml.read (xml.dump (s.writeInfo datetime)) = none := by
  obtain ⟨t, ht, hnot⟩ : ∃ t ∈ (s.writeInfo datetime).texts, isXmlText t = false := by
    by_contra hall
    refine hbad ((writeInfo_texts hnul hascii).mp fun t ht => ?_)
    by_contra h
    exact hall ⟨t, ht, by simpa using h⟩
  exact hxml.refuses _ (writeInfo_plain datetime s) ⟨t, ht, hnot⟩

/-- A snapshot that was created and changed by requests is read from the `info.xml` that was
written of it exactly when all its texts are made of characters that XML allows. -/
theorem info_survives_iff (xml : LibXml) (datetime : Int64 → Str) (scanDatetime : Str → Int64)
    (checkSnapshot : UInt32 → Bool) (unset : Name → UInt32) (hxml : xml.Faithful)
    (hdates : DatesFaithful datetime scanDatetime) (start : Daemon)
    (requests : List (Env × Str × Request)) (hmakes : ∀ r ∈ requests, r.2.2.makes = true)
    (m : MetaSnapper) (hm : m ∈ (serve requests start).metaSnappers) (s : Snapshot)
    (hs : s ∈ m.snapshots) (hmade : ¬Unmade start m.id s.num) (hnum : s.num ≠ 0)
    (hdate : InRange s.date) (hnul : s.NoNul) (hcheck : checkSnapshot s.num = true) :
    (∃ s', readEntry scanDatetime checkSnapshot unset
        (decString s.num.toNat, xml.read (xml.dump (s.writeInfo datetime))) = some s' ∧
        s.SameInfo s') ↔
      s.XmlTexts := by
  -- what requests make can be stored: the invariant over the run
  have hstorable : s.Storable :=
    (serve_stores hmakes (stores_unmade start) m hm s (Or.inl hs)).resolve_left hmade
  have hascii := hdates.ascii _ hdate
  constructor
  · intro ⟨s', hread, _⟩
    -- the document would not be well-formed
    by_contra hbad
    rw [read_writeInfo_none hxml hnul hascii hbad] at hread
    cases hread
  · intro hgood
    rw [hxml.reads _ (writeInfo_plain datetime s) ((writeInfo_texts hnul hascii).mpr hgood)]
    exact readInfo_writeInfo hdates hstorable hnul hdate hnum hcheck

/-! ## A snapshot that is lost -/

/-- A file is the document itself; one with other texts than XML allows is refused. -/
def plainXml : LibXml where
  File := XmlNode
  dump root := root
  read root := if root.texts.all isXmlText then some [root.shown] else none

/-- This reader and writer of documents is as faithful as libxml2 has to be. -/
theorem plainXml_faithful : plainXml.Faithful where
  reads root _ h := if_pos (List.all_eq_true.mpr h)
  refuses root _ h := by
    obtain ⟨t, ht, hnot⟩ := h
    refine if_neg fun hall => ?_
    rw [List.all_eq_true.mp hall t ht] at hnot
    cases hnot

/-- The text of the first second of 1970 is that of `strftime`; the others only differ. -/
def plainDatetime (date : Int64) : Str :=
  if date = 0 then str "1970-01-01 00:00:00" else decString date.toInt.toNat

/-- The reader of these dates. -/
def plainScan (s : Str) : Int64 :=
  if s = str "1970-01-01 00:00:00" then 0 else Int64.ofNat (digitsValue s)

/-- These dates are as faithful as those of the C library have to be. -/
theorem plainDates_faithful : DatesFaithful plainDatetime plainScan where
  inverse date h := by
    unfold plainDatetime plainScan
    by_cases hzero : date = 0
    · simp [hzero]
    -- the two spellings are told apart by their hyphens
    · have hdigit : decString date.toInt.toNat ≠ str "1970-01-01 00:00:00" := by
        intro heq
        have hdash : (45 : UInt8) ∈ decString date.toInt.toNat := heq ▸ by decide
        exact absurd (isDigit_of_mem_decString hdash) (by decide)
      rw [if_neg hzero, if_neg hdigit, digitsValue_decString]
      rw [← Int64.toInt_inj, Int64.toInt_ofNat_of_lt]
      · exact Int.toNat_of_nonneg h.1
      · have := h.2
        omega
  ascii date h b hb := by
    unfold plainDatetime at hb
    split at hb
    · exact forall_mem_of_all (P := fun b => 32 ≤ b ∧ b < 127) (by decide) b hb
    · have hdigit := isDigit_of_mem_decString hb
      simp only [isDigit, decide_eq_true_eq] at hdigit
      exact ⟨le_trans (by decide) hdigit.1, lt_of_le_of_lt hdigit.2 (by decide)⟩

/-- The config `root` with its first snapshot and one that root has created. -/
def rootCreated (description : Str) : Daemon :=
  serve [(Env.quiet, str ":1.7", .createSingleSnapshot (str "root") description [] .empty)]
    .rootOnly

/-- The snapshot that root has created. -/
def created (description : Str) : Snapshot :=
  { Snapshot.new .SINGLE 2 0 with description := description }

/-- The list then has the current system and two snapshots. -/
theorem rootCreated_snapshots (description : Str) :
    ∃ m, (rootCreated description).metaSnappers = [m] ∧
      m.snapshots = [Snapshot.current, .new .SINGLE 1 0, created description] :=
  ⟨_, rfl, rfl⟩

theorem created_noNul {description : Str} (h : 0 ∉ description) : (created description).NoNul :=
  ⟨h, List.not_mem_nil, fun _ he => nomatch he⟩

/-- A snapshot that root has created is read as it was written. -/
theorem info_survives_iff_created :
    (∃ s', readEntry plainScan (fun _ => true) (fun _ => 0)
      (decString (created (str "before")).num.toNat,
        plainXml.read (plainXml.dump ((created (str "before")).writeInfo plainDatetime))) =
          some s' ∧ (created (str "before")).SameInfo s') ↔
      (created (str "before")).XmlTexts := by
  obtain ⟨m, hm, hsnapshots⟩ := rootCreated_snapshots (str "before")
  -- the one snapshot that was there at the start has another number
  have hmade : ¬Unmade .rootOnly m.id (created (str "before")).num := by
    rintro ⟨m', hm', -, s', hs', hnum, -⟩
    rw [List.mem_singleton.mp hm'] at hs'
    rcases hs' with hs' | hs'
    · cases hs'
    · rw [List.mem_singleton.mp hs'] at hnum
      cases hnum
  exact info_survives_iff plainXml plainDatetime plainScan (fun _ => true) (fun _ => 0)
    plainXml_faithful plainDates_faithful .rootOnly
    [(Env.quiet, str ":1.7", .createSingleSnapshot (str "root") (str "before") [] .empty)]
    (by decide) m (by rw [← rootCreated, hm]; exact List.mem_singleton_self m)
    (created (str "before")) (by rw [hsnapshots]; simp) hmade (by decide) (by decide)
    (created_noNul (by decide)) rfl

/-- Root creates a snapshot with a control character for its description: the request is
answered with the number 2, and after a restart there is no snapshot 2. -/
theorem created_snapshot_lost :
    (rootCreated [1]).sent = [.reply (str ":1.7") (.number 2), .snapshotCreated (str "root") 2] ∧
    (∃ m ∈ (rootCreated [1]).metaSnappers, created [1] ∈ m.snapshots) ∧
    InRange (created [1]).date ∧ (created [1]).NoNul ∧
    readEntry plainScan (fun _ => true) (fun _ => 0)
      (decString (created [1]).num.toNat,
        plainXml.read (plainXml.dump ((created [1]).writeInfo plainDatetime))) = none := by
  obtain ⟨m, hm, hsnapshots⟩ := rootCreated_snapshots [1]
  have hnul : (created [1]).NoNul := created_noNul (by decide)
  have hdate : InRange (created [1]).date := by decide
  refine ⟨rfl, ⟨m, by simp [hm], by simp [hsnapshots]⟩, hdate, hnul, ?_⟩
  rw [read_writeInfo_none plainXml_faithful hnul (plainDates_faithful.ascii _ hdate)
    fun h => absurd h.description (by decide)]
  rfl

end Snapper.Server
