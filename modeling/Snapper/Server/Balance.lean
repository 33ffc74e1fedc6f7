import Snapper.Server.Stays
import Snapper.Server.Tally

/-!
# Mount use counts and clients

`add_mount` and `mountFilesystemSnapshot` count the same mount on two sides, a comparison counts
both snapshots up and down, and the counts of the snapshots are lost when the config is unloaded.

## Main results

* `Balanced.step`: a step that counts both sides keeps them equal.
* `use_counts_match`: so they are equal in runs of such steps.
-/

namespace Snapper.Server

open General Act

/-! ## The invariant -/

/-- The count of every loaded snapshot is the sum of what the clients and their comparisons have
mounted.  The other fields are what the steps need for that: the snapshots of positive count were
checked for a mount of the user, no client has an entry of zero uses, and the background, whose
comparisons no client counts, has nothing to do. -/
structure Balanced (d : Daemon) : Prop where
  base : d.Base
  found : d.Found
  counts : ∀ m ∈ d.metaSnappers, ∀ s ∈ m.snapshots,
    s.mountUseCount.toNat = d.mountUses (mountKey m.configName s.num)
  checked : ∀ m ∈ d.metaSnappers, ∀ s ∈ m.snapshots, s.mountUseCount ≠ 0 → s.mountChecked = true
  uses : ∀ c ∈ d.clients, ∀ key use, c.mounts.find key = some use → use ≠ 0
  tasks : d.tasks = []
  background : d.background = .waiting

section Balanced

variable {d₀ d d' : Daemon} {configName name : Str} {num : UInt32} {m : MetaSnapper} {env : Env}
  {id : Nat} {client : Client} {g : Client → Client} {key : MountKey} {uses : MountKey → ℕ}
  {f : MetaSnapper → MetaSnapper}

/-- A balanced daemon is the beginning of its own tally: nothing has been counted on either side
yet. -/
theorem Balanced.tallied (h : Balanced d) : Tallied d d.mountUses d :=
  ⟨h.base, h.counts, h.checked, rfl, rfl, rfl, rfl⟩

/-- When a sequence of calls has left the counts as they were, the clients are those of the
beginning, and so both sides are still the same. -/
theorem Tallied.balanced (h : Tallied d₀ d₀.mountUses d) (h₀ : Balanced d₀) : Balanced d := by
  refine ⟨h.base, found_of_configs h.base h.configs h₀.found, ?_, h.checked, ?_,
    h.tasks.trans h₀.tasks, h.background.trans h₀.background⟩
  · rw [mountUses_congr h.clients (keyOf_of_configs h.configs)]
    exact h.counts
  · rw [h.clients]
    exact h₀.uses

/-- A change of the configs that keeps their lists. -/
theorem Balanced.metas (h : Balanced d) (hbase : d'.Base)
    (hf : ∀ m, (f m).id = m.id ∧ (f m).configName = m.configName ∧ (f m).snapper = m.snapper)
    (hmetas : d'.metaSnappers = d.metaSnappers.map f) (hclients : d'.clients = d.clients)
    (htasks : d'.tasks = d.tasks) (hbackground : d'.background = d.background) : Balanced d' :=
  (h.tallied.metas hbase hf hmetas hclients htasks hbackground).balanced h

/-- A message to a client or a listener changes neither side. -/
theorem Balanced.send {msg : Sent} (h : Balanced d) : Balanced (d.send msg) := by
  apply h.metas (f := fun m => m) h.base.send _ (List.map_id _).symm rfl rfl rfl
  exact fun _ => ⟨rfl, rfl, rfl⟩

/-- The time of the last use of a config has nothing to do with the mounts of its snapshots. -/
theorem Balanced.use {now : Int} (h : Balanced d) :
    Balanced (d.modMeta id fun m => { m with lastUsed := now }) := h.tallied.use.balanced h

/-- The count of the config is another count: it says how many comparisons and tasks refer to it.
-/
theorem Balanced.incUseCount (h : Balanced d) : Balanced (incUseCount id d) := by
  apply h.metas h.base.incUseCount _ rfl rfl rfl rfl
  intro m
  dsimp only
  split
  · exact ⟨rfl, rfl, rfl⟩
  · exact ⟨rfl, rfl, rfl⟩

/-- The end of a comparison gives back the use of the config, not the mounts of its snapshots. -/
theorem Balanced.release (h : Balanced d) : Balanced (d.release env id) := by
  apply h.metas h.base.release _ rfl rfl rfl rfl
  intro m
  split
  · exact ⟨rfl, rfl, rfl⟩
  · exact ⟨rfl, rfl, rfl⟩

/-- A client counts on its side what was counted on the other: the sum over the clients changes by
what the one client changes, and `hweight` says that this is what the tally has changed. -/
theorem Tallied.modClient (h : Tallied d₀ uses d) (h₀ : Balanced d₀)
    (hclient : d₀.client name = some client) (hname : ∀ c, (g c).name = c.name)
    (hweight : ∀ key, d₀.mountUses key + (g client).mountUses d₀ key =
      uses key + client.mountUses d₀ key)
    (huses : ∀ key use, (g client).mounts.find key = some use → use ≠ 0) :
    Balanced (d.modClient name g) := by
  have hkeys := keyOf_of_configs h.configs
  have hclient' : d.client name = some client := by rw [Daemon.client, h.clients]; exact hclient
  have hmounted : (d.modClient name g).mountUses = uses := by
    funext key
    -- the one client changes the sum by what `hweight` says
    have hchange : (d.modClient name g).mountUses key + client.mountUses d key = _ :=
      mountUses_modClient h.base hclient'
    have hsame : ∀ c : Client, c.mountUses d key = c.mountUses d₀ key := by
      intro c
      rw [Client.mountUses, Client.mountUses, worker_mountsOf_congr hkeys]
    rw [mountUses_congr h.clients hkeys, hsame, hsame, hweight] at hchange
    exact Nat.add_right_cancel hchange
  have hfound : d.Found := found_of_configs h.base h.configs h₀.found
  -- the counts are those of the tally, and the entries of the other clients are old ones
  refine ⟨h.base.modClient hname, hfound, ?_, h.checked, ?_, h.tasks.trans h₀.tasks,
    h.background.trans h₀.background⟩
  · rw [hmounted]
    exact h.counts
  · intro c hc
    obtain ⟨c', hc', ⟨hcname, rfl⟩ | ⟨-, rfl⟩⟩ := mem_update hc
    · have hsame := h.base.addresses.client_of_mem hc'
      rw [hcname, hclient'] at hsame
      obtain rfl := Option.some.inj hsame
      exact huses
    · rw [h.clients] at hc'
      exact h₀.uses c hc'

/-- A client that keeps its mounts, with a worker that has no snapshots mounted. -/
theorem Balanced.modClient (h : Balanced d) (hclient : d.client name = some client)
    (hname : ∀ c, (g c).name = c.name) (hmounts : (g client).mounts = client.mounts)
    (hworker : ∀ key, (g client).worker.mountsOf d key = client.worker.mountsOf d key) :
    Balanced (d.modClient name g) := by
  apply h.tallied.modClient h hclient hname
  · intro key
    rw [Client.mountUses, Client.mountUses, Client.mountsOf, hmounts, hworker]
    rfl
  · rw [hmounts]
    exact h.uses client (mem_of_client hclient)

/-- A change of a client that touches neither its mounts nor its worker, such as a lock, a
comparison or a request in its queue.  Where there is no such client nothing changes. -/
theorem Balanced.modClient_same (h : Balanced d) (hname : ∀ c, (g c).name = c.name)
    (hmounts : ∀ c, (g c).mounts = c.mounts) (hworker : ∀ c, (g c).worker = c.worker) :
    Balanced (d.modClient name g) := by
  cases hclient : d.client name with
  | none =>
    have hsame : d.modClient name g = d := by
      rw [Daemon.modClient, update_of_not_mem (lookup_eq_none_iff.mp hclient)]
    rw [hsame]
    exact h
  | some client =>
    apply h.modClient hclient hname (hmounts client)
    intro key
    rw [hworker]

/-- Giving a mount back changes the mounts of a client only, whichever branch is taken. -/
theorem removeMount_same {c : Client} : (c.removeMount configName num).name = c.name ∧
    (c.removeMount configName num).worker = c.worker := by
  rw [Client.removeMount]
  split
  · exact ⟨rfl, rfl⟩
  · split
    · exact ⟨rfl, rfl⟩
    · exact ⟨rfl, rfl⟩

/-- `MountSnapshot` enters the mount at the client after it was counted at the snapshot.  The
entry is of one use more than before, so that it is not of zero uses as long as the count does not
wrap. -/
theorem Balanced.addMount (h₀ : Balanced d₀)
    (h : Tallied d₀ (fun key => d₀.mountUses key + single (some (mountKey configName num)) 1 key) d)
    (hclient : d₀.client name = some client)
    (hlt : d₀.mountUses (mountKey configName num) + 1 < 2 ^ 32) :
    Balanced (d.modClient name (Client.addMount configName num)) := by
  -- the uses of one client are among those of all, so they do not wrap either
  have hle : client.mountsOf (mountKey configName num) ≤ d₀.mountUses (mountKey configName num) :=
    mountsOf_le_mountUses (mem_of_client hclient)
  have hlt' : client.mountsOf (mountKey configName num) + 1 < 2 ^ 32 := by omega
  refine h.modClient h₀ hclient (by intro; rfl) ?_ ?_
  · intro key
    rw [Client.mountUses, Client.mountUses, mountsOf_addMount hlt']
    show _ + (_ + client.worker.mountsOf d₀ key) = _
    omega
  · intro key use hfind hzero
    rw [Client.addMount, SortedMap.find_set] at hfind
    split at hfind
    · have huse := congrArg UInt32.toNat (Option.some.inj hfind)
      rw [hzero, UInt32.toNat_add] at huse
      have hmod := Nat.mod_eq_of_lt hlt'
      rw [Client.mountsOf] at hmod
      have hzero' : (0 : UInt32).toNat = 0 := rfl
      have hone : (1 : UInt32).toNat = 1 := rfl
      rw [hzero', hone, hmod] at huse
      omega
    · exact h₀.uses client (mem_of_client hclient) key use hfind hzero

/-- `UmountSnapshot` takes one use away from the entry of the client after the snapshot was
counted down.  An entry of one use is erased, so no entry of zero uses is left behind. -/
theorem Balanced.removeMount (h₀ : Balanced d₀)
    (h : Tallied d₀ (fun key => d₀.mountUses key - single (some (mountKey configName num)) 1 key) d)
    (hclient : d₀.client name = some client)
    (hpos : 0 < client.mountsOf (mountKey configName num)) :
    Balanced (d.modClient name (Client.removeMount configName num)) := by
  refine h.modClient h₀ hclient (fun _ => removeMount_same.1) ?_ ?_
  · intro key
    -- the client gives back the one use that the snapshot has lost
    have hle : client.mountsOf key ≤ d₀.mountUses key :=
      mountsOf_le_mountUses (mem_of_client hclient)
    rw [Client.mountUses, Client.mountUses, mountsOf_removeMount, removeMount_same.2]
    by_cases hkey : key = mountKey configName num
    · subst hkey
      rw [single_self]
      omega
    · rw [single_other hkey]
      omega
  · have huses := h₀.uses client (mem_of_client hclient)
    intro key use hfind
    rw [Client.removeMount] at hfind
    split at hfind
    · exact huses key use hfind
    · next use' _ =>
      split at hfind
      · next hmore =>
        rw [SortedMap.find_set] at hfind
        split at hfind
        -- a count that was above one stays above zero
        · rintro rfl
          have hle : (1 : UInt32) ≤ use' := UInt32.le_of_lt hmore
          have huse := congrArg UInt32.toNat (Option.some.inj hfind)
          rw [UInt32.toNat_sub_of_le _ _ hle] at huse
          have hlt := UInt32.lt_iff_toNat_lt.mp hmore
          have hzero : (0 : UInt32).toNat = 0 := rfl
          omega
        · exact huses key use hfind
      · rw [SortedMap.find_erase] at hfind
        split at hfind
        · cases hfind
        · exact huses key use hfind

/-- A client that has a mount has it for one use at least. -/
theorem Balanced.mountsOf_pos (h : Balanced d) (hclient : client ∈ d.clients)
    (hsome : (client.mounts.find key).isSome = true) : 0 < client.mountsOf key := by
  obtain ⟨use, huse⟩ := Option.isSome_iff_exists.mp hsome
  have hne := h.uses client hclient key use huse
  rw [Client.mountsOf, huse]
  exact Nat.pos_of_ne_zero fun hzero => hne (UInt32.toNat_inj.mp hzero)

/-! ## Loading -/

/-- A config that is loaded for a request has no mounts. -/
def Daemon.NoneLost (d : Daemon) (m : MetaSnapper) : Prop :=
  m.isLoaded = false → ∀ s ∈ m.shown, d.mounted (mountKey m.configName s.num) = 0

/-- What is read from disk is not mounted. -/
theorem count_of_read {disk : Disk} {s : Snapshot} (hdisk : disk.WF) (hs : s ∈ disk.read) :
    s.mountUseCount = 0 := by
  rcases mem_read.mp hs with rfl | hread
  · rfl
  · rw [← hdisk.stored s (mem_infos_of_readable hread)]
    rfl

/-- Comparisons are of configs that are loaded. -/
theorem Balanced.mountUses_unloaded (h : Balanced d) (hcounted : Counted d)
    (hfind : d.find configName = some m) (hunloaded : m.isLoaded = false) :
    d.mountUses (mountKey configName num) = d.mounted (mountKey configName num) := by
  rw [Daemon.mountUses, Daemon.mounted]
  -- client by client: only a comparison in the making could add to the entries
  congr 1
  apply List.map_congr_left
  intro c hc
  rw [Client.mountUses]
  cases hworker : c.worker with
  | comparing making =>
    obtain ⟨⟨m', hm', hsnapper⟩, -, -⟩ := hcounted.makings c hc making hworker
    have hloaded : m'.isLoaded = true := by
      obtain ⟨loaded, hsome, -⟩ := Option.map_eq_some_iff.mp hsnapper
      rw [MetaSnapper.isLoaded, hsome]
      rfl
    have hnone : ∀ num',
        single (d.keyOf making.metaSnapper num') 1 (mountKey configName num) = 0 := by
      intro num'
      by_cases hzero : num' = 0
      · rw [hzero, keyOf_current, single_none]
      · rw [keyOf_eq hzero hm']
        apply single_other
        -- the config of the comparison would be the one that is not loaded
        intro hkey
        have hfind' := h.found m' (mem_of_metaSnapper hm') hloaded
        rw [← (mountKey_inj hkey).1, hfind] at hfind'
        obtain rfl := Option.some.inj hfind'
        rw [hunloaded] at hloaded
        cases hloaded
    have hzero : making.mountsOf d (mountKey configName num) = 0 := by
      rw [Making.mountsOf]
      split
      · rw [hnone, hnone]
      · rfl
    rw [Worker.mountsOf, hzero, Nat.add_zero]
  | waiting => rfl
  | ended => rfl

/-- A change of a config that keeps its address and its name keeps what its snapshots are called
in the mounts of a client. -/
theorem keyOf_modMeta (hid : ∀ m, (f m).id = m.id) (hname : ∀ m, (f m).configName = m.configName)
    (id' : Nat) (num : UInt32) : (d.modMeta id f).keyOf id' num = d.keyOf id' num := by
  rw [Daemon.keyOf, Daemon.keyOf, metaSnapper_modMeta_ite hid, Option.map_map]
  split
  · rfl
  · congr 1
    funext m
    show mountKey (if m.id = id then f m else m).configName num = _
    split
    · rw [hname]
    · rfl

/-- Loading a config brings snapshots of count zero into the list.  Both sides stay the same only
when no client has a mount of them: the mounts of the clients are kept over an unload, and the
counts of the snapshots are not. -/
theorem Balanced.load (h : Balanced d) (hcounted : Counted d) (hfind : d.find configName = some m)
    (hunloaded : m.isLoaded = false) (hlost : d.NoneLost m) : Balanced (d.load m.id) := by
  have hself : ∀ m₁ ∈ d.metaSnappers, m₁.id = m.id → m₁ = m := by
    intro m₁ hm₁ hid
    have hsame := h.base.addresses.metaSnapper_of_mem hm₁
    rw [hid, h.base.addresses.metaSnapper_of_find hfind] at hsame
    exact (Option.some.inj hsame).symm
  have hnone : m.snapper = none := by simpa [MetaSnapper.isLoaded] using hunloaded
  have hname := configName_of_find hfind
  have huses : (d.load m.id).mountUses = d.mountUses :=
    mountUses_congr rfl (keyOf_modMeta (by intro; rfl) (by intro; rfl))
  have hread : ∀ s ∈ m.disk.read, s.mountUseCount = 0 := fun s hs =>
    count_of_read (h.base.numbered m (mem_of_find hfind)).disk hs
  -- the config is found as before, its counts are zero, and a count of zero was never checked
  refine ⟨h.base.load, ?_, ?_, ?_, h.uses, h.tasks, h.background⟩
  · intro m' hm' hloaded
    show (d.modMeta m.id _).find m'.configName = some m'
    obtain ⟨m₁, hm₁, ⟨hid, rfl⟩ | ⟨hne, rfl⟩⟩ := mem_update hm'
    · obtain rfl := hself m₁ hm₁ hid
      rw [find_modMeta (by intro; rfl)]
      show (d.find m₁.configName).map _ = _
      rw [hname, hfind]
      exact congrArg some (if_pos rfl)
    · rw [find_modMeta (by intro; rfl), h.found m' hm₁ hloaded]
      exact congrArg some (if_neg hne)
  · rw [huses]
    intro m' hm' s hs
    obtain ⟨m₁, hm₁, ⟨hid, rfl⟩ | ⟨-, rfl⟩⟩ := mem_update hm'
    · obtain rfl := hself m₁ hm₁ hid
      have hmem : s ∈ m₁.disk.read := hs
      -- a snapshot that was just read has no uses, and by `hlost` nobody has one of it
      rw [hread s hmem]
      show 0 = d.mountUses (mountKey m₁.configName s.num)
      rw [← shown_of_unloaded hnone] at hmem
      rw [hname, h.mountUses_unloaded hcounted hfind hunloaded, ← hname]
      exact (hlost hunloaded s hmem).symm
    · exact h.counts m' hm₁ s hs
  · intro m' hm' s hs hcount
    obtain ⟨m₁, hm₁, ⟨hid, rfl⟩ | ⟨-, rfl⟩⟩ := mem_update hm'
    · obtain rfl := hself m₁ hm₁ hid
      exact absurd (hread s hs) hcount
    · exact h.checked m' hm₁ s hs hcount

/-- The common beginning of the handlers loads the config if it is not loaded yet and notes the
time. -/
theorem Balanced.opened (h : Balanced d) (hcounted : Counted d) (hfind : d.find configName = some m)
    (hlost : d.NoneLost m) : Balanced (d.opened env m) := by
  rw [Daemon.opened]
  cases hloaded : m.isLoaded with
  | true => exact h.use
  | false => exact (h.load hcounted hfind hloaded hlost).use

theorem opened_clients : (d.opened env m).clients = d.clients := by
  rw [Daemon.opened]
  split
  · rfl
  · rfl

/-- What is mounted is the same once a config is loaded. -/
theorem mountUses_opened : (d.opened env m).mountUses = d.mountUses := by
  have hkeys : ∀ id num, (d.opened env m).keyOf id num = d.keyOf id num := by
    intro id num
    rw [Daemon.opened, keyOf_modMeta (by intro; rfl) (by intro; rfl)]
    split
    · rfl
    · exact keyOf_modMeta (by intro; rfl) (by intro; rfl) id num
  exact mountUses_congr opened_clients hkeys

end Balanced

/-! ## Requests that mount, unmount and compare -/

/-- The request mounts or unmounts a snapshot, or is about a comparison. -/
def Request.mounting : Request → Bool
  | .mountSnapshot .. => true
  | .umountSnapshot .. => true
  | .createComparison .. => true
  | .deleteComparison .. => true
  | .getFiles .. => true
  | _ => false

/-- The request counts both sides, or neither: the config that it loads has no mounts, a mount
that is counted does not fail afterwards and does not wrap, and an unmount is of a client that has
the mount. -/
def Request.Matched (env : Env) (me : Str) (d : Daemon) : Request → Prop
  | .mountSnapshot configName num userRequest => ∀ m, Opens env configName d m →
    d.NoneLost m ∧ (userRequest = false → ∀ s ∈ m.shown, s.num = num →
      s.isCounted env configName = true → env.fault (.mountSnapshot num) = none ∧
        d.mountUses (mountKey configName num) + 1 < 2 ^ 32)
  | .umountSnapshot configName num userRequest => ∀ m, Opens env configName d m →
    d.NoneLost m ∧ (userRequest = false → ∀ s ∈ m.shown, s.num = num →
      s.isCounted env configName = true →
        ∃ c, d.client me = some c ∧ (c.mounts.find (mountKey configName num)).isSome = true)
  | .createComparison configName _ _ => ∀ m, Opens env configName d m → d.NoneLost m
  | .deleteComparison configName _ _ => ∀ m, Opens env configName d m → d.NoneLost m
  | .getFiles configName _ _ => ∀ m, Opens env configName d m → d.NoneLost m
  | _ => True

section Requests

variable {env : Env} {me configName : Str} {num num1 num2 : UInt32} {userRequest : Bool}
  {d : Daemon} {request : Request} {id : Nat}

/-- A handler that opens the config first.  Where that fails it has changed nothing; where it does
not, only the rest of the handler is left to look at. -/
theorem opened_balanced {act : MetaSnapper → Handler PUnit} (h : Balanced d) (hcounted : Counted d)
    (hlost : ∀ m, Opens env configName d m → d.NoneLost m)
    (hact : ∀ m, Opens env configName d m → Balanced (d.opened env m) →
      Balanced ((act m).run (d.opened env m)).2) :
    Balanced ((openConfig env configName >>= act).run d).2 := by
  by_cases hopen : ∃ m, Opens env configName d m
  · obtain ⟨m, hopens⟩ := hopen
    rw [Act.run_bind_ok (openConfig_run h.base.addresses hopens)]
    exact hact m hopens (h.opened hcounted hopens.find (hlost m hopens))
  · have hno : ∀ m, ¬ Opens env configName d m := fun m hm => hopen ⟨m, hm⟩
    obtain ⟨e, hrun⟩ := openConfig_run_not h.base.addresses hno
    rw [Act.run_bind_error hrun]
    exact h

/-- A handler that opens the config and finds the snapshot: the rest of it is run with a snapshot
of the list that the config shows, in a state in which the clients still have what they had. -/
theorem found_balanced {act : MetaSnapper → Snapshot → Handler PUnit} (h : Balanced d)
    (hcounted : Counted d) (hlost : ∀ m, Opens env configName d m → d.NoneLost m)
    (hact : ∀ m s d₁ m₁, Opens env configName d m → s ∈ m.shown → s.num = num → Balanced d₁ →
      d₁.find configName = some m₁ → m₁.id = m.id → d₁.clients = d.clients →
      d₁.mountUses = d.mountUses → Balanced ((act m s).run d₁).2) :
    Balanced ((do
      let m ← openConfig env configName
      let snapshot ← getSnapshot m.id num
      act m snapshot : Handler PUnit).run d).2 := by
  apply opened_balanced h hcounted hlost
  intro m hopens hbalanced
  have hthrough : Through Edit Daemon.Base (openConfig env configName)
      fun m d => d.Serves configName m := openConfig_through
  have hpost := (hthrough d h.base).2
  rw [openConfig_run h.base.addresses hopens] at hpost
  obtain ⟨-, m₁, hfind, hid, -, -⟩ := hpost m rfl
  -- once it is opened the config lists what it showed before
  obtain ⟨loaded, hopened, hsnapshots⟩ : ∃ loaded, (d.opened env m).metaSnapper m.id = _ ∧ _ :=
    metaSnapper_opened (h.base.addresses.metaSnapper_of_find hopens.find)
  have hlist : (d.opened env m).snapshots m.id = m.shown := by
    rw [snapshots_of_metaSnapper hopened, ← hsnapshots]
    rfl
  -- a number that is not in the list is answered with an exception
  cases hs : lookup Snapshot.num num m.shown with
  | none =>
    have hget : (getSnapshot m.id num).run (d.opened env m) =
        (.error .IllegalSnapshotException, d.opened env m) := by
      simp [getSnapshot, findSnapshot, Act.run_bind, Daemon.snapshot, hlist, hs]
    rw [Act.run_bind_error hget]
    exact hbalanced
  | some s =>
    have hget : (getSnapshot m.id num).run (d.opened env m) = (.ok s, d.opened env m) := by
      simp [getSnapshot, findSnapshot, Act.run_bind, Daemon.snapshot, hlist, hs]
    rw [Act.run_bind_ok hget]
    exact hact m s _ m₁ hopens (mem_of_lookup hs) (key_of_lookup hs) hbalanced hfind hid
      opened_clients mountUses_opened

/-- The answer of a handler, whether or not it can be sent. -/
theorem sendReply_balanced {reply : Reply} :
    Spec Balanced (sendReply me reply) (fun _ => Balanced) fun _ => Balanced :=
  Spec.modify fun _ h => h.send

/-- A mount for the user is not counted on either side.  The other mount is counted at the
snapshot and then entered at the client, in this order, so the part in between is looked at as a
tally. -/
theorem mountSnapshot_balanced (h : Balanced d) (hcounted : Counted d)
    (hclient : ∃ c, d.client me = some c)
    (hmatched : (Request.mountSnapshot configName num userRequest).Matched env me d) :
    Balanced ((mountSnapshot env me configName num userRequest).run d).2 := by
  obtain ⟨c, hclient⟩ := hclient
  apply found_balanced h hcounted fun m hopens => (hmatched m hopens).1
  rintro m s d₁ m₁ hopens hs rfl h₁ hfind hid hclients huses
  rw [← hid]
  cases userRequest with
  | true =>
    have hmount : Spec (Tallied d₁ d₁.mountUses)
        (mountFilesystemSnapshot env m₁.id configName s true)
        (fun _ => Balanced) fun _ => Balanced :=
      mount_user_tallied.conseq (fun _ h => h) (fun _ _ h => h.balanced h₁)
        fun _ _ h => h.balanced h₁
    exact (Spec.bind hmount fun _ => sendReply_balanced).final h₁.tallied
  | false =>
    have hclient₁ : d₁.client me = some c := by rw [Daemon.client, hclients]; exact hclient
    have hgoes := (hmatched m hopens).2 rfl s hs rfl
    rw [← huses] at hgoes
    -- an exception comes before the count, so that neither side has changed
    have hmount := (mount_tallied h₁.found hfind hgoes).conseq (fun _ h => h) (fun _ _ h => h)
      fun _ _ h => h.1.balanced h₁
    have hadd : Spec (fun d => Tallied d₁ (fun key => d₁.mountUses key +
          single (some (mountKey configName s.num)) 1 key) d ∧ s.isCounted env configName = true)
        (Act.modify (Daemon.modClient me (Client.addMount configName s.num)) : Handler PUnit)
        (fun _ => Balanced) fun _ => Balanced :=
      Spec.modify fun d h => h₁.addMount h.1 hclient₁ (hgoes h.2).2
    exact (Spec.bind hmount fun _ => Spec.bind hadd fun _ => sendReply_balanced).final h₁.tallied

/-- An unmount counts the snapshot down before it looks at the client.  So it needs a client that
has the mount; nothing in the source checks that before the count goes down. -/
theorem umountSnapshot_balanced (h : Balanced d) (hcounted : Counted d)
    (hmatched : (Request.umountSnapshot configName num userRequest).Matched env me d) :
    Balanced ((umountSnapshot env me configName num userRequest).run d).2 := by
  apply found_balanced h hcounted fun m hopens => (hmatched m hopens).1
  rintro m s d₁ m₁ hopens hs rfl h₁ hfind hid hclients -
  rw [← hid]
  cases userRequest with
  | true =>
    have humount : Spec (Tallied d₁ d₁.mountUses)
        (umountFilesystemSnapshot env m₁.id configName s true)
        (fun _ => Balanced) fun _ => Balanced :=
      umount_user_tallied.conseq (fun _ h => h) (fun _ _ h => h.balanced h₁)
        fun _ _ h => h.balanced h₁
    exact (Spec.bind humount fun _ => sendReply_balanced).final h₁.tallied
  | false =>
    -- the mount of this client is one of those in the count
    have hgoes : s.isCounted env configName = true → ∃ c, d₁.client me = some c ∧
        0 < c.mountsOf (mountKey configName s.num) := by
      intro hcounts
      obtain ⟨c, hclient, hsome⟩ := (hmatched m hopens).2 rfl s hs rfl hcounts
      refine ⟨c, by rw [Daemon.client, hclients]; exact hclient, ?_⟩
      exact h.mountsOf_pos (mem_of_client hclient) hsome
    have hpos : s.isCounted env configName = true →
        0 < d₁.mountUses (mountKey configName s.num) := by
      intro hcounts
      obtain ⟨c, hclient, hpos⟩ := hgoes hcounts
      exact Nat.lt_of_lt_of_le hpos (mountsOf_le_mountUses (mem_of_client hclient))
    have humount := (umount_tallied h₁.found hfind hpos).conseq (fun _ h => h) (fun _ _ h => h)
      fun _ _ h => h.1.balanced h₁
    have hremove : Spec (fun d => Tallied d₁ (fun key => d₁.mountUses key -
          single (some (mountKey configName s.num)) 1 key) d ∧ s.isCounted env configName = true)
        (Act.modify (Daemon.modClient me (Client.removeMount configName s.num)) : Handler PUnit)
        (fun _ => Balanced) fun _ => Balanced := by
      apply Spec.modify
      rintro d ⟨h, hcounts⟩
      obtain ⟨c, hclient, hpos⟩ := hgoes hcounts
      exact h₁.removeMount h hclient hpos
    exact (Spec.bind humount fun _ => Spec.bind hremove fun _ => sendReply_balanced).final
      h₁.tallied

/-- `CreateComparison` gives its worker a comparison that has not mounted anything yet: the mounts
are made by the next step, when the mutex has been released. -/
theorem createComparison_balanced (h : Balanced d) (hcounted : Counted d)
    (hclient : ∃ c, d.client me = some c ∧ c.worker = .waiting)
    (hlost : ∀ m, Opens env configName d m → d.NoneLost m) :
    Balanced ((createComparison env me configName num1 num2).run d).2 := by
  obtain ⟨c, hclient, hworker⟩ := hclient
  apply opened_balanced h hcounted hlost
  intro m hopens hbalanced
  have hclient₁ : (incUseCount m.id (d.opened env m)).client me = some c := by
    show (d.opened env m).client me = some c
    rw [Daemon.client, opened_clients]
    exact hclient
  apply hbalanced.incUseCount.modClient hclient₁ (by intro; rfl) rfl
  -- a comparison that is not mounted has no uses of any snapshot
  intro key
  rw [hworker]
  rfl

/-- Looking for a comparison of the client reads the state four times and changes nothing. -/
theorem findComparison_balanced :
    Spec Balanced (findComparison me id num1 num2) (fun _ => Balanced) fun _ => Balanced := by
  apply Spec.bind (Q := fun _ => Balanced)
  · exact Spec.read fun _ h => h
  · intro snapper
    apply Spec.bind (Q := fun _ => Balanced)
    · exact Spec.read fun _ h => h
    · intro snapshot1
      apply Spec.bind (Q := fun _ => Balanced)
      · exact Spec.read fun _ h => h
      · intro snapshot2
        apply Spec.bind (Q := fun _ => Balanced)
        · exact Spec.read fun _ h => h
        · intro client
          split
          · exact Spec.throw fun _ h => h
          · exact Spec.pure fun _ h => h

/-- The files of a comparison are read from what the comparison has found when it was made. -/
theorem getFiles_balanced (h : Balanced d) (hcounted : Counted d)
    (hlost : ∀ m, Opens env configName d m → d.NoneLost m) :
    Balanced ((getFiles env me configName num1 num2).run d).2 := by
  apply opened_balanced h hcounted hlost
  intro m _ hbalanced
  exact (Spec.bind findComparison_balanced fun _ => sendReply_balanced).final hbalanced

/-- Deleting a comparison gives back the use of the config; its snapshots were unmounted when it
was made. -/
theorem deleteComparison_balanced (h : Balanced d) (hcounted : Counted d)
    (hlost : ∀ m, Opens env configName d m → d.NoneLost m) :
    Balanced ((deleteComparison env me configName num1 num2).run d).2 := by
  apply opened_balanced h hcounted hlost
  intro m _ hbalanced
  -- `decUseCount` changes the configs only, `eraseComparison` the client only
  have hend : ∀ comparison : Comparison, Spec Balanced
      (Act.modify (decUseCount env comparison.snapper) : Handler PUnit)
      (fun _ => Balanced) fun _ => Balanced := by
    intro comparison
    apply Spec.modify
    intro d h
    have hdec : Tallied d d.mountUses (decAll env [comparison] d) := h.tallied.decAll
    exact hdec.balanced h
  have herase : ∀ comparison : Comparison, Spec Balanced
      (Act.modify (Daemon.modClient me (Client.eraseComparison comparison)) : Handler PUnit)
      (fun _ => Balanced) fun _ => Balanced := fun comparison =>
    Spec.modify fun _ h => h.modClient_same (by intro; rfl) (by intro; rfl) (by intro; rfl)
  exact (Spec.bind findComparison_balanced fun comparison => Spec.bind (hend comparison) fun _ =>
    Spec.bind (herase comparison) fun _ => sendReply_balanced).final hbalanced

/-- The request with its answer.  An exception is answered by an error message, which counts
nothing. -/
theorem dispatch_balanced (h : Balanced d) (hcounted : Counted d)
    (hclient : ∃ c, d.client me = some c ∧ c.worker = .waiting)
    (hmounting : request.mounting = true) (hmatched : request.Matched env me d) :
    Balanced (dispatch env me request d) := by
  have hknown : ∃ c, d.client me = some c := hclient.imp fun _ h => h.1
  have hhandle : Balanced ((handle env me request).run d).2 := by
    -- one lemma for each request that the run may have
    cases request with
    | mountSnapshot => exact mountSnapshot_balanced h hcounted hknown hmatched
    | umountSnapshot => exact umountSnapshot_balanced h hcounted hmatched
    | createComparison => exact createComparison_balanced h hcounted hclient hmatched
    | deleteComparison => exact deleteComparison_balanced h hcounted hmatched
    | getFiles => exact getFiles_balanced h hcounted hmatched
    | _ => cases hmounting
  rw [dispatch]
  cases hrun : (handle env me request).run d with
  | mk r d' =>
    rw [hrun] at hhandle
    cases r with
    | ok _ => exact hhandle
    | error e => exact hhandle.send

end Requests

/-! ## The other steps -/

/-- The step counts both sides, or neither: the request does; a comparison mounts both snapshots,
or its first mount fails before it is counted, and it does not fail while they are mounted; the
configs are loaded whose snapshots a client that goes has mounted; and no thread writes a count
that another thread is changing.  Workers and the background thread hold no lock in the constructor
of a comparison, and the count is a plain field. -/
def Matched (d : Daemon) : Action → Prop
  | .work name env => ∀ request, d.next name = some request → request.Matched env name (d.take name)
  | .mountComparison name env => ∀ making m num1 num2 s1 s2, d.making name = some making →
      d.metaSnapper making.metaSnapper = some m → making.snapshots = some (num1, num2) →
      d.snapshot m.id num1 = some s1 → d.snapshot m.id num2 = some s2 →
      FailsAtOnce env m.configName s1 s2 ∨
        (s1.mounts env m.configName = true ∧ s2.mounts env m.configName = true ∧
          (num1 ≠ 0 → d.mountUses (mountKey m.configName num1) + 1 < 2 ^ 32) ∧
          (num2 ≠ 0 → d.mountUses (mountKey m.configName num2) + 1 < 2 ^ 32))
  | .failComparison name _ failure => ∀ making, d.making name = some making →
      making.mounted = true → failure = .illegal ∨
        (failure = .interrupted ∧ (d.client name).any Client.zombie = false)
  | .reap name env => ∀ c, d.client name = some c → c.worker = .ended → c.zombie = true →
      ∀ entry ∈ c.mounts.entries, ∀ m, d.find (ofLex entry.1).1 = some m →
        env.fault (.loadSnapper m.configName) = none → m.isLoaded = true
  | .race .. => False
  | _ => True

/-- The requests are those that mount, unmount and compare. -/
def OnlyMounting (d : Daemon) : Action → Prop
  | .work name _ => ∀ request, d.next name = some request → request.mounting = true
  | _ => True

section Steps

variable {d₀ d : Daemon} {name : Str} {env : Env} {id : Nat} {uses : MountKey → ℕ} {a : Action}
  {making : Making}

/-- The first message of a client makes an entry for it, without mounts and with a worker that
waits. -/
theorem Balanced.newClient (h : Balanced d) (hnone : (d.client name).isNone = true) :
    Balanced { d with clients := d.clients ++ [Client.new name] } := by
  have hmounted : Daemon.mountUses { d with clients := d.clients ++ [Client.new name] } =
      d.mountUses := by
    funext key
    show ((d.clients ++ [Client.new name]).map (Client.mountUses d key)).sum = _
    rw [List.map_append, List.sum_append]
    rfl
  refine ⟨h.base.newClient hnone, h.found, ?_, h.checked, ?_, h.tasks, h.background⟩
  · rw [hmounted]
    exact h.counts
  · intro c hc key use hfind
    rcases List.mem_append.mp hc with hold | hnew
    · exact h.uses c hold key use hfind
    · obtain rfl := List.mem_singleton.mp hnew
      cases hfind

/-- A message that comes in is put into the queue of its client. -/
theorem Balanced.receive {request : Request} (h : Balanced d) :
    Balanced (d.receive name request) := by
  have hknown : Balanced (if (d.client name).isNone then
      { d with clients := d.clients ++ [Client.new name] } else d) := by
    split
    · next hnone => exact h.newClient hnone
    · exact h
  exact hknown.modClient_same (by intro; rfl) (by intro; rfl) (by intro; rfl)

/-- A worker that ends was waiting, so it had nothing mounted for a comparison. -/
theorem Balanced.endWorker (h : Balanced d) : Balanced (d.endWorker name) := by
  have hcases : d.endWorker name = d ∨ _ := endWorker_cases
  rcases hcases with hsame | ⟨client, hclient, hworker, -, hend⟩
  · rw [hsame]
    exact h
  · rw [hend]
    apply h.modClient hclient (by intro; rfl) rfl
    intro key
    rw [hworker]
    rfl

/-- The worker takes a request that mounts, unmounts or compares. -/
theorem Balanced.work (h : Balanced d) (hcounted : Counted d)
    (honly : OnlyMounting d (.work name env)) (hmatched : Matched d (.work name env)) :
    Balanced (d.step (.work name env)) := by
  cases hnext : d.next name with
  | none =>
    rw [step_work_none hnext]
    exact h
  | some request =>
    rw [step_work hnext]
    -- taking the request from the queue touches neither mounts nor worker
    have htaken : Balanced (d.take name) :=
      h.modClient_same (by intro; rfl) (by intro; rfl) (by intro; rfl)
    have hcounted' : Counted (d.take name) :=
      hcounted.modClient_same (by intro; rfl) (by intro; rfl)
    obtain ⟨client, hclient, hworker⟩ := client_of_next hnext
    exact dispatch_balanced htaken hcounted' (idle_of_taken hclient hworker) (honly request hnext)
      (hmatched request hnext)

/-! ## Comparisons in progress -/

/-- The client that makes a comparison, with the config and the snapshots of it.  The comparison
counts as a use of its config, so that the config is loaded and still has both snapshots. -/
theorem Balanced.comparing (h : Balanced d) (hcounted : Counted d)
    (hmaking : d.making name = some making) :
    ∃ client m, d.client name = some client ∧ client.worker = .comparing making ∧
      d.find m.configName = some m ∧ m.id = making.metaSnapper ∧
      ∀ num1 num2, making.snapshots = some (num1, num2) → num1 ≠ num2 ∧
        ∃ s1 s2, d.snapshot m.id num1 = some s1 ∧ d.snapshot m.id num2 = some s2 := by
  rw [Daemon.making] at hmaking
  cases hclient : d.client name with
  | none =>
    rw [hclient] at hmaking
    cases hmaking
  | some client =>
    rw [hclient] at hmaking
    dsimp only at hmaking
    split at hmaking
    · next making' hworker =>
      obtain rfl := Option.some.inj hmaking
      obtain ⟨⟨m, hm, hsnapper⟩, hhas1, hhas2⟩ :=
        hcounted.makings client (mem_of_client hclient) making' hworker
      -- the comparison holds its config loaded
      have hloaded : m.isLoaded = true := by
        obtain ⟨loaded, hsome, -⟩ := Option.map_eq_some_iff.mp hsnapper
        rw [MetaSnapper.isLoaded, hsome]
        rfl
      have hid := id_of_metaSnapper hm
      have hsnapshot : ∀ num, d.Has making'.metaSnapper num →
          ∃ s, d.snapshot m.id num = some s := by
        rintro num ⟨m', hm', hhas⟩
        rw [Daemon.snapshot, hid, snapshots_of_metaSnapper hm']
        exact Option.isSome_iff_exists.mp (lookup_isSome_iff.mpr hhas)
      refine ⟨client, m, rfl, hworker, h.found m (mem_of_metaSnapper hm) hloaded, hid, ?_⟩
      intro num1 num2 hsnapshots
      rw [Making.snapshots] at hsnapshots
      split at hsnapshots
      · next num1' num2' hnum1 hnum2 =>
        split at hsnapshots
        · cases hsnapshots
        · next hne =>
          obtain ⟨rfl, rfl⟩ := Prod.mk.inj (Option.some.inj hsnapshots)
          obtain ⟨s1, hs1⟩ := hsnapshot num1' (hhas1 num1' hnum1)
          obtain ⟨s2, hs2⟩ := hsnapshot num2' (hhas2 num2' hnum2)
          exact ⟨hne, s1, s2, hs1, hs2⟩
      · cases hsnapshots
    · cases hmaking

/-- A comparison that has nothing mounted ends with an exception: the worker waits again, and
nothing has to be given back at the snapshots. -/
theorem Balanced.failed {e : Exception} (h : Balanced d) (hcounted : Counted d)
    (hmaking : d.making name = some making) (hmounted : ∀ key, making.mountsOf d key = 0) :
    Balanced (d.failed env name making e) := by
  obtain ⟨client, m, hclient, hworker, -, -, -⟩ := h.comparing hcounted hmaking
  have hwaiting : Balanced (d.setWorker name .waiting) := by
    apply h.modClient hclient (by intro; rfl) rfl
    intro key
    rw [hworker]
    exact (hmounted key).symm
  exact hwaiting.release.send

/-- Until its snapshots are mounted a comparison has no uses. -/
theorem mountsOf_unmounted {key : MountKey} (h : making.mounted = false) :
    making.mountsOf d key = 0 := by
  rw [Making.mountsOf, h]

/-- A comparison whose snapshots are mounted has one use of each of them; the current system is
not mounted and has no key. -/
theorem mountsOf_eq {key : MountKey} {num1 num2 : UInt32} (hmounted : making.mounted = true)
    (hsnapshots : making.snapshots = some (num1, num2)) :
    making.mountsOf d key = single (d.keyOf making.metaSnapper num1) 1 key +
      single (d.keyOf making.metaSnapper num2) 1 key := by
  rw [Making.mountsOf, hmounted, hsnapshots]

/-- Mounting the two snapshots of a comparison counts each of them once, and the comparison has
the two uses from then on.  Where the first mount fails before it counts, nothing has changed;
that the second one fails after the first has counted is excluded by `Matched`. -/
theorem Balanced.mountComparison (h : Balanced d) (hcounted : Counted d)
    (hmatched : Matched d (.mountComparison name env)) : Balanced (d.mountComparison name env) := by
  have hcases : d.mountComparison name env = d ∨ _ := mountComparison_cases
  rcases hcases with hsame | ⟨making, num1, num2, d₁, hmaking, hmounted, hsnapshots, -, hrest⟩
  · rw [hsame]
    exact h
  · obtain ⟨client, m, hclient, hworker, hfind, hid, hboth⟩ := h.comparing hcounted hmaking
    obtain ⟨hne, s1, s2, hs1, hs2⟩ := hboth num1 num2 hsnapshots
    have hm := h.base.addresses.metaSnapper_of_find hfind
    -- both snapshots mount, or the first one fails and nothing is counted
    have hgoes := hmatched making m num1 num2 s1 s2 hmaking (hid ▸ hm) hsnapshots hs1 hs2
    have hmount := mountBoth_tallied h.found hfind h.tallied hne hs1 hs2 hgoes
    rw [hid] at hmount
    rcases hmount with ⟨d₂, hrun, htallied⟩ | ⟨e, hrun⟩
    · rcases hrest with ⟨hrun', hmounts⟩ | ⟨e, hrun', -⟩
      · obtain rfl : d₂ = d₁ := (Prod.mk.inj (hrun.symm.trans hrun')).2
        rw [hmounts]
        apply htallied.modClient h hclient (by intro; rfl)
        · intro key
          -- the worker holds the two uses from here on
          have hafter : Making.mountsOf d key { making with mounted := true } =
              single (d.keyOf making.metaSnapper num1) 1 key +
                single (d.keyOf making.metaSnapper num2) 1 key := mountsOf_eq rfl hsnapshots
          show _ + (_ + Making.mountsOf d key { making with mounted := true }) = _
          rw [hafter, Client.mountUses, hworker, Worker.mountsOf, mountsOf_unmounted hmounted]
          show _ + (client.mountsOf key + _) = _
          omega
        · exact h.uses client (mem_of_client hclient)
      · rw [hrun] at hrun'
        cases hrun'
    · rcases hrest with ⟨hrun', -⟩ | ⟨e', hrun', hfailed⟩
      · rw [hrun] at hrun'
        cases hrun'
      · obtain rfl : d = d₁ := (Prod.mk.inj (hrun.symm.trans hrun')).2
        rw [hfailed]
        exact h.failed hcounted hmaking fun _ => mountsOf_unmounted hmounted

/-- The snapshots that were mounted are unmounted, and then the comparison is over.  The worker
has one use of each, so that neither count is zero when it goes down and the unmounts do not fail.
-/
theorem Balanced.finishComparison {files : List DBus.SentFile} (h : Balanced d)
    (hcounted : Counted d) :
    Balanced (d.finishComparison name env files) := by
  have hcases : d.finishComparison name env files = d ∨ _ := finishComparison_cases
  rcases hcases with hsame | ⟨making, num1, num2, d₁, hmaking, hsnapshots, -, hrest⟩
  · rw [hsame]
    exact h
  · obtain ⟨client, m, hclient, hworker, hfind, hid, hboth⟩ := h.comparing hcounted hmaking
    obtain ⟨hne, s1, s2, hs1, hs2⟩ := hboth num1 num2 hsnapshots
    have hmem := mem_of_client hclient
    -- a comparison that did not have to mount has nothing to give back
    cases hmounted : making.mounted with
    | false =>
      simp only [hmounted, Bool.false_eq_true, if_false, false_and, exists_false, or_false] at hrest
      obtain ⟨rfl, hfinished⟩ := hrest
      rw [hfinished]
      have hwaiting : Balanced (d₁.modClient name fun c =>
          { c with comparisons := c.comparisons ++ [⟨making.snapper, num1, num2, files⟩]
                   worker := .waiting }) := by
        apply h.modClient hclient (by intro; rfl) rfl
        intro key
        rw [hworker]
        exact (mountsOf_unmounted hmounted).symm
      exact hwaiting.incUseCount.send.release
    | true =>
      -- the worker holds one use of each of the two snapshots
      have hweight : ∀ key, client.mountUses d key = client.mountsOf key +
          (single (d.keyOf m.id num1) 1 key + single (d.keyOf m.id num2) 1 key) := by
        intro key
        rw [Client.mountUses, hworker, Worker.mountsOf, mountsOf_eq hmounted hsnapshots, hid]
      have hle : ∀ key, client.mountUses d key ≤ d.mountUses key := fun _ => mountUses_le hmem
      have hm := h.base.addresses.metaSnapper_of_find hfind
      -- neither of the two counts is zero, for the worker is part of the sum
      have hpos1 : num1 ≠ 0 → 0 < d.mountUses (mountKey m.configName num1) := by
        intro hzero
        have hone := hle (mountKey m.configName num1)
        rw [hweight, keyOf_eq hzero hm, single_self] at hone
        omega
      have hpos2 : num2 ≠ 0 → 0 < d.mountUses (mountKey m.configName num2) := by
        intro hzero
        have hone := hle (mountKey m.configName num2)
        rw [hweight, keyOf_eq hzero hm, single_self] at hone
        omega
      obtain ⟨d₂, hrun, htallied⟩ : ∃ d₂,
          (umountBoth env m.id num1 num2).run d = (.ok ⟨⟩, d₂) ∧ _ :=
        umountBoth_tallied h.found hfind h.tallied hne hs1 hs2 hpos1 hpos2
      simp only [hmounted, if_true, true_and] at hrest
      rw [← hid] at hrest
      -- the two unmounts cannot fail, so the branch of the error does not occur
      rcases hrest with ⟨hrun', hfinished⟩ | ⟨e, hrun', -⟩
      · obtain rfl : d₂ = d₁ := (Prod.mk.inj (hrun.symm.trans hrun')).2
        rw [hfinished]
        have hwaiting : Balanced (d₂.modClient name fun c =>
            { c with comparisons := c.comparisons ++ [⟨making.snapper, num1, num2, files⟩]
                     worker := .waiting }) := by
          apply htallied.modClient h hclient (by intro; rfl)
          · intro key
            have hkey := hle key
            rw [hweight] at hkey ⊢
            show _ + (client.mountsOf key + 0) = _
            omega
          · exact h.uses client hmem
        exact hwaiting.incUseCount.send.release
      · rw [hrun] at hrun'
        cases hrun'

/-- A comparison that fails while it has its snapshots mounted leaves them mounted.  `Matched`
allows only the two failures that do not come to that. -/
theorem Balanced.failComparison {failure : Failure} (h : Balanced d) (hcounted : Counted d)
    (hmatched : Matched d (.failComparison name env failure)) :
    Balanced (d.failComparison name env failure) := by
  rw [Daemon.failComparison]
  cases hmaking : d.making name with
  | none => exact h
  | some making =>
    obtain ⟨client, m, hclient, hworker, -, -, -⟩ := h.comparing hcounted hmaking
    -- where snapshots are mounted only two kinds of failure are left
    have hmounts : making.mounted = true → failure = .illegal ∨ _ := hmatched making hmaking
    have hnone : failure ≠ .illegal → ¬ (failure = .interrupted ∧
        (d.client name).any Client.zombie = false) → ∀ key, making.mountsOf d key = 0 := by
      intro hillegal hinterrupted key
      apply mountsOf_unmounted
      by_contra hmounted
      exact (hmounts (Bool.eq_true_of_not_eq_false hmounted)).elim hillegal hinterrupted
    dsimp only
    split
    · next hsnapshots =>
      -- what has no snapshots to compare has none mounted
      apply h.failed hcounted hmaking
      intro key
      rw [Making.mountsOf, hsnapshots]
      cases making.mounted <;> rfl
    · exact h.failed hcounted hmaking (hnone (by simp) (by simp))
    · split
      · next hzombie =>
        have hended : Balanced (d.setWorker name .ended) := by
          apply h.modClient hclient (by intro; rfl) rfl
          intro key
          rw [hworker]
          exact (hnone (by simp) (by simp [hzombie]) key).symm
        exact hended.release
      · exact h
    · exact h

/-! ## The end of a client and of a `Snapper` -/

/-- A client goes with what it has mounted, or an exception ends the daemon.  Its destructor
unmounts every entry, as often as the entry has uses; the sum is then one over the other clients.
-/
theorem Balanced.reap (h : Balanced d) (hmatched : Matched d (.reap name env)) :
    (d.reap name env).terminated = true ∨ Balanced (d.reap name env) := by
  have hbase : (d.reap name env).Base := h.base.reap
  have hcases : d.reap name env = d ∨ _ := reap_cases
  rcases hcases with hsame | ⟨client, d₁, hclient, hworker, hzombie, hrest⟩
  · rw [hsame]
    exact Or.inr h
  · rcases hrest with ⟨hrun, hreap⟩ | ⟨e, -, hend⟩
    · right
      have hmem := mem_of_client hclient
      have hle : ∀ key, lost client.mounts.entries key ≤ d.mountUses key := by
        intro key
        rw [lost_mounts]
        exact mountsOf_le_mountUses hmem
      have hloaded := hmatched client hclient hworker hzombie
      -- the comparisons of the client are given back first, then its mounts
      have hspec := umountAll_tallied h.found hloaded hle (decAll env client.comparisons d)
        h.tallied.decAll
      rw [hrun] at hspec
      have hgone :
          Tallied d (fun key => d.mountUses key - lost client.mounts.entries key) d₁ := hspec
      rw [hreap] at hbase ⊢
      have hfound : d₁.Found := found_of_configs hgone.base hgone.configs h.found
      refine ⟨hbase, hfound, ?_, hgone.checked, ?_, hgone.tasks.trans h.tasks,
        hgone.background.trans h.background⟩
      · intro m hm s hs
        rw [hgone.counts m hm s hs, lost_mounts]
        -- the sum without the client, whose worker has ended
        have hsum := sum_filter_ne (w := Client.mountUses d (mountKey m.configName s.num))
          h.base.addresses.names hmem (name_of_client hclient)
        have hclientUses : client.mountUses d (mountKey m.configName s.num) =
            client.mountsOf (mountKey m.configName s.num) := by
          rw [Client.mountUses, hworker]
          rfl
        have hkeys : Client.mountUses d₁ (mountKey m.configName s.num) =
            Client.mountUses d (mountKey m.configName s.num) := by
          funext c
          rw [Client.mountUses, Client.mountUses,
            worker_mountsOf_congr (keyOf_of_configs hgone.configs)]
        show _ = ((d₁.clients.filter (·.name ≠ name)).map (Client.mountUses d₁ _)).sum
        rw [hgone.clients, hkeys, Daemon.mountUses]
        omega
      · intro c hc
        have hold := (List.mem_filter.mp hc).1
        rw [hgone.clients] at hold
        exact h.uses c hold
    · rw [hend]
      exact Or.inl rfl

/-- A config that is unloaded has no snapshots to count; what clients have mounted of it stays at
the clients.  `~Snapper` may end the daemon instead. -/
theorem Balanced.unload (h : Balanced d) :
    (d.unload id env).terminated = true ∨ Balanced (d.unload id env) := by
  have hbase : (d.unload id env).Base := h.base.unload
  have hcases : d.unload id env = d ∨ _ := unload_cases
  rcases hcases with hsame | ⟨-, written, -, -, -, hend⟩ | ⟨m₀, -, -, -, -, hunload⟩
  · rw [hsame]
    exact Or.inr h
  · rw [hend]
    exact Or.inl rfl
  · right
    rw [hunload] at hbase ⊢
    refine ⟨hbase, ?_, ?_, ?_, h.uses, h.tasks, h.background⟩
    · intro m hm hloaded
      obtain ⟨m', hm', ⟨-, rfl⟩ | ⟨hid, rfl⟩⟩ := mem_modMeta hm
      -- nothing is asked of a config that is not loaded
      · cases hloaded
      · rw [find_modMeta (by intro; rfl), h.found m hm' hloaded]
        exact congrArg some (if_neg hid)
    · have huses : Daemon.mountUses (d.modMeta id fun m => { m with
          snapper := none
          disk := (m₀.snapshots.filter Snapshot.infoModified).foldl (fun disk s => disk.write s)
            m.disk }) = d.mountUses :=
        mountUses_congr rfl (keyOf_modMeta (by intro; rfl) (by intro; rfl))
      rw [huses]
      intro m hm s hs
      obtain ⟨m', hm', ⟨-, rfl⟩ | ⟨-, rfl⟩⟩ := mem_modMeta hm
      · cases hs
      · exact h.counts m hm' s hs
    · intro m hm s hs
      obtain ⟨m', hm', ⟨-, rfl⟩ | ⟨-, rfl⟩⟩ := mem_modMeta hm
      · cases hs
      · exact h.checked m hm' s hs

/-- What can be read of a disk is no matter of counts. -/
theorem Balanced.spoil {nums : List UInt32} (h : Balanced d) : Balanced (d.spoil id nums) := by
  apply h.metas h.base.spoil _ rfl rfl rfl rfl
  intro m
  dsimp only
  split
  · exact ⟨rfl, rfl, rfl⟩
  · exact ⟨rfl, rfl, rfl⟩

/-- A step that counts both sides keeps them equal, unless it ends the daemon. -/
theorem Balanced.step (h : Balanced d) (hcounted : Counted d) (honly : OnlyMounting d a)
    (hmatched : Matched d a) : (d.step a).terminated = true ∨ Balanced (d.step a) := by
  rw [Daemon.step.eq_def]
  split
  · exact Or.inr h
  · next hrunning =>
    cases a with
    | receive name request => exact Or.inr h.receive
    | disconnect name =>
      exact Or.inr (h.modClient_same (by intro; rfl) (by intro; rfl) (by intro; rfl))
    | work name env =>
      have hwork := h.work hcounted honly hmatched
      rw [Daemon.step.eq_def, if_neg hrunning] at hwork
      exact Or.inr hwork
    | endWorker name => exact Or.inr h.endWorker
    | mountComparison name env => exact Or.inr (h.mountComparison hcounted hmatched)
    | finishComparison name env files => exact Or.inr (h.finishComparison hcounted)
    | failComparison name env failure => exact Or.inr (h.failComparison hcounted hmatched)
    -- the background has nothing to do
    | startTask env => simp [Daemon.startTask, h.background, h.tasks, h]
    | mountTask env => simp [Daemon.mountTask, h.background, h]
    | finishTask env => simp [Daemon.finishTask, h.background, h]
    | popTask => simp [Daemon.popTask, h.background, h]
    | reap name env => exact h.reap hmatched
    | unload id env => exact h.unload
    | race id num userRequest useCount => exact hmatched.elim
    | spoil id nums => exact Or.inr h.spoil

/-- A daemon that has just started has no loaded config and no client, so both sides are zero. -/
theorem Daemon.Initial.balanced (h : d.Initial) : Balanced d := by
  have hnone : ∀ m ∈ d.metaSnappers, m.snapshots = [] := by
    intro m hm
    simp [MetaSnapper.snapshots, h.unloaded m hm]
  refine ⟨h.base, ?_, ?_, ?_, ?_, h.tasks, h.background⟩
  · intro m hm hloaded
    simp [MetaSnapper.isLoaded, h.unloaded m hm] at hloaded
  · intro m hm s hs
    simp [hnone m hm] at hs
  · intro m hm s hs
    simp [hnone m hm] at hs
  · simp [h.clients]

end Steps

/-! ## The guarantee and its limit -/

/-- In a run of requests that mount, unmount and compare, of comparisons, of clients that go and
of configs that are unloaded, whose steps count both sides or neither, the count of each loaded
snapshot is the sum over the clients whenever no comparison is made, so that none of their mounts
is released by another. -/
theorem use_counts_match {start : Daemon} {actions done rest : List Action} (hstart : start.Initial)
    (honly : Along OnlyMounting Daemon.step actions start)
    (hmatched : Along Matched Daemon.step actions start) (hpoint : actions = done ++ rest)
    (hrunning : (done.foldl Daemon.step start).terminated = false)
    (hquiet : ∀ c ∈ (done.foldl Daemon.step start).clients, ∀ making,
      c.worker ≠ .comparing making) :
    ∀ m ∈ (done.foldl Daemon.step start).metaSnappers, ∀ s ∈ m.snapshots,
      s.mountUseCount.toNat = (done.foldl Daemon.step start).mounted (mountKey m.configName s.num) ∧
        ∀ c ∈ (done.foldl Daemon.step start).clients,
          c.mountsOf (mountKey m.configName s.num) ≤ s.mountUseCount.toNat := by
  have hinv : (done.foldl Daemon.step start).Base ∧ Counting (done.foldl Daemon.step start) ∧
      ((done.foldl Daemon.step start).terminated = true ∨
        Balanced (done.foldl Daemon.step start)) := by
    -- one invariant for the whole run, with the end of the daemon as a way out
    apply (honly.and hmatched).induction
      (P := fun _ d => d.Base ∧ Counting d ∧ (d.terminated = true ∨ Balanced d)) _ _ hpoint
    · exact ⟨hstart.base, hstart.counting, Or.inr hstart.balanced⟩
    · rintro done a rest - ⟨hbase, hcounting, hinv⟩ ⟨honly, hmatched⟩
      refine ⟨step_base hbase a, hcounting.step hbase a, ?_⟩
      cases hterminated : (done.foldl Daemon.step start).terminated with
      | true =>
        left
        rw [Daemon.step.eq_def, if_pos (Or.inr hterminated)]
        exact hterminated
      | false =>
        have hbalanced := hinv.resolve_left (by simp [hterminated])
        exact hbalanced.step (hcounting.counted hterminated) honly hmatched
  have hbalanced := hinv.2.2.resolve_left (by simp [hrunning])
  intro m hm s hs
  have hcount := hbalanced.counts m hm s hs
  -- without a comparison in the making the uses are those of the clients alone
  rw [mountUses_quiet hquiet] at hcount
  refine ⟨hcount, ?_⟩
  intro c hc
  rw [hcount]
  exact List.le_sum_of_mem (List.mem_map_of_mem hc)

/-- A client mounts a snapshot of `root`. -/
theorem use_counts_match_mounted :
    let d := [.receive (str "a") (.mountSnapshot (str "root") 1 false),
      .work (str "a") Env.quiet].foldl Daemon.step Daemon.rootOnly
    (∃ m ∈ d.metaSnappers, ∃ s ∈ m.snapshots, s.num = 1 ∧ s.mountUseCount = 1) ∧
      ∀ m ∈ d.metaSnappers, ∀ s ∈ m.snapshots,
        s.mountUseCount.toNat = d.mounted (mountKey m.configName s.num) := by
  refine ⟨⟨_, List.mem_cons_self, _, List.mem_cons_of_mem _ List.mem_cons_self, rfl, rfl⟩, ?_⟩
  intro m hm s hs
  refine (use_counts_match rootOnly_initial ?_ ?_ (List.append_nil _).symm rfl ?_ m hm s hs).1
  · refine ⟨trivial, ?_, trivial⟩
    intro request hnext
    obtain rfl := Option.some.inj hnext
    rfl
  · refine ⟨trivial, ?_, trivial⟩
    intro request hnext
    obtain rfl := Option.some.inj hnext
    intro m _
    refine ⟨fun _ s _ => rfl, fun _ s _ _ _ => ⟨rfl, ?_⟩⟩
    -- the first use of the snapshot
    show 0 + 1 < 2 ^ 32
    decide
  · intro c hc making
    obtain rfl := List.mem_singleton.mp hc
    exact Worker.noConfusion

/-- The first request of a client is one to unmount, and another client unmounts what the first
one has mounted: the count wraps, and it is zero for a mount that is still held. -/
theorem umountSnapshot_unmatched :
    let d := [.receive (str "a") (.umountSnapshot (str "root") 1 false),
      .work (str "a") Env.quiet].foldl Daemon.step Daemon.rootOnly
    let d' := [.receive (str "a") (.mountSnapshot (str "root") 1 false), .work (str "a") Env.quiet,
      .receive (str "b") (.umountSnapshot (str "root") 1 false),
      .work (str "b") Env.quiet].foldl Daemon.step Daemon.rootOnly
    (d.Reachable ∧ d.mounted (mountKey (str "root") 1) = 0 ∧
      ∃ m ∈ d.metaSnappers, ∃ s ∈ m.snapshots, m.configName = str "root" ∧ s.num = 1 ∧
        s.mountUseCount.toNat = 4294967295) ∧
    d'.Reachable ∧ d'.mounted (mountKey (str "root") 1) = 1 ∧
      ∃ m ∈ d'.metaSnappers, ∃ s ∈ m.snapshots, m.configName = str "root" ∧ s.num = 1 ∧
        s.mountUseCount.toNat = 0 := by
  refine ⟨⟨rootOnly_reachable _, rfl, ?_⟩, rootOnly_reachable _, rfl, ?_⟩
  · exact ⟨_, List.mem_cons_self, _, List.mem_cons_of_mem _ List.mem_cons_self, rfl, rfl, rfl⟩
  · exact ⟨_, List.mem_cons_self, _, List.mem_cons_of_mem _ List.mem_cons_self, rfl, rfl, rfl⟩

end Snapper.Server
