import Snapper.Server.Constructor
import Snapper.Server.Mounted

/-!
# How often snapshots are mounted

The `mounts` of the clients and the comparisons that their workers make say how often a snapshot
is mounted, and the `mount_use_count` of the snapshot says it a second time.  Each call that
mounts or unmounts changes the second side by one.

## Main results

* `mount_tallied`, `umount_tallied`: one call, which may fail before it counts.
* `mountBoth_tallied`, `umountBoth_tallied`: the two calls of a comparison.
* `umountAll_tallied`: the calls for all mounts of a client.
-/

namespace Snapper.Server

open General Act

/-! ## The side of the clients -/

/-- How often the client has the snapshot mounted. -/
def Client.mountsOf (key : MountKey) (client : Client) : ℕ :=
  ((client.mounts.find key).getD 0).toNat

/-- How often the clients in the list have it mounted. -/
def Daemon.mounted (d : Daemon) (key : MountKey) : ℕ := (d.clients.map (Client.mountsOf key)).sum

/-- The snapshot that a comparison mounts, which does not mount the current one. -/
def Daemon.keyOf (id : Nat) (num : UInt32) (d : Daemon) : Option MountKey :=
  if num = 0 then none else (d.metaSnapper id).map fun m => mountKey m.configName num

/-- The number for one snapshot, and nothing for the others. -/
def single (found : Option MountKey) (n : ℕ) (key : MountKey) : ℕ :=
  if found = some key then n else 0

/-- How often a comparison that is being made has it mounted. -/
def Making.mountsOf (d : Daemon) (key : MountKey) (making : Making) : ℕ :=
  match making.mounted, making.snapshots with
  | true, some (num1, num2) =>
    single (d.keyOf making.metaSnapper num1) 1 key + single (d.keyOf making.metaSnapper num2) 1 key
  | _, _ => 0

/-- How often a worker has it mounted for the comparison that it is making. -/
def Worker.mountsOf (d : Daemon) (key : MountKey) : Worker → ℕ
  | .comparing making => making.mountsOf d key
  | _ => 0

/-- How often it is mounted by the client or for it. -/
def Client.mountUses (d : Daemon) (key : MountKey) (client : Client) : ℕ :=
  client.mountsOf key + client.worker.mountsOf d key

/-- How often all clients have it mounted. -/
def Daemon.mountUses (d : Daemon) (key : MountKey) : ℕ :=
  (d.clients.map (Client.mountUses d key)).sum

section Clients

variable {configName : Str} {num : UInt32} {d d' : Daemon} {name : Str} {client : Client}
  {key key' : MountKey} {g : Client → Client} {n : ℕ} {id : Nat} {making : Making}

@[simp] theorem single_none : single none n key = 0 := by simp [single]

@[simp] theorem single_self : single (some key) n key = n := by simp [single]

theorem single_other (h : key' ≠ key) : single (some key) n key' = 0 := by
  rw [single, if_neg]
  intro hkey
  exact h (Option.some.inj hkey).symm

theorem mountKey_inj {configName' : Str} {num' : UInt32}
    (h : mountKey configName num = mountKey configName' num') :
    configName = configName' ∧ num = num' := by
  have hpair : (configName, num) = (configName', num') := congrArg ofLex h
  exact ⟨congrArg Prod.fst hpair, congrArg Prod.snd hpair⟩

theorem keyOf_current : d.keyOf id 0 = none := if_pos rfl

theorem keyOf_eq (hnum : num ≠ 0) {m : MetaSnapper} (hm : d.metaSnapper id = some m) :
    d.keyOf id num = some (mountKey m.configName num) := by
  rw [Daemon.keyOf, if_neg hnum, hm]
  rfl

/-- The workers mount the same where configs keep their names. -/
theorem worker_mountsOf_congr (hkeys : ∀ id num, d'.keyOf id num = d.keyOf id num)
    (worker : Worker) :
    worker.mountsOf d' key = worker.mountsOf d key := by
  cases worker with
  | comparing making =>
    rw [Worker.mountsOf, Worker.mountsOf, Making.mountsOf, Making.mountsOf]
    split
    · rw [hkeys, hkeys]
    · rfl
  | waiting => rfl
  | ended => rfl

/-- The uses of mounts are counted over clients and comparisons that are being made. -/
theorem mountUses_congr (hclients : d'.clients = d.clients)
    (hkeys : ∀ id num, d'.keyOf id num = d.keyOf id num) : d'.mountUses = d.mountUses := by
  funext key
  rw [Daemon.mountUses, Daemon.mountUses, hclients]
  have hclient : Client.mountUses d' key = Client.mountUses d key := by
    funext client
    rw [Client.mountUses, Client.mountUses, worker_mountsOf_congr hkeys]
  rw [hclient]

theorem mountUses_le (hclient : client ∈ d.clients) : client.mountUses d key ≤ d.mountUses key :=
  List.le_sum_of_mem (List.mem_map_of_mem hclient)

theorem mountsOf_le_mountUses (hclient : client ∈ d.clients) :
    client.mountsOf key ≤ d.mountUses key :=
  (Nat.le_add_right _ _).trans (mountUses_le hclient)

/-- A change of one client is a change of the sum. -/
theorem mountUses_modClient (hd : d.Base) (hclient : d.client name = some client) :
    (d.modClient name g).mountUses key + client.mountUses d key =
      d.mountUses key + (g client).mountUses d key := by
  have hkeys : ∀ id num, (d.modClient name g).keyOf id num = d.keyOf id num := fun _ _ => rfl
  have hsame : (d.modClient name g).mountUses key =
      ((d.modClient name g).clients.map (Client.mountUses d key)).sum := by
    have hclient : Client.mountUses (d.modClient name g) key = Client.mountUses d key := by
      funext client
      rw [Client.mountUses, Client.mountUses, worker_mountsOf_congr hkeys]
    rw [Daemon.mountUses, hclient]
  rw [hsame]
  exact sum_update hd.addresses.names (mem_of_client hclient) (name_of_client hclient)

/-- Without a comparison the mounts are those of the clients. -/
theorem mountUses_quiet (h : ∀ c ∈ d.clients, ∀ making, c.worker ≠ .comparing making) :
    d.mountUses key = d.mounted key := by
  rw [Daemon.mountUses, Daemon.mounted]
  congr 1
  apply List.map_congr_left
  intro c hc
  rw [Client.mountUses]
  cases hworker : c.worker with
  | comparing making => exact absurd hworker (h c hc making)
  | waiting => rfl
  | ended => rfl

/-- A mount is counted once more for its snapshot, short of the overflow of the counter. -/
theorem mountsOf_addMount (hlt : client.mountsOf (mountKey configName num) + 1 < 2 ^ 32) :
    (client.addMount configName num).mountsOf key =
      client.mountsOf key + single (some (mountKey configName num)) 1 key := by
  rw [Client.mountsOf, Client.addMount, SortedMap.find_set]
  by_cases hkey : key = mountKey configName num
  · subst hkey
    rw [if_pos rfl, single_self]
    show (((client.mounts.find (mountKey configName num)).getD 0) + 1).toNat = _
    rw [Client.mountsOf] at hlt ⊢
    rw [UInt32.toNat_add]
    exact Nat.mod_eq_of_lt hlt
  · rw [if_neg hkey, single_other hkey]
    rfl

/-- An unmount is counted once less for its snapshot, and never below zero. -/
theorem mountsOf_removeMount :
    (client.removeMount configName num).mountsOf key =
      client.mountsOf key - single (some (mountKey configName num)) 1 key := by
  rw [Client.removeMount]
  cases hfind : client.mounts.find (mountKey configName num) with
  | none =>
    by_cases hkey : key = mountKey configName num
    · subst hkey
      simp [Client.mountsOf, hfind]
    · rw [single_other hkey]
      rfl
  | some use =>
    have huse : client.mountsOf (mountKey configName num) = use.toNat := by
      rw [Client.mountsOf, hfind]
      rfl
    dsimp only
    split
    · next hmore =>
      rw [Client.mountsOf, SortedMap.find_set]
      by_cases hkey : key = mountKey configName num
      · subst hkey
        rw [if_pos rfl, single_self, huse]
        have hle : (1 : UInt32) ≤ use := UInt32.le_of_lt hmore
        exact UInt32.toNat_sub_of_le _ _ hle
      · rw [if_neg hkey, single_other hkey]
        rfl
    · next hone =>
      rw [Client.mountsOf, SortedMap.find_erase]
      by_cases hkey : key = mountKey configName num
      · subst hkey
        rw [if_pos rfl, single_self, huse]
        -- the last use: the entry goes, and a missing entry counts as none
        have hle : use.toNat ≤ 1 := by
          have hle : use ≤ 1 := UInt32.not_lt.mp hone
          exact UInt32.le_iff_toNat_le.mp hle
        simp [Nat.sub_eq_zero_of_le hle]
      · rw [if_neg hkey, single_other hkey]
        rfl

end Clients

/-! ## The side of the snapshots -/

/-- The counts of loaded snapshots are those of `uses`, and what else there is is as in `d₀`. -/
structure Tallied (d₀ : Daemon) (uses : MountKey → ℕ) (d : Daemon) : Prop where
  base : d.Base
  counts : ∀ m ∈ d.metaSnappers, ∀ s ∈ m.snapshots,
    s.mountUseCount.toNat = uses (mountKey m.configName s.num)
  checked : ∀ m ∈ d.metaSnappers, ∀ s ∈ m.snapshots, s.mountUseCount ≠ 0 → s.mountChecked = true
  configs : d.metaSnappers.map (fun m => (m.id, m.configName, m.isLoaded)) =
    d₀.metaSnappers.map fun m => (m.id, m.configName, m.isLoaded)
  clients : d.clients = d₀.clients
  tasks : d.tasks = d₀.tasks
  background : d.background = d₀.background

/-- Configs are found by their names where they are loaded. -/
def Daemon.Found (d : Daemon) : Prop :=
  ∀ m ∈ d.metaSnappers, m.isLoaded = true → d.find m.configName = some m

section Configs

variable {d d' : Daemon} {configName : Str} {m : MetaSnapper} {id : Nat}

/-- What is known of a config by its name, from the other state. -/
theorem find_of_configs (hconfigs : d.metaSnappers.map (fun m => (m.id, m.configName, m.isLoaded)) =
      d'.metaSnappers.map fun m => (m.id, m.configName, m.isLoaded)) :
    (d.find configName).map (fun m => (m.id, m.isLoaded)) =
      (d'.find configName).map fun m => (m.id, m.isLoaded) := by
  have hlookup : ∀ l : List MetaSnapper,
      (lookup MetaSnapper.configName configName l).map (fun m => (m.id, m.isLoaded)) =
        ((l.map fun m => (m.id, m.configName, m.isLoaded)).find? fun e => e.2.1 = configName).map
          fun e => (e.1, e.2.2) := by
    intro l
    rw [List.find?_map, Option.map_map]
    rfl
  rw [Daemon.find, Daemon.find, hlookup, hlookup, hconfigs]

/-- With the same ids, names and load states a name finds the same config. -/
theorem find_of_find (hconfigs : d.metaSnappers.map (fun m => (m.id, m.configName, m.isLoaded)) =
      d'.metaSnappers.map fun m => (m.id, m.configName, m.isLoaded))
    (hfind : d'.find configName = some m) :
    ∃ m', d.find configName = some m' ∧ m'.id = m.id ∧ m'.isLoaded = m.isLoaded := by
  have hmap : (d.find configName).map _ = _ := find_of_configs hconfigs
  rw [hfind, Option.map_some, Option.map_eq_some_iff] at hmap
  obtain ⟨m', hfind', hsame⟩ := hmap
  exact ⟨m', hfind', congrArg Prod.fst hsame, congrArg Prod.snd hsame⟩

/-- With the same ids, names and load states a comparison mounts the same snapshot. -/
theorem keyOf_of_configs
    (hconfigs : d.metaSnappers.map (fun m => (m.id, m.configName, m.isLoaded)) =
      d'.metaSnappers.map fun m => (m.id, m.configName, m.isLoaded)) (id : Nat) (num : UInt32) :
    d.keyOf id num = d'.keyOf id num := by
  have hlookup : ∀ l : List MetaSnapper,
      (lookup MetaSnapper.id id l).map (fun m => mountKey m.configName num) =
        ((l.map fun m => (m.id, m.configName, m.isLoaded)).find? fun e => e.1 = id).map
          fun e => mountKey e.2.1 num := by
    intro l
    rw [List.find?_map, Option.map_map]
    rfl
  rw [Daemon.keyOf, Daemon.keyOf]
  split
  · rfl
  · rw [Daemon.metaSnapper, Daemon.metaSnapper, hlookup, hlookup, hconfigs]

theorem found_of_configs (hd : d.Base)
    (hconfigs : d.metaSnappers.map (fun m => (m.id, m.configName, m.isLoaded)) =
      d'.metaSnappers.map fun m => (m.id, m.configName, m.isLoaded))
    (h : d'.Found) : d.Found := by
  intro m hm hloaded
  have hmem : (m.id, m.configName, m.isLoaded) ∈
      d'.metaSnappers.map fun m => (m.id, m.configName, m.isLoaded) := by
    rw [← hconfigs]
    exact List.mem_map_of_mem hm
  obtain ⟨m₁, hm₁, hsame⟩ := List.mem_map.mp hmem
  simp only [Prod.mk.injEq] at hsame
  obtain ⟨hid, hname, hload⟩ := hsame
  obtain ⟨m', hfind, hid', -⟩ := find_of_find hconfigs (h m₁ hm₁ (hload.trans hloaded))
  have hm' := hd.addresses.metaSnapper_of_find hfind
  rw [hid', hid, hd.addresses.metaSnapper_of_mem hm] at hm'
  obtain rfl := Option.some.inj hm'
  rw [← hname]
  exact hfind

end Configs

section Tallied

variable {d₀ d d' : Daemon} {uses uses' : MountKey → ℕ} {configName : Str} {num : UInt32}
  {m m₀ : MetaSnapper} {g : Snapshot → Snapshot} {env : Env} {id : Nat}

/-- The config of a name is the same in both states. -/
theorem Tallied.find (h : Tallied d₀ uses d) (hfind : d₀.find configName = some m₀) :
    ∃ m, d.find configName = some m ∧ m.id = m₀.id ∧ d.metaSnapper m₀.id = some m ∧
      m.configName = configName := by
  obtain ⟨m, hm, hid, -⟩ := find_of_find h.configs hfind
  refine ⟨m, hm, hid, ?_, configName_of_find hm⟩
  rw [← hid]
  exact h.base.addresses.metaSnapper_of_find hm

/-- The count of a snapshot that is found. -/
theorem Tallied.count (h : Tallied d₀ uses d) (hfind : d₀.find configName = some m₀) {s : Snapshot}
    (hs : d.snapshot m₀.id num = some s) : s.mountUseCount.toNat = uses (mountKey configName num) ∧
      (s.mountUseCount ≠ 0 → s.mountChecked = true) := by
  obtain ⟨m, -, -, hm, rfl⟩ := h.find hfind
  obtain ⟨m', hm', hmem, rfl⟩ := mem_of_snapshot hs
  obtain rfl := Option.some.inj (hm.symm.trans hm')
  have hmem' := mem_of_metaSnapper hm
  exact ⟨h.counts m hmem' s hmem, h.checked m hmem' s hmem⟩

/-- A change of the snapshot of one number, in the config of a name. -/
theorem Tallied.modSnapshot (h : Tallied d₀ uses d) (hfound : d₀.Found)
    (hfind : d₀.find configName = some m₀) (hnum : ∀ s, (g s).num = s.num)
    (hg : ∀ s, s.mountUseCount.toNat = uses (mountKey configName num) →
      (g s).mountUseCount.toNat = uses' (mountKey configName num))
    (hchecked : ∀ s, (g s).mountChecked = true)
    (hother : ∀ key, key ≠ mountKey configName num → uses' key = uses key) :
    Tallied d₀ uses' (d.modSnapshot m₀.id num g) := by
  have hfound' : d.Found := found_of_configs h.base h.configs hfound
  obtain ⟨m, hfind', hid, hm, rfl⟩ := h.find hfind
  -- where a snapshot comes from, and what becomes of its count
  have horigin : ∀ m' ∈ (d.modSnapshot m₀.id num g).metaSnappers, ∀ s' ∈ m'.snapshots,
      s'.mountUseCount.toNat = uses' (mountKey m'.configName s'.num) ∧
        (s'.mountUseCount ≠ 0 → s'.mountChecked = true) := by
    intro m' hm' s' hs'
    obtain ⟨m₁, hm₁, ⟨hid₁, rfl⟩ | ⟨hne, rfl⟩⟩ := mem_modMeta hm'
    · have hsame := h.base.metaSnapper_of_mem hm₁
      rw [hid₁, hm] at hsame
      obtain rfl := Option.some.inj hsame
      rw [setSnapshots_update] at hs'
      obtain ⟨s, hs, ⟨hsnum, rfl⟩ | ⟨hsnum, rfl⟩⟩ := mem_update hs'
      · refine ⟨?_, fun _ => hchecked s⟩
        have hkey : mountKey m.configName (g s).num = mountKey m.configName num := by
          rw [hnum, hsnum]
        show _ = uses' (mountKey m.configName (g s).num)
        rw [hkey]
        exact hg s (by rw [h.counts m hm₁ s hs, hsnum])
      · refine ⟨?_, h.checked m hm₁ s' hs⟩
        show _ = uses' (mountKey m.configName s'.num)
        rw [hother _ fun hkey => hsnum (mountKey_inj hkey).2]
        exact h.counts m hm₁ s' hs
    · refine ⟨?_, h.checked m' hm₁ s' hs'⟩
      rw [hother, h.counts m' hm₁ s' hs']
      intro hkey
      have hfind₁ := hfound' m' hm₁ (isLoaded_of_mem hs')
      rw [(mountKey_inj hkey).1, hfind'] at hfind₁
      obtain rfl := Option.some.inj hfind₁
      exact hne hid
  refine ⟨h.base.modSnapshot hnum, fun m' hm' s' hs' => (horigin m' hm' s' hs').1,
    fun m' hm' s' hs' => (horigin m' hm' s' hs').2, ?_, h.clients, h.tasks, h.background⟩
  rw [← h.configs]
  apply map_update
  intro m'
  rw [setSnapshots_isLoaded]
  rfl

/-- A change that keeps the counts. -/
theorem Tallied.modSnapshot_same (h : Tallied d₀ uses d) (hnum : ∀ s, (g s).num = s.num)
    (hcount : ∀ s, (g s).mountUseCount = s.mountUseCount)
    (hchecked : ∀ s, (g s).mountChecked = true) :
    Tallied d₀ uses (d.modSnapshot id num g) := by
  -- a snapshot of afterwards has the number and the count of one of before
  have horigin : ∀ m' ∈ (d.modSnapshot id num g).metaSnappers, ∀ s' ∈ m'.snapshots,
      s'.mountUseCount.toNat = uses (mountKey m'.configName s'.num) ∧
        (s'.mountUseCount ≠ 0 → s'.mountChecked = true) := by
    intro m' hm' s' hs'
    obtain ⟨m, hm, ⟨-, rfl⟩ | ⟨-, rfl⟩⟩ := mem_modMeta hm'
    · rw [setSnapshots_update] at hs'
      show _ = uses (mountKey m.configName _) ∧ _
      obtain ⟨s, hs, ⟨-, rfl⟩ | ⟨-, rfl⟩⟩ := mem_update hs'
      · rw [hnum, hcount]
        exact ⟨h.counts m hm s hs, fun _ => hchecked s⟩
      · exact ⟨h.counts m hm s' hs, h.checked m hm s' hs⟩
    · exact ⟨h.counts m' hm s' hs', h.checked m' hm s' hs'⟩
  refine ⟨h.base.modSnapshot hnum, fun m' hm' s' hs' => (horigin m' hm' s' hs').1,
    fun m' hm' s' hs' => (horigin m' hm' s' hs').2, ?_, h.clients, h.tasks, h.background⟩
  rw [← h.configs]
  apply map_update
  intro m'
  rw [setSnapshots_isLoaded]
  rfl

/-- What a request of a user changes is not counted. -/
theorem Tallied.see {mounted : Bool} (h : Tallied d₀ uses d) (hnum : ∀ s, (g s).num = s.num)
    (hcount : ∀ s, (g s).mountUseCount = s.mountUseCount)
    (hchecked : ∀ s, (g s).mountChecked = s.mountChecked) :
    Tallied d₀ uses (d.modSnapshot id num (g ∘ Snapshot.checkMounted mounted)) := by
  apply h.modSnapshot_same
  · intro s
    exact (hnum _).trans (num_checkMounted _ s)
  · intro s
    exact (hcount _).trans (mountUseCount_checkMounted _ s)
  · intro s
    exact (hchecked _).trans (mountChecked_checkMounted _ s)

/-- A change of the configs that keeps their lists. -/
theorem Tallied.metas {f : MetaSnapper → MetaSnapper} (h : Tallied d₀ uses d) (hbase : d'.Base)
    (hf : ∀ m, (f m).id = m.id ∧ (f m).configName = m.configName ∧ (f m).snapper = m.snapper)
    (hmetas : d'.metaSnappers = d.metaSnappers.map f) (hclients : d'.clients = d.clients)
    (htasks : d'.tasks = d.tasks) (hbackground : d'.background = d.background) :
    Tallied d₀ uses d' := by
  -- the lists are the old ones
  have horigin : ∀ m' ∈ d'.metaSnappers, ∀ s ∈ m'.snapshots,
      s.mountUseCount.toNat = uses (mountKey m'.configName s.num) ∧
        (s.mountUseCount ≠ 0 → s.mountChecked = true) := by
    intro m' hm' s hs
    rw [hmetas] at hm'
    obtain ⟨m, hm, rfl⟩ := List.mem_map.mp hm'
    rw [MetaSnapper.snapshots, (hf m).2.2] at hs
    rw [(hf m).2.1]
    exact ⟨h.counts m hm s hs, h.checked m hm s hs⟩
  refine ⟨hbase, fun m' hm' s hs => (horigin m' hm' s hs).1,
    fun m' hm' s hs => (horigin m' hm' s hs).2, ?_, hclients.trans h.clients, htasks.trans h.tasks,
    hbackground.trans h.background⟩
  rw [← h.configs, hmetas, List.map_map]
  apply List.map_congr_left
  intro m _
  show (_, _, _) = _
  rw [MetaSnapper.isLoaded, (hf m).1, (hf m).2.1, (hf m).2.2]
  rfl

/-- The time of the last use does not count. -/
theorem Tallied.use (h : Tallied d₀ uses d) {now : Int} :
    Tallied d₀ uses (d.modMeta id fun m => { m with lastUsed := now }) := by
  apply h.metas ((Edit.use id now).base h.base) _ rfl rfl rfl rfl
  intro m
  dsimp only
  split
  · exact ⟨rfl, rfl, rfl⟩
  · exact ⟨rfl, rfl, rfl⟩

theorem Tallied.decAll {comparisons : List Comparison} (h : Tallied d₀ uses d) :
    Tallied d₀ uses (decAll env comparisons d) := by
  induction comparisons generalizing d with
  | nil => exact h
  | cons comparison comparisons ih =>
    apply ih
    apply h.metas h.base.decUseCount _ rfl rfl rfl rfl
    intro m
    split
    · exact ⟨rfl, rfl, rfl⟩
    · exact ⟨rfl, rfl, rfl⟩

end Tallied

/-! ## Mounting and unmounting -/

section Mounts

variable {d₀ d : Daemon} {uses : MountKey → ℕ} {configName : Str} {num : UInt32} {m₀ : MetaSnapper}
  {env : Env} {id : Nat} {s : Snapshot}

/-- A mount that is counted. -/
theorem mount_tallied (hfound : d₀.Found) (hfind : d₀.find configName = some m₀)
    (hgoes : s.isCounted env configName = true → env.fault (.mountSnapshot s.num) = none ∧
      uses (mountKey configName s.num) + 1 < 2 ^ 32) :
    Spec (Tallied d₀ uses) (mountFilesystemSnapshot env m₀.id configName s false)
      (fun _ d =>
        Tallied d₀ (fun key => uses key + single (some (mountKey configName s.num)) 1 key) d ∧
        s.isCounted env configName = true)
      fun _ d => Tallied d₀ uses d ∧ s.isCounted env configName = false := by
  intro d h
  cases hcounted : s.isCounted env configName with
  | false =>
    obtain ⟨e, hrun⟩ : ∃ e, (checkMounted env m₀.id configName s).run d = (.error e, d) :=
      checkMounted_not hcounted
    rw [mountFilesystemSnapshot, Act.run_bind_error hrun]
    exact ⟨h, rfl⟩
  | true =>
    obtain ⟨r, hrun, hok⟩ : ∃ r,
        (mountFilesystemSnapshot env m₀.id configName s false).run d = _ ∧ _ :=
      mountFilesystemSnapshot_run false hcounted
    obtain ⟨hfault, hlt⟩ := hgoes hcounted
    rw [hrun]
    rw [hfault] at hok
    cases r with
    | error e => cases hok
    | ok _ =>
      refine ⟨h.modSnapshot hfound hfind ?_ ?_ ?_ ?_, rfl⟩
      · intro s'
        exact num_checkMounted _ s'
      · intro s' hcount
        show ((s'.checkMounted _).mountUseCount + 1).toNat = _
        rw [mountUseCount_checkMounted, UInt32.toNat_add, hcount, single_self]
        -- the count does not wrap around
        exact Nat.mod_eq_of_lt hlt
      · intro s'
        exact mountChecked_checkMounted _ s'
      · intro key hkey
        rw [single_other hkey]
        rfl

/-- A mount for a user is not counted. -/
theorem mount_user_tallied :
    Spec (Tallied d₀ uses) (mountFilesystemSnapshot env id configName s true)
      (fun _ => Tallied d₀ uses) fun _ => Tallied d₀ uses := by
  intro d h
  -- refused, or marked as the user's and then mounted, which may fail
  cases hcounted : s.isCounted env configName with
  | false =>
    obtain ⟨e, hrun⟩ : ∃ e, (checkMounted env id configName s).run d = (.error e, d) :=
      checkMounted_not hcounted
    rw [mountFilesystemSnapshot, Act.run_bind_error hrun]
    exact h
  | true =>
    obtain ⟨r, hrun, -⟩ : ∃ r, (mountFilesystemSnapshot env id configName s true).run d = _ ∧ _ :=
      mountFilesystemSnapshot_run true hcounted
    have hmount : Tallied d₀ uses (d.modSnapshot id s.num (Snapshot.countMount true ∘
        Snapshot.checkMounted (env.isSnapshotMounted s.num))) :=
      h.see (by intro; rfl) (by intro; rfl) (by intro; rfl)
    rw [hrun]
    cases r with
    | ok _ => exact hmount
    | error e => exact hmount

/-- An unmount that is counted. -/
theorem umount_tallied (hfound : d₀.Found) (hfind : d₀.find configName = some m₀)
    (hgoes : s.isCounted env configName = true → 0 < uses (mountKey configName s.num)) :
    Spec (Tallied d₀ uses) (umountFilesystemSnapshot env m₀.id configName s false)
      (fun _ d =>
        Tallied d₀ (fun key => uses key - single (some (mountKey configName s.num)) 1 key) d ∧
        s.isCounted env configName = true)
      fun _ d => Tallied d₀ uses d ∧ s.isCounted env configName = false := by
  intro d h
  cases hcounted : s.isCounted env configName with
  | false =>
    obtain ⟨e, hrun⟩ : ∃ e, (checkMounted env m₀.id configName s).run d = (.error e, d) :=
      checkMounted_not hcounted
    rw [umountFilesystemSnapshot, Act.run_bind_error hrun]
    exact ⟨h, rfl⟩
  | true =>
    obtain ⟨r, hrun, hok⟩ : ∃ r,
        (umountFilesystemSnapshot env m₀.id configName s false).run d = _ ∧ _ :=
      umountFilesystemSnapshot_run false hcounted
    rw [hrun, hok rfl]
    refine ⟨h.modSnapshot hfound hfind ?_ ?_ ?_ ?_, rfl⟩
    · intro s'
      exact num_checkMounted _ s'
    · intro s' hcount
      show ((s'.checkMounted _).mountUseCount - 1).toNat = _
      -- the count is that of the tally, so that it does not go below zero
      have hle : (1 : UInt32) ≤ s'.mountUseCount := by
        apply UInt32.le_iff_toNat_le.mpr
        rw [hcount]
        exact hgoes hcounted
      rw [mountUseCount_checkMounted, UInt32.toNat_sub_of_le _ _ hle, hcount, single_self]
      rfl
    · intro s'
      exact mountChecked_checkMounted _ s'
    · intro key hkey
      rw [single_other hkey]
      rfl

/-- Neither is an unmount for a user. -/
theorem umount_user_tallied :
    Spec (Tallied d₀ uses) (umountFilesystemSnapshot env id configName s true)
      (fun _ => Tallied d₀ uses) fun _ => Tallied d₀ uses := by
  intro d h
  cases hcounted : s.isCounted env configName with
  | false =>
    obtain ⟨e, hrun⟩ : ∃ e, (checkMounted env id configName s).run d = (.error e, d) :=
      checkMounted_not hcounted
    rw [umountFilesystemSnapshot, Act.run_bind_error hrun]
    exact h
  | true =>
    obtain ⟨r, hrun, -⟩ : ∃ r, (umountFilesystemSnapshot env id configName s true).run d = _ ∧ _ :=
      umountFilesystemSnapshot_run true hcounted
    have humount : Tallied d₀ uses (d.modSnapshot id s.num (Snapshot.countUmount true ∘
        Snapshot.checkMounted (env.isSnapshotMounted s.num))) :=
      h.see (by intro; rfl) (by intro; rfl) (by intro; rfl)
    rw [hrun]
    cases r with
    | ok _ => exact humount
    | error e => exact humount

/-! ## Comparisons -/

/-- One of the two calls, where it succeeds. -/
theorem mountOf_tallied (hfound : d₀.Found) (hfind : d₀.find configName = some m₀)
    (h : Tallied d₀ uses d) (hs : d.snapshot m₀.id num = some s)
    (hmounts : s.mounts env configName = true)
    (hlt : num ≠ 0 → uses (mountKey configName num) + 1 < 2 ^ 32) :
    ∃ d₁, (mountOf env m₀.id num mountFilesystemSnapshot).run d = (.ok ⟨⟩, d₁) ∧
      Tallied d₀ (fun key => uses key + single (d₀.keyOf m₀.id num) 1 key) d₁ ∧
      ∀ num', num' ≠ num → d₁.snapshot m₀.id num' = d.snapshot m₀.id num' := by
  obtain ⟨m, -, -, hm, rfl⟩ := h.find hfind
  have hkey := keyOf_of_configs h.configs m₀.id num
  have hnum := num_of_snapshot hs
  -- the current system has no count
  by_cases hzero : num = 0
  · subst hzero
    rw [← hkey, keyOf_current]
    exact ⟨d, mountOf_current _, by simpa using h, fun _ _ => rfl⟩
  · have hcurrent : s.isCurrent = false :=
      Bool.eq_false_iff.mpr fun hcurrent => hzero (hnum.symm.trans (isCurrent_iff.mp hcurrent))
    obtain ⟨hchecks, hfault⟩ : s.checks env m.configName = true ∧
        (env.fault (.mountSnapshot s.num)).isNone = true := by
      simpa [Snapshot.mounts, hcurrent] using hmounts
    have hcounted : s.isCounted env m.configName = true := by
      simp [Snapshot.isCounted, hcurrent, hchecks]
    have hgoes : env.fault (.mountSnapshot s.num) = none ∧
        uses (mountKey m.configName s.num) + 1 < 2 ^ 32 := by
      rw [hnum] at hfault ⊢
      exact ⟨Option.isNone_iff_eq_none.mp hfault, hlt hzero⟩
    obtain ⟨r, d₁, hrun, hok, hturns⟩ := mountOf_mount env hm hs
    rw [hmounts] at hok
    have hspec := mount_tallied hfound hfind (fun _ => hgoes) d h
    rw [mountOf_run hzero hm hs] at hrun ⊢
    rw [hrun] at hspec ⊢
    cases r with
    | error e => cases hok
    | ok _ =>
      rw [← hkey, keyOf_eq hzero hm, ← hnum]
      exact ⟨d₁, rfl, hspec.1, fun num' hne => hturns.other (hne.trans_eq hnum)⟩

/-- Both calls of a comparison: they succeed, or the first that is made fails before it counts. -/
theorem mountBoth_tallied {num1 num2 : UInt32} {s1 s2 : Snapshot} (hfound : d₀.Found)
    (hfind : d₀.find configName = some m₀) (h : Tallied d₀ uses d) (hne : num1 ≠ num2)
    (hs1 : d.snapshot m₀.id num1 = some s1) (hs2 : d.snapshot m₀.id num2 = some s2)
    (hgoes : FailsAtOnce env configName s1 s2 ∨
      (s1.mounts env configName = true ∧ s2.mounts env configName = true ∧
        (num1 ≠ 0 → uses (mountKey configName num1) + 1 < 2 ^ 32) ∧
        (num2 ≠ 0 → uses (mountKey configName num2) + 1 < 2 ^ 32))) :
    (∃ d₁, (mountBoth env m₀.id num1 num2).run d = (.ok ⟨⟩, d₁) ∧
      Tallied d₀ (fun key => uses key + single (d₀.keyOf m₀.id num1) 1 key +
        single (d₀.keyOf m₀.id num2) 1 key) d₁) ∨
    ∃ e, (mountBoth env m₀.id num1 num2).run d = (.error e, d) := by
  obtain ⟨m, -, -, hm, rfl⟩ := h.find hfind
  have hnum1 := num_of_snapshot hs1
  have hnum2 := num_of_snapshot hs2
  rcases hgoes with hfails | ⟨hmounts1, hmounts2, hlt1, hlt2⟩
  · right
    have hrefused : ∀ {num : UInt32} {s : Snapshot}, d.snapshot m₀.id num = some s →
        s.isCurrent = false → s.checks env m.configName = false →
        ∃ e, (mountOf env m₀.id num mountFilesystemSnapshot).run d = (.error e, d) := by
      intro num s hs hcurrent hchecks
      have hzero : num ≠ 0 := fun hzero => by
        rw [isCurrent_iff.mpr ((num_of_snapshot hs).trans hzero)] at hcurrent
        cases hcurrent
      obtain ⟨e, hrun⟩ : ∃ e, (checkMounted env m₀.id m.configName s).run d = (.error e, d) :=
        checkMounted_error hcurrent hchecks
      rw [mountOf_run hzero hm hs]
      exact ⟨e, Act.run_bind_error hrun⟩
    rw [FailsAtOnce] at hfails
    rw [mountBoth]
    cases hcurrent1 : s1.isCurrent with
    | true =>
      rw [if_pos hcurrent1] at hfails
      have hzero : num1 = 0 := hnum1.symm.trans (isCurrent_iff.mp hcurrent1)
      subst hzero
      have hcurrent2 : s2.isCurrent = false :=
        Bool.eq_false_iff.mpr fun hcurrent =>
          hne (hnum2.symm.trans (isCurrent_iff.mp hcurrent)).symm
      obtain ⟨e, hrun⟩ := hrefused hs2 hcurrent2 hfails
      exact ⟨e, (Act.run_bind_ok (mountOf_current _)).trans hrun⟩
    | false =>
      rw [if_neg (by simp [hcurrent1])] at hfails
      obtain ⟨e, hrun⟩ := hrefused hs1 hcurrent1 hfails
      exact ⟨e, Act.run_bind_error hrun⟩
  · left
    obtain ⟨d₁, hrun₁, h₁, hother⟩ := mountOf_tallied hfound hfind h hs1 hmounts1 hlt1
    have hs2' : d₁.snapshot m₀.id num2 = some s2 := (hother num2 hne.symm).trans hs2
    have hlt2' : num2 ≠ 0 → uses (mountKey m.configName num2) +
        single (d₀.keyOf m₀.id num1) 1 (mountKey m.configName num2) + 1 < 2 ^ 32 := by
      intro hzero
      -- the first snapshot is another one
      have hnone : single (d₀.keyOf m₀.id num1) 1 (mountKey m.configName num2) = 0 := by
        rw [← keyOf_of_configs h.configs]
        by_cases hzero1 : num1 = 0
        · rw [hzero1, keyOf_current, single_none]
        · rw [keyOf_eq hzero1 hm]
          exact single_other fun hkey => hne (mountKey_inj hkey).2.symm
      rw [hnone]
      exact hlt2 hzero
    obtain ⟨d₂, hrun₂, h₂, -⟩ := mountOf_tallied hfound hfind h₁ hs2' hmounts2 hlt2'
    exact ⟨d₂, (Act.run_bind_ok hrun₁).trans hrun₂, h₂⟩

/-- A snapshot that is in use can be unmounted, and its count goes down by one. -/
theorem umountOf_tallied (hfound : d₀.Found) (hfind : d₀.find configName = some m₀)
    (h : Tallied d₀ uses d) (hs : d.snapshot m₀.id num = some s)
    (hpos : num ≠ 0 → 0 < uses (mountKey configName num)) :
    ∃ d₁, (mountOf env m₀.id num umountFilesystemSnapshot).run d = (.ok ⟨⟩, d₁) ∧
      Tallied d₀ (fun key => uses key - single (d₀.keyOf m₀.id num) 1 key) d₁ ∧
      ∀ num', num' ≠ num → d₁.snapshot m₀.id num' = d.snapshot m₀.id num' := by
  obtain ⟨hcount, hchecked⟩ := h.count hfind hs
  obtain ⟨m, -, -, hm, rfl⟩ := h.find hfind
  have hkey := keyOf_of_configs h.configs m₀.id num
  have hnum := num_of_snapshot hs
  by_cases hzero : num = 0
  · subst hzero
    rw [← hkey, keyOf_current]
    exact ⟨d, mountOf_current _, by simpa using h, fun _ _ => rfl⟩
  · have hcurrent : s.isCurrent = false :=
      Bool.eq_false_iff.mpr fun hcurrent => hzero (hnum.symm.trans (isCurrent_iff.mp hcurrent))
    -- what is counted has been looked at
    have hseen : s.mountChecked = true := by
      apply hchecked
      rintro hnone
      rw [hnone] at hcount
      exact absurd (hpos hzero) (by rw [← hcount]; exact Nat.lt_irrefl 0)
    have hgoes : 0 < uses (mountKey m.configName s.num) := by
      rw [hnum]
      exact hpos hzero
    obtain ⟨d₁, hrun, hturns⟩ := mountOf_umount env hm hs (Or.inr hseen)
    have hspec : Spec (Tallied d₀ uses)
        (umountFilesystemSnapshot env m₀.id m.configName s false) _ _ :=
      umount_tallied hfound hfind fun _ => hgoes
    have hpost := hspec d h
    rw [mountOf_run hzero hm hs] at hrun ⊢
    rw [hrun] at hpost ⊢
    rw [← hkey, keyOf_eq hzero hm, ← hnum]
    exact ⟨d₁, rfl, hpost.1, fun num' hne => hturns.other (hne.trans_eq hnum)⟩

/-- The two snapshots of a comparison are unmounted again, each of them counted before: both uses
go, and nothing can fail. -/
theorem umountBoth_tallied {num1 num2 : UInt32} {s1 s2 : Snapshot} (hfound : d₀.Found)
    (hfind : d₀.find configName = some m₀) (h : Tallied d₀ uses d) (hne : num1 ≠ num2)
    (hs1 : d.snapshot m₀.id num1 = some s1) (hs2 : d.snapshot m₀.id num2 = some s2)
    (hpos1 : num1 ≠ 0 → 0 < uses (mountKey configName num1))
    (hpos2 : num2 ≠ 0 → 0 < uses (mountKey configName num2)) :
    ∃ d₁, (umountBoth env m₀.id num1 num2).run d = (.ok ⟨⟩, d₁) ∧
      Tallied d₀ (fun key => uses key - single (d₀.keyOf m₀.id num1) 1 key -
        single (d₀.keyOf m₀.id num2) 1 key) d₁ := by
  obtain ⟨d₁, hrun₁, h₁, hother⟩ :
      ∃ d₁, (mountOf env m₀.id num1 umountFilesystemSnapshot).run d = (.ok ⟨⟩, d₁) ∧ _ :=
    umountOf_tallied hfound hfind h hs1 hpos1
  have hs2' : d₁.snapshot m₀.id num2 = some s2 := (hother num2 hne.symm).trans hs2
  -- the first one takes no use from the second, as they are two
  have hpos2' : num2 ≠ 0 → 0 < uses (mountKey configName num2) -
      single (d₀.keyOf m₀.id num1) 1 (mountKey configName num2) := by
    intro hzero
    obtain ⟨m, -, -, hm, rfl⟩ := h.find hfind
    have hnone : single (d₀.keyOf m₀.id num1) 1 (mountKey m.configName num2) = 0 := by
      rw [← keyOf_of_configs h.configs]
      by_cases hzero1 : num1 = 0
      · rw [hzero1, keyOf_current, single_none]
      · rw [keyOf_eq hzero1 hm]
        exact single_other fun hkey => hne (mountKey_inj hkey).2.symm
    rw [hnone]
    exact hpos2 hzero
  obtain ⟨d₂, hrun₂, h₂, -⟩ :
      ∃ d₂, (mountOf env m₀.id num2 umountFilesystemSnapshot).run d₁ = (.ok ⟨⟩, d₂) ∧ _ :=
    umountOf_tallied hfound hfind h₁ hs2' hpos2'
  exact ⟨d₂, (Act.run_bind_ok hrun₁).trans hrun₂, h₂⟩

/-! ## The end of a client -/

/-- Looking up a snapshot changes no count. -/
theorem getSnapshot_tallied :
    Spec (Tallied d₀ uses) (getSnapshot id num) (fun s d => Tallied d₀ uses d ∧ s.num = num)
      fun _ => Tallied d₀ uses := by
  apply Spec.bind (Q := fun found d => Tallied d₀ uses d ∧ d.snapshot id num = found)
  · exact Spec.read fun _ h => ⟨h, rfl⟩
  · intro found
    cases found with
    | none => exact Spec.throw fun _ h => h.1
    | some s => exact Spec.pure fun _ h => ⟨h.1, key_of_lookup h.2⟩

/-- The loop over the uses of one mount. -/
theorem umountTimes_tallied {n : ℕ} (hfound : d₀.Found) (hfind : d₀.find configName = some m₀)
    (hle : n ≤ uses (mountKey configName num)) :
    Spec (Tallied d₀ uses) (umountTimes env m₀.id configName num n)
      (fun _ => Tallied d₀ fun key => uses key - single (some (mountKey configName num)) n key)
      fun _ _ => True := by
  -- each round takes one use away, so the tally itself has to vary
  induction n generalizing uses with
  | zero =>
    have hnone : (fun key => uses key - single (some (mountKey configName num)) 0 key) = uses := by
      funext key
      simp [single]
    rw [hnone]
    exact Spec.pure fun _ h => h
  | succ n ih =>
    apply Spec.bind
      (getSnapshot_tallied.conseq (fun _ h => h) (fun _ _ h => h) fun _ _ _ => trivial)
    intro s
    rintro d ⟨h, rfl⟩
    have humount : Spec (Tallied d₀ uses) (umountFilesystemSnapshot env m₀.id configName s false)
        (fun _ => Tallied d₀ _) fun _ _ => True :=
      (umount_tallied hfound hfind fun _ => Nat.lt_of_lt_of_le (Nat.succ_pos n) hle).conseq
        (fun _ h => h) (fun _ _ h => h.1) fun _ _ _ => trivial
    have hlower : n ≤ uses (mountKey configName s.num) -
        single (some (mountKey configName s.num)) 1 (mountKey configName s.num) := by
      rw [single_self]
      omega
    have hrest : Spec
        (Tallied d₀ fun key => uses key - single (some (mountKey configName s.num)) 1 key)
        (umountTimes env m₀.id configName s.num n)
        (fun _ => Tallied d₀ fun key => uses key - single (some (mountKey configName s.num)) 1 key -
          single (some (mountKey configName s.num)) n key) fun _ _ => True := ih hlower
    -- one use and then `n` more are `n + 1`
    have hsub : (fun key => uses key - single (some (mountKey configName s.num)) 1 key -
        single (some (mountKey configName s.num)) n key) =
          fun key => uses key - single (some (mountKey configName s.num)) (n + 1) key := by
      funext key
      by_cases hkey : key = mountKey configName s.num
      · subst hkey
        rw [single_self, single_self, single_self]
        omega
      · rw [single_other hkey, single_other hkey, single_other hkey]
        rfl
    rw [hsub] at hrest
    exact Spec.bind humount (fun _ => hrest) d h

/-- The uses of some mounts. -/
def lost (l : List (MountKey × UInt32)) (key : MountKey) : ℕ :=
  (l.map fun entry => single (some entry.1) entry.2.toNat key).sum

theorem lost_of_not_mem {l : List (MountKey × UInt32)} {key : MountKey}
    (h : ∀ entry ∈ l, entry.1 ≠ key) : lost l key = 0 := by
  apply List.sum_eq_zero
  intro n hn
  obtain ⟨entry, hentry, rfl⟩ := List.mem_map.mp hn
  exact single_other fun hkey => h entry hentry hkey.symm

/-- An entry of the mounts of a client is lost once, as the keys are distinct. -/
theorem lost_of_mem {l : List (MountKey × UInt32)} {key : MountKey} {use : UInt32}
    (hnodup : (l.map Prod.fst).Nodup) (h : (key, use) ∈ l) : lost l key = use.toNat := by
  induction l with
  | nil => cases h
  | cons entry rest ih =>
    rw [List.map_cons, List.nodup_cons] at hnodup
    have hcons : lost (entry :: rest) key =
        single (some entry.1) entry.2.toNat key + lost rest key := by
      rw [lost, List.map_cons, List.sum_cons]
      rfl
    rw [hcons]
    rcases List.mem_cons.mp h with rfl | hrest
    · rw [lost_of_not_mem, single_self, Nat.add_zero]
      intro entry hentry hkey
      exact hnodup.1 (List.mem_map.mpr ⟨entry, hentry, hkey⟩)
    · have hne : key ≠ entry.1 := by
        rintro rfl
        exact hnodup.1 (List.mem_map.mpr ⟨_, hrest, rfl⟩)
      rw [ih hnodup.2 hrest, single_other hne, Nat.zero_add]

/-- The mounts of a client are what it has mounted. -/
theorem lost_mounts {client : Client} {key : MountKey} :
    lost client.mounts.entries key = client.mountsOf key := by
  have hnodup : (client.mounts.entries.map Prod.fst).Nodup :=
    List.pairwise_map.mpr (client.mounts.sorted.imp fun hlt => ne_of_lt hlt)
  rw [Client.mountsOf]
  cases hfind : client.mounts.find key with
  | none =>
    apply lost_of_not_mem
    rintro entry hentry rfl
    have hsome : client.mounts.find entry.1 = some entry.2 := SortedMap.find_eq_some_iff.mpr hentry
    rw [hfind] at hsome
    cases hsome
  | some use => exact lost_of_mem hnodup (SortedMap.find_eq_some_iff.mp hfind)

/-- The destructor of a client takes its uses away, or it throws. -/
theorem umountAll_tallied {l : List (MountKey × UInt32)} (hfound : d₀.Found)
    (hloaded : ∀ entry ∈ l, ∀ m, d₀.find (ofLex entry.1).1 = some m →
      env.fault (.loadSnapper m.configName) = none → m.isLoaded = true)
    (hle : ∀ key, lost l key ≤ uses key) :
    Spec (Tallied d₀ uses) (umountAll env l) (fun _ => Tallied d₀ fun key => uses key - lost l key)
      fun _ _ => True := by
  induction l generalizing uses with
  | nil => exact Spec.pure fun _ h => h
  | cons entry rest ih =>
    obtain ⟨key, use⟩ := entry
    have hcons : ∀ key', lost ((key, use) :: rest) key' =
        single (some key) use.toNat key' + lost rest key' := by
      intro key'
      rw [lost, List.map_cons, List.sum_cons]
      rfl
    have hfind : Spec (Tallied d₀ uses) (findConfig (ofLex key).1)
        (fun m d => Tallied d₀ uses d ∧ d.find (ofLex key).1 = some m) fun _ _ => True := by
      apply Spec.bind (Q := fun found d => Tallied d₀ uses d ∧ d.find (ofLex key).1 = found)
      · exact Spec.read fun _ h => ⟨h, rfl⟩
      · intro found
        cases found with
        | none => exact Spec.throw fun _ _ => trivial
        | some m => exact Spec.pure fun _ h => h
    apply Spec.bind hfind
    intro m
    rintro d ⟨h, hm⟩
    -- the config is the one of the other state, and it is loaded
    obtain ⟨m₀, hm₀, hid, hload⟩ := find_of_find h.configs.symm hm
    have hm' := h.base.addresses.metaSnapper_of_find hm
    by_cases hopens : m.isLoaded = true ∨ env.fault (.loadSnapper m.configName) = none
    swap
    · obtain ⟨e, hrun⟩ := getSnapper_run_not hm' hopens
      rw [Act.run_bind_error hrun]
      trivial
    have hload' : m.isLoaded = true := by
      by_contra hunloaded
      have hfault := hopens.resolve_left hunloaded
      rw [configName_of_find hm, ← configName_of_find hm₀] at hfault
      rw [← hload] at hunloaded
      exact hunloaded (hloaded (key, use) List.mem_cons_self m₀ hm₀ hfault)
    have hopen : (getSnapper env m.id).run d = (.ok ⟨⟩, d.opened env m) := getSnapper_run hm' hopens
    have hopened : Tallied d₀ uses (d.opened env m) := by
      rw [Daemon.opened, if_pos hload']
      exact h.use
    rw [Act.run_bind_ok hopen]
    have hget : Spec (Tallied d₀ uses) (getSnapshot m.id (ofLex key).2)
        (fun _ => Tallied d₀ uses) fun _ _ => True :=
      getSnapshot_tallied.conseq (fun _ h => h) (fun _ _ h => h.1) fun _ _ _ => trivial
    have hkey : use.toNat ≤ uses key := by
      have hall := hle key
      rw [hcons, single_self] at hall
      exact (Nat.le_add_right _ _).trans hall
    have htimes : Spec (Tallied d₀ uses) (umountTimes env m.id m.configName (ofLex key).2 use.toNat)
        (fun _ => Tallied d₀ fun key' => uses key' - single (some key) use.toNat key')
        fun _ _ => True := by
      rw [configName_of_find hm, ← hid]
      exact umountTimes_tallied hfound hm₀ hkey
    have hrest : Spec (Tallied d₀ fun key' => uses key' - single (some key) use.toNat key')
        (umountAll env rest)
        (fun _ => Tallied d₀ fun key' => uses key' - lost ((key, use) :: rest) key')
        fun _ _ => True := by
      have hsub : (fun key' => uses key' - lost ((key, use) :: rest) key') = fun key' =>
          uses key' - single (some key) use.toNat key' - lost rest key' := by
        funext key'
        rw [hcons, Nat.sub_sub]
      rw [hsub]
      apply ih fun entry hentry => hloaded entry (List.mem_cons_of_mem _ hentry)
      intro key'
      have hall := hle key'
      rw [hcons] at hall
      omega
    exact Spec.bind hget (fun _ => Spec.bind htimes fun _ => hrest) _ hopened

end Mounts

end Snapper.Server
