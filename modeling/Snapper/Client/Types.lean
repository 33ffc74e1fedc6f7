import Mathlib.Data.List.Nodup
import Snapper.Base.Bytes

/-!
# What the client knows of snapshots

The snapshots of a config as the client gets them from the server.  Their numbers ascend
strictly, so a snapshot stands for the iterator that points to it.
-/

namespace Snapper

inductive SnapshotType where
  | SINGLE | PRE | POST
  deriving DecidableEq, Repr

/-- A snapshot as the client gets it; the numbers are those that the message has. -/
structure XSnapshot where
  type : SnapshotType
  num : Nat
  date : Int
  uid : Nat
  preNum : Nat
  description : Str
  cleanup : Str
  userdata : StrMap
  deriving DecidableEq

def XSnapshot.isCurrent (s : XSnapshot) : Bool := s.num = 0

/-- The snapshots of a config, in ascending order of their numbers. -/
structure XSnapshots where
  entries : List XSnapshot
  ascending : entries.Pairwise fun a b => a.num < b.num

namespace XSnapshots

/-- `find`, which asks nothing of the order of the entries; `none` for `end()` -/
def find (entries : List XSnapshot) (num : Nat) : Option XSnapshot :=
  entries.find? fun s => s.num = num

/-- `findPre`; the outer `none` is `throw` without an exception, which ends the program. -/
def findPre (snapshots : XSnapshots) (post : XSnapshot) : Option (Option XSnapshot) :=
  if post.isCurrent ∨ post.type ≠ .POST then none
  else some (snapshots.entries.find? fun s => s.type = .PRE ∧ s.num = post.preNum)

/-- `findPost`, as `findPre` -/
def findPost (snapshots : XSnapshots) (pre : XSnapshot) : Option (Option XSnapshot) :=
  if pre.isCurrent ∨ pre.type ≠ .PRE then none
  else some (snapshots.entries.find? fun s => s.type = .POST ∧ s.preNum = pre.num)

/-- The list without the snapshots with these numbers. -/
def without (snapshots : XSnapshots) (nums : List Nat) : XSnapshots :=
  ⟨snapshots.entries.filter fun s => s.num ∉ nums, snapshots.ascending.filter _⟩

/-- Each pre snapshot has at most one post snapshot. -/
def OnePost (snapshots : XSnapshots) : Prop :=
  ∀ pre ∈ snapshots.entries, pre.type = .PRE → ∀ post ∈ snapshots.entries,
    ∀ post' ∈ snapshots.entries, post.type = .POST → post'.type = .POST →
      post.preNum = pre.num → post'.preNum = pre.num → post = post'

section Find

variable {snapshots : XSnapshots} {a b pre post : XSnapshot}

/-- A number is of one snapshot. -/
theorem eq_of_num (ha : a ∈ snapshots.entries) (hb : b ∈ snapshots.entries)
    (h : a.num = b.num) : a = b := by
  have hnums : (snapshots.entries.map XSnapshot.num).Nodup :=
    List.pairwise_map.mpr (snapshots.ascending.imp fun hlt => ne_of_lt hlt)
  exact List.inj_on_of_nodup_map hnums ha hb h

theorem nodup : snapshots.entries.Nodup :=
  snapshots.ascending.imp fun hlt heq => by rw [heq] at hlt; exact lt_irrefl _ hlt

/-- The pre snapshot of a post snapshot. -/
theorem findPre_eq (hpre : pre ∈ snapshots.entries) (htype : pre.type = .PRE)
    (hpost : post.type = .POST) (hnum : post.preNum = pre.num) (hcurrent : post.isCurrent = false) :
    snapshots.findPre post = some (some pre) := by
  unfold findPre
  rw [if_neg (by simp [hpost, hcurrent]), Option.some.injEq]
  obtain ⟨s, hs⟩ : ∃ s, snapshots.entries.find? (fun s => s.type = .PRE ∧ s.num = post.preNum) =
      some s := by
    rw [← Option.isSome_iff_exists, List.find?_isSome]
    exact ⟨pre, hpre, by simp [htype, hnum]⟩
  have hprop := List.find?_some hs
  simp only [decide_eq_true_eq] at hprop
  rw [hs, eq_of_num (List.mem_of_find?_eq_some hs) hpre (hprop.2.trans hnum)]

/-- The post snapshot of a pre snapshot. -/
theorem findPost_eq (hone : snapshots.OnePost) (hpre : pre ∈ snapshots.entries)
    (htype : pre.type = .PRE) (hpost : post ∈ snapshots.entries) (htype' : post.type = .POST)
    (hnum : post.preNum = pre.num) (hcurrent : pre.isCurrent = false) :
    snapshots.findPost pre = some (some post) := by
  unfold findPost
  rw [if_neg (by simp [htype, hcurrent]), Option.some.injEq]
  obtain ⟨s, hs⟩ : ∃ s, snapshots.entries.find? (fun s => s.type = .POST ∧ s.preNum = pre.num) =
      some s := by
    rw [← Option.isSome_iff_exists, List.find?_isSome]
    exact ⟨post, hpost, by simp [htype', hnum]⟩
  have hprop := List.find?_some hs
  simp only [decide_eq_true_eq] at hprop
  rw [hs, hone pre hpre htype s (List.mem_of_find?_eq_some hs) post hpost hprop.1 htype' hprop.2
    hnum]

end Find

end XSnapshots

end Snapper
