import Snapper.Client.Cleanup

/-!
# What any cleanup deletes is safe

The selected snapshots are old enough, have what the algorithm looks for, and pre and post
snapshots are selected in pairs.

## Main results

- `filter2_pre_iff_post`: of a pair both or none stay
- `cleanup_safe`: what holds of each algorithm
-/

namespace Snapper

/-- An algorithm with its configuration; `getFiles` gives the files of a comparison. -/
inductive Cleanup where
  | number (config : NumberConfig)
  | timeline (config : TimelineConfig) (localtime : Int → Tm)
  | emptyPrePost (config : EmptyPrePostConfig) (getFiles : Nat → Nat → Option (List XFile))

namespace Cleanup

/-- The minimum age of the algorithm. -/
def minAge : Cleanup → Int
  | number config => config.minAge
  | timeline config _ => config.minAge
  | emptyPrePost config _ => config.minAge

/-- The snapshots that the algorithm deletes. -/
def run (now : Int) (snapshots : XSnapshots) : Cleanup → Option (List XSnapshot)
  | number config => doCleanupNumber config now snapshots
  | timeline config localtime => doCleanupTimeline localtime config now snapshots
  | emptyPrePost config getFiles => doCleanupEmptyPrePost none getFiles config now snapshots

/-- The numbers whose deletion is requested, each request being answered without an error. -/
def requested (c : Cleanup) (now : Int) (snapshots : XSnapshots) : List Nat :=
  ((c.run now snapshots).getD []).map XSnapshot.num

/-- The pre and the post snapshot of a comparison without files. -/
def EmptyPair (getFiles : Nat → Nat → Option (List XFile)) (pre post : XSnapshot) : Prop :=
  pre.type = .PRE ∧ post.type = .POST ∧ post.preNum = pre.num ∧
    getFiles pre.num post.num = some []

/-- What an algorithm looks for in a snapshot. -/
def Selects (snapshots : XSnapshots) (s : XSnapshot) : Cleanup → Prop
  | number config => s.cleanup = str "number" ∧
      config.limit ≤
        (snapshots.entries.filter fun s' => s'.cleanup = str "number" ∧ s.num < s'.num).length
  | timeline _ _ => s.cleanup = str "timeline"
  | emptyPrePost _ getFiles => ∃ pre ∈ snapshots.entries, ∃ post ∈ snapshots.entries,
      EmptyPair getFiles pre post ∧ (s = pre ∨ s = post)

/-- What must hold of a set of numbers to be deleted. -/
structure Safe (c : Cleanup) (now : Int) (snapshots : XSnapshots) (nums : List Nat) : Prop where
  old : ∀ n ∈ nums, ∃ s ∈ snapshots.entries, s.num = n ∧ c.minAge ≤ now - s.date
  selected : ∀ n ∈ nums, ∃ s ∈ snapshots.entries, s.num = n ∧ c.Selects snapshots s
  pairs : ∀ pre ∈ snapshots.entries, ∀ post ∈ snapshots.entries, pre.type = .PRE →
    post.type = .POST → post.preNum = pre.num → (pre.num ∈ nums ↔ post.num ∈ nums)

end Cleanup

/-! ## The filters -/

section Filters

variable {snapshots : XSnapshots} {tmp out : List XSnapshot} {s pre post : XSnapshot}
  {minAge now : Int}

theorem mem_filter1 : s ∈ filter1 tmp minAge now ↔ s ∈ tmp ∧ minAge ≤ now - s.date := by
  simp only [filter1, youngerThan, List.mem_filter, Bool.not_eq_true', decide_eq_false_iff_not]
  refine and_congr_right fun _ => ?_
  omega

/-- The filter comes to an end when each check does, and keeps those for which it says so. -/
theorem filter2Loop_eq_some {l : List XSnapshot} (h : filter2Loop snapshots tmp l = some out) :
    (∀ s ∈ l, ∃ b, filter2Keeps snapshots tmp s = some b) ∧
      out = l.filter fun s => filter2Keeps snapshots tmp s = some true := by
  induction l generalizing out with
  | nil => exact ⟨fun s hs => absurd hs List.not_mem_nil, (Option.some.inj h).symm⟩
  | cons it1 rest ih =>
    obtain ⟨b, hb, h⟩ := Option.bind_eq_some_iff.mp h
    obtain ⟨ret, hret, h⟩ := Option.bind_eq_some_iff.mp h
    obtain ⟨hall, rfl⟩ := ih hret
    refine ⟨fun s hs => ?_, ?_⟩
    · obtain rfl | hs := List.mem_cons.mp hs
      · exact ⟨b, hb⟩
      · exact hall s hs
    · rw [← Option.some.inj h, List.filter_cons, hb]
      cases b <;> simp

theorem filter2_eq_some (h : filter2 snapshots tmp = some out) :
    (∀ s ∈ tmp, ∃ b, filter2Keeps snapshots tmp s = some b) ∧
      ∀ s, s ∈ out ↔ s ∈ tmp ∧ filter2Keeps snapshots tmp s = some true := by
  obtain ⟨hall, rfl⟩ := filter2Loop_eq_some h
  exact ⟨hall, fun s => by simp⟩

/-- The search for a corresponding snapshot has no result for the current one. -/
theorem not_current_of_keeps {b : Bool} (h : filter2Keeps snapshots tmp s = some b)
    (htype : s.type ≠ .SINGLE) : s.isCurrent = false := by
  cases hcurrent : s.isCurrent with
  | false => rfl
  | true =>
    exfalso
    unfold filter2Keeps at h
    cases hs : s.type with
    | SINGLE => exact htype hs
    | PRE => simp [hs, XSnapshots.findPost, hcurrent] at h
    | POST => simp [hs, XSnapshots.findPre, hcurrent] at h

/-- A pre snapshot is kept in the selection when its only post snapshot is selected as well. -/
theorem keeps_pre (hone : snapshots.OnePost) (hpre : pre ∈ snapshots.entries)
    (htype : pre.type = .PRE) (hpost : post ∈ snapshots.entries) (htype' : post.type = .POST)
    (hnum : post.preNum = pre.num) (hcurrent : pre.isCurrent = false) :
    filter2Keeps snapshots tmp pre = some (decide (post ∈ tmp)) := by
  unfold filter2Keeps
  rw [htype]
  simp only [snapshots.findPost_eq hone hpre htype hpost htype' hnum hcurrent, Option.map_some,
    partnerIn]

theorem keeps_post (hpre : pre ∈ snapshots.entries) (htype : pre.type = .PRE)
    (htype' : post.type = .POST) (hnum : post.preNum = pre.num)
    (hcurrent : post.isCurrent = false) :
    filter2Keeps snapshots tmp post = some (decide (pre ∈ tmp)) := by
  unfold filter2Keeps
  rw [htype']
  simp only [snapshots.findPre_eq hpre htype htype' hnum hcurrent, Option.map_some, partnerIn]

/-- Of a pre and its post snapshot both or none stay. -/
theorem filter2_pre_iff_post (hone : snapshots.OnePost) (h : filter2 snapshots tmp = some out)
    (hpre : pre ∈ snapshots.entries) (htype : pre.type = .PRE) (hpost : post ∈ snapshots.entries)
    (htype' : post.type = .POST) (hnum : post.preNum = pre.num) : pre ∈ out ↔ post ∈ out := by
  obtain ⟨hall, hout⟩ := filter2_eq_some h
  -- the filter keeps a pre snapshot when its post is selected, and the other way round
  have hkeepsPre : pre ∈ tmp → filter2Keeps snapshots tmp pre = some (decide (post ∈ tmp)) := by
    intro hmem
    obtain ⟨b, hb⟩ := hall pre hmem
    have hcurrent := not_current_of_keeps hb (by simp [htype])
    exact keeps_pre hone hpre htype hpost htype' hnum hcurrent
  have hkeepsPost : post ∈ tmp → filter2Keeps snapshots tmp post = some (decide (pre ∈ tmp)) := by
    intro hmem
    obtain ⟨b, hb⟩ := hall post hmem
    have hcurrent := not_current_of_keeps hb (by simp [htype'])
    exact keeps_post hpre htype htype' hnum hcurrent
  rw [hout, hout]
  constructor
  · intro ⟨hmem, hkeeps⟩
    have hmem' : post ∈ tmp := by simpa [hkeepsPre hmem] using hkeeps
    exact ⟨hmem', by rw [hkeepsPost hmem']; simpa using hmem⟩
  · intro ⟨hmem, hkeeps⟩
    have hmem' : pre ∈ tmp := by simpa [hkeepsPost hmem] using hkeeps
    exact ⟨hmem', by rw [hkeepsPre hmem']; simpa using hmem⟩

end Filters

/-! ## The algorithms -/

section Algorithms

variable {snapshots : XSnapshots} {now : Int} {c : Cleanup} {tmp out : List XSnapshot}

/-- What is left of a selection by the two filters. -/
theorem safe_of_filters (hone : snapshots.OnePost)
    (htmp : ∀ s ∈ tmp, s ∈ snapshots.entries ∧ c.Selects snapshots s)
    (h : filter2 snapshots (filter1 tmp c.minAge now) = some out) :
    c.Safe now snapshots (out.map XSnapshot.num) := by
  obtain ⟨_, hout⟩ := filter2_eq_some h
  have hmem : ∀ s ∈ out, s ∈ tmp ∧ c.minAge ≤ now - s.date := fun s hs =>
    mem_filter1.mp ((hout s).mp hs).1
  -- numbers stand once in the list
  have hnum : ∀ s ∈ snapshots.entries, s.num ∈ out.map XSnapshot.num ↔ s ∈ out := by
    intro s hs
    refine ⟨fun h => ?_, List.mem_map_of_mem⟩
    obtain ⟨s', hs', heq⟩ := List.mem_map.mp h
    rwa [← XSnapshots.eq_of_num (htmp s' (hmem s' hs').1).1 hs heq]
  -- the minimum age, the selection and the pairs
  refine ⟨?_, ?_, ?_⟩
  · intro n hn
    obtain ⟨s, hs, rfl⟩ := List.mem_map.mp hn
    exact ⟨s, (htmp s (hmem s hs).1).1, rfl, (hmem s hs).2⟩
  · intro n hn
    obtain ⟨s, hs, rfl⟩ := List.mem_map.mp hn
    exact ⟨s, (htmp s (hmem s hs).1).1, rfl, (htmp s (hmem s hs).1).2⟩
  · intro pre hpre post hpost htype htype' hnums
    rw [hnum pre hpre, hnum post hpost]
    exact filter2_pre_iff_post hone h hpre htype hpost htype' hnums

/-- Before the last `limit` elements of an ascending list there are as many greater ones. -/
theorem limit_le_of_mem_take {l : List XSnapshot} {limit : Nat} {s : XSnapshot}
    (hasc : l.Pairwise fun a b => a.num < b.num) (hs : s ∈ l.take (l.length - limit))
    (hlimit : limit ≤ l.length) : limit ≤ (l.filter fun s' => s.num < s'.num).length := by
  have hlast : ∀ s' ∈ l.drop (l.length - limit), s.num < s'.num := by
    rw [← List.take_append_drop (l.length - limit) l] at hasc
    exact fun s' hs' => (List.pairwise_append.mp hasc).2.2 s hs s' hs'
  have hsub := (List.drop_sublist (l.length - limit) l).filter fun s' => s.num < s'.num
  rw [List.filter_eq_self.mpr fun s' hs' => by simpa using hlast s' hs'] at hsub
  have hlen := hsub.length_le
  rw [List.length_drop] at hlen
  omega

theorem safe_nil : c.Safe now snapshots [] where
  old := fun _ hn => by cases hn
  selected := fun _ hn => by cases hn
  pairs := fun _ _ _ _ _ _ _ => by simp

/-- The loop takes out of the list what it keeps for a period; the rest is of the list. -/
theorem timelineLoop_subset {localtime : Int → Tm} {limit num : Period → Nat}
    {l : List XSnapshot} : timelineLoop localtime limit num l ⊆ l := by
  induction l generalizing num with
  | nil => exact List.Subset.refl []
  | cons it rest ih =>
    unfold timelineLoop
    split
    · exact fun s hs => List.mem_cons_of_mem it (ih hs)
    · intro s hs
      obtain rfl | hs := List.mem_cons.mp hs
      · exact List.mem_cons_self ..
      · exact List.mem_cons_of_mem it (ih hs)

/-- What the comparisons select are pairs without files. -/
theorem emptyPairs_selects {getFiles : Nat → Nat → Option (List XFile)} {l : List XSnapshot}
    (hl : l ⊆ snapshots.entries) (h : emptyPairs none getFiles snapshots l = some tmp) :
    ∀ s ∈ tmp, s ∈ snapshots.entries ∧ ∃ pre ∈ snapshots.entries, ∃ post ∈ snapshots.entries,
      Cleanup.EmptyPair getFiles pre post ∧ (s = pre ∨ s = post) := by
  -- the rest of the list gives the rest of the selection
  induction l generalizing tmp with
  | nil =>
    obtain rfl := Option.some.inj h
    exact fun s hs => by cases hs
  | cons it1 rest ih =>
    have ih := fun {tmp} => @ih tmp fun s hs => hl (List.mem_cons_of_mem it1 hs)
    rw [emptyPairs] at h
    split_ifs at h with htype
    · split at h
      · cases h
      · exact ih h
      · next it2 hfind =>
        obtain ⟨files, hfiles, h⟩ := Option.bind_eq_some_iff.mp h
        obtain ⟨tmp', htmp', h⟩ := Option.bind_eq_some_iff.mp h
        obtain rfl := Option.some.inj h
        have hpre : it1 ∈ snapshots.entries := hl (List.mem_cons_self ..)
        unfold XSnapshots.findPost at hfind
        split_ifs at hfind
        have hfind := Option.some.inj hfind
        have hpost := List.mem_of_find?_eq_some hfind
        have hpair : it2.type = .POST ∧ it2.preNum = it1.num := by
          simpa using List.find?_some hfind
        intro s hs
        split_ifs at hs with hempty
        · have hselects : Cleanup.EmptyPair getFiles it1 it2 :=
            ⟨htype, hpair.1, hpair.2, by rw [hfiles, List.isEmpty_iff.mp hempty]⟩
          obtain rfl | hs := List.mem_cons.mp hs
          · exact ⟨hpre, s, hpre, it2, hpost, hselects, Or.inl rfl⟩
          obtain rfl | hs := List.mem_cons.mp hs
          · exact ⟨hpost, it1, hpre, s, hpost, hselects, Or.inr rfl⟩
          · exact ih htmp' s hs
        · exact ih htmp' s hs
    · exact ih h

end Algorithms

/-- What a cleanup requests to be deleted is old enough, has what the algorithm looks for,
and has pre and post snapshots in pairs. -/
theorem cleanup_safe (c : Cleanup) (now : Int) (snapshots : XSnapshots)
    (hone : snapshots.OnePost) : c.Safe now snapshots (c.requested now snapshots) := by
  unfold Cleanup.requested
  cases hrun : c.run now snapshots with
  | none => exact safe_nil
  | some out =>
    cases c with
    | number config =>
      simp only [Cleanup.run, doCleanupNumber] at hrun
      split_ifs at hrun with hlimit
      · refine safe_of_filters hone (fun s hs => ?_) hrun
        have hmem := List.mem_filter.mp (List.mem_of_mem_take hs)
        refine ⟨hmem.1, by simpa using hmem.2, ?_⟩
        -- the oldest are taken, so that as many as the limit are newer
        have hle := limit_le_of_mem_take (snapshots.ascending.filter _) hs (Nat.le_of_lt hlimit)
        rw [List.filter_filter] at hle
        simpa [and_comm] using hle
      · obtain rfl := Option.some.inj hrun
        exact safe_nil
    | timeline config localtime =>
      refine safe_of_filters hone (fun s hs => ?_) hrun
      have hmem := timelineLoop_subset (List.mem_reverse.mp hs)
      obtain ⟨hmem, htag⟩ := List.mem_filter.mp (List.mem_reverse.mp hmem)
      have htag : s.cleanup = str "timeline" := by simpa using htag
      exact ⟨hmem, htag⟩
    | emptyPrePost config getFiles =>
      obtain ⟨tmp, htmp, hrun⟩ := Option.bind_eq_some_iff.mp hrun
      split at hrun
      · cases hrun
      · next h =>
        obtain rfl := Option.some.inj hrun
        exact safe_of_filters hone (emptyPairs_selects (List.Subset.refl _) htmp) h

private def numberSnapshot (num : Nat) (type : SnapshotType) (preNum : Nat) : XSnapshot :=
  { type := type, num := num, date := 100, uid := 0, preNum := preNum, description := [],
    cleanup := str "number", userdata := General.SortedMap.empty }

/-- A pair and a single snapshot … -/
private def pairSnapshots : XSnapshots where
  entries := [numberSnapshot 1 .PRE 0, numberSnapshot 2 .POST 1, numberSnapshot 3 .SINGLE 0]
  ascending := by decide

/-- … of which the pair is deleted when the limit is one. -/
theorem cleanup_safe_pair :
    (Cleanup.number { minAge := 1800, limit := 1 }).Safe 9000 pairSnapshots [1, 2] := by
  have hone : pairSnapshots.OnePost := by
    unfold XSnapshots.OnePost
    decide
  exact cleanup_safe (Cleanup.number { minAge := 1800, limit := 1 }) 9000 pairSnapshots hone

end Snapper
