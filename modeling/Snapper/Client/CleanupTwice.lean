import Snapper.Client.Timeline

/-!
# A second cleanup

A cleanup that is run again at the same time on what it has left requests nothing: its
selection is what it was without what is gone, and what the filters have spared they spare
again.
-/

namespace Snapper

open General

section Twice

variable {snapshots : XSnapshots} {now minAge : Int} {tmp out : List XSnapshot} {s : XSnapshot}
  {c : Cleanup}

/-- A search that finds something that stays finds it again. -/
theorem find?_filter_of_find? {α : Type} {p q : α → Bool} {l : List α} {a : α}
    (h : l.find? p = some a) (hq : q a = true) : (l.filter q).find? p = some a := by
  induction l with
  | nil => cases h
  | cons b l ih =>
    rw [List.find?_cons] at h
    cases hp : p b with
    | true =>
      rw [hp] at h
      obtain rfl := Option.some.inj h
      rw [List.filter_cons_of_pos hq, List.find?_cons_of_pos hp]
    | false =>
      rw [hp] at h
      rw [List.filter_cons]
      split
      · rw [List.find?_cons_of_neg (by simp [hp])]
        exact ih h
      · exact ih h

/-- A partner that has not been selected is still there and not selected. -/
theorem partnerIn_without {nums : List Nat} {tmp' : List XSnapshot} {p : XSnapshot → Bool}
    (h : partnerIn tmp (snapshots.entries.find? p) = false) (htmp' : tmp' ⊆ tmp)
    (hnums : ∀ s ∈ snapshots.entries, s ∉ tmp → s.num ∉ nums) :
    partnerIn tmp' ((snapshots.without nums).entries.find? p) = false := by
  cases hfind : snapshots.entries.find? p with
  | none => rw [hfind] at h; cases h
  | some partner =>
    rw [hfind] at h
    have hnot : partner ∉ tmp := of_decide_eq_false h
    have hstays := hnums partner (List.mem_of_find?_eq_some hfind) hnot
    have hagain : (snapshots.without nums).entries.find? p = some partner :=
      find?_filter_of_find? hfind (by simpa using hstays)
    rw [hagain]
    exact decide_eq_false fun hmem => hnot (htmp' hmem)

/-- What the filter has not kept for want of its partner it does not keep afterwards. -/
theorem keeps_without {nums : List Nat} {tmp' : List XSnapshot}
    (h : filter2Keeps snapshots tmp s = some false) (htmp' : tmp' ⊆ tmp)
    (hnums : ∀ s ∈ snapshots.entries, s ∉ tmp → s.num ∉ nums) :
    filter2Keeps (snapshots.without nums) tmp' s = some false := by
  unfold filter2Keeps at h ⊢
  cases htype : s.type with
  | SINGLE => simp [htype] at h
  | PRE =>
    simp only [htype, XSnapshots.findPost] at h ⊢
    split_ifs at h ⊢
    · cases h
    · exact congrArg some (partnerIn_without (Option.some.inj h) htmp' hnums)
  | POST =>
    simp only [htype, XSnapshots.findPre] at h ⊢
    split_ifs at h ⊢
    · cases h
    · exact congrArg some (partnerIn_without (Option.some.inj h) htmp' hnums)

/-- Where each check says no, nothing is left, and the filter does not fail. -/
theorem filter2Loop_eq_nil {l : List XSnapshot}
    (h : ∀ s ∈ l, filter2Keeps snapshots tmp s = some false) :
    filter2Loop snapshots tmp l = some [] := by
  induction l with
  | nil => rfl
  | cons it1 rest ih =>
    rw [filter2Loop, h it1 (List.mem_cons_self ..), ih fun s hs =>
      h s (List.mem_cons_of_mem it1 hs)]
    rfl

/-- On the selection without what it has kept the filters keep nothing. -/
theorem filters_twice (htmp : tmp ⊆ snapshots.entries)
    (h : filter2 snapshots (filter1 tmp minAge now) = some out) :
    filter2 (snapshots.without (out.map XSnapshot.num))
      (filter1 (tmp.filter fun s => !decide (s.num ∈ out.map XSnapshot.num)) minAge now) =
        some [] := by
  obtain ⟨hall, hout⟩ := filter2_eq_some h
  have hentry : ∀ s ∈ filter1 tmp minAge now, s ∈ snapshots.entries := fun s hs =>
    htmp (mem_filter1.mp hs).1
  have hnums : ∀ s ∈ snapshots.entries, s ∉ filter1 tmp minAge now →
      s.num ∉ out.map XSnapshot.num := by
    intro s hs hnot hmem
    obtain ⟨s', hs', hnum⟩ := List.mem_map.mp hmem
    have hmem' := ((hout s').mp hs').1
    exact hnot (XSnapshots.eq_of_num hs (hentry s' hmem') hnum.symm ▸ hmem')
  have hsub : filter1 (tmp.filter fun s => !decide (s.num ∈ out.map XSnapshot.num)) minAge now ⊆
      filter1 tmp minAge now := by
    intro s hs
    obtain ⟨hmem, hage⟩ := mem_filter1.mp hs
    exact mem_filter1.mpr ⟨(List.mem_filter.mp hmem).1, hage⟩
  apply filter2Loop_eq_nil
  intro s hs
  refine keeps_without ?_ hsub hnums
  -- what is left of the selection was not kept the first time
  obtain ⟨b, hb⟩ := hall s (hsub hs)
  cases b with
  | false => exact hb
  | true =>
    exfalso
    have hleft := (List.mem_filter.mp (mem_filter1.mp hs).1).2
    have hmem : s ∈ out := (hout s).mpr ⟨hsub hs, hb⟩
    simp [List.mem_map_of_mem (f := XSnapshot.num) hmem] at hleft

/-- To request nothing the second time it is enough that the algorithm comes to an empty
selection. -/
theorem requested_twice (h : ∀ out, c.run now snapshots = some out →
      c.run now (snapshots.without (out.map XSnapshot.num)) = some []) :
    c.requested now (snapshots.without (c.requested now snapshots)) = [] := by
  unfold Cleanup.requested
  cases hrun : c.run now snapshots with
  | none =>
    have hsame : snapshots.without [] = snapshots := by simp [XSnapshots.without]
    show ((c.run now (snapshots.without [])).getD []).map XSnapshot.num = []
    rw [hsame, hrun]
    rfl
  | some out =>
    show ((c.run now (snapshots.without (out.map XSnapshot.num))).getD []).map XSnapshot.num = []
    rw [h out hrun]
    rfl

/-- Without some of the first elements, the list before the last `limit` is without them too. -/
theorem take_filter {l : List XSnapshot} {limit : Nat} {p : XSnapshot → Bool}
    (hlimit : limit ≤ l.length) (hlast : ∀ s ∈ l.drop (l.length - limit), p s = true) :
    (l.filter p).take ((l.filter p).length - limit) = (l.take (l.length - limit)).filter p := by
  have hsplit : l.filter p = (l.take (l.length - limit)).filter p ++ l.drop (l.length - limit) := by
    conv_lhs => rw [← List.take_append_drop (l.length - limit) l]
    rw [List.filter_append, List.filter_eq_self.mpr hlast]
  have hlen : (l.drop (l.length - limit)).length = limit := by
    rw [List.length_drop]
    omega
  rw [hsplit, List.length_append, hlen, Nat.add_sub_cancel]
  exact List.take_left

/-- What a cleanup by number leaves over the limit the next one meets again, and the filters hold
it back as they did before. -/
theorem number_twice (config : NumberConfig) (now : Int) (snapshots : XSnapshots)
    (h : doCleanupNumber config now snapshots = some out) :
    doCleanupNumber config now (snapshots.without (out.map XSnapshot.num)) = some [] := by
  unfold doCleanupNumber at h
  simp only at h
  split_ifs at h with hlimit
  · set tagged := snapshots.entries.filter fun s => s.cleanup = str "number" with htagged
    have hentry : ∀ s ∈ tagged, s ∈ snapshots.entries := fun s hs => (List.mem_filter.mp hs).1
    have htagged' : (snapshots.without (out.map XSnapshot.num)).entries.filter
        (fun s => s.cleanup = str "number") =
          tagged.filter fun s => !decide (s.num ∈ out.map XSnapshot.num) := by
      simp only [htagged, XSnapshots.without, List.filter_filter, decide_not]
      exact List.filter_congr fun s _ => Bool.and_comm _ _
    -- what is deleted is among the first
    have hlast : ∀ s ∈ tagged.drop (tagged.length - config.limit),
        (!decide (s.num ∈ out.map XSnapshot.num)) = true := by
      intro s hs
      rw [Bool.not_eq_true', decide_eq_false_iff_not]
      intro hmem
      obtain ⟨s', hs', hnum⟩ := List.mem_map.mp hmem
      have hfirst := (mem_filter1.mp (((filter2_eq_some h).2 s').mp hs').1).1
      have hsame : s' = s := XSnapshots.eq_of_num (hentry s' (List.mem_of_mem_take hfirst))
        (hentry s (List.mem_of_mem_drop hs)) hnum
      have hnodup : tagged.Nodup := XSnapshots.nodup.filter _
      rw [← List.take_append_drop (tagged.length - config.limit) tagged] at hnodup
      exact List.disjoint_of_nodup_append hnodup (hsame ▸ hfirst) hs
    unfold doCleanupNumber
    simp only [htagged', take_filter (Nat.le_of_lt hlimit) hlast]
    split_ifs
    · exact filters_twice (fun s hs => hentry s (List.mem_of_mem_take hs)) h
    · rfl
  · obtain rfl := Option.some.inj h
    unfold doCleanupNumber
    simp [XSnapshots.without, hlimit]

/-- After a cleanup by timeline the next one gives the same periods the same snapshots. -/
theorem timeline_twice {localtime : Int → Tm} (config : TimelineConfig) (now : Int)
    (snapshots : XSnapshots) (hcal : Calendar localtime snapshots)
    (h : doCleanupTimeline localtime config now snapshots = some out) :
    doCleanupTimeline localtime config now (snapshots.without (out.map XSnapshot.num)) =
      some [] := by
  have hdesc := hcal.descending
  have hentry : ∀ s ∈ timelineSnapshots snapshots, s ∈ snapshots.entries := fun s hs =>
    (List.mem_filter.mp (List.mem_reverse.mp hs)).1
  -- what is missing the second time is among what the first loop selected
  have hleft : ∀ s ∈ timelineSnapshots snapshots,
      decide (s.num ∈ out.map XSnapshot.num) = true →
        s ∈ timelineLoop localtime config.limit (fun _ => 0) (timelineSnapshots snapshots) := by
    intro s hs hmem
    obtain ⟨s', hs', hnum⟩ := List.mem_map.mp (of_decide_eq_true hmem)
    have hmem' := List.mem_reverse.mp (mem_filter1.mp (((filter2_eq_some h).2 s').mp hs').1).1
    exact XSnapshots.eq_of_num (hentry s hs) (hentry s' (timelineLoop_subset hmem')) hnum.symm ▸
      hmem'
  have hagain : timelineSnapshots (snapshots.without (out.map XSnapshot.num)) =
      (timelineSnapshots snapshots).filter fun s => !decide (s.num ∈ out.map XSnapshot.num) := by
    simp only [timelineSnapshots, XSnapshots.without, List.filter_reverse, List.filter_filter,
      decide_not]
    congr 1
    exact List.filter_congr fun s _ => Bool.and_comm _ _
  have hdesc' : Descending localtime
      ((timelineSnapshots snapshots).filter fun s => !decide (s.num ∈ out.map XSnapshot.num)) :=
    ⟨hdesc.dates.filter _, hdesc.fields.filter _⟩
  rw [timelineLoop_eq_scan hdesc] at hleft
  -- a scan without some of what it dropped keeps and drops the rest as before
  have hloop := scan_filter hdesc.grouped hdesc.nodup hleft
  rw [← timelineLoop_eq_scan hdesc, ← timelineLoop_eq_scan hdesc'] at hloop
  unfold doCleanupTimeline
  simp only [hagain, hloop, ← List.filter_reverse]
  exact filters_twice (fun s hs => hentry s (timelineLoop_subset (List.mem_reverse.mp hs))) h

end Twice

/-- A second cleanup at the same time on what the first has left requests no deletion. -/
theorem cleanup_idempotent (now : Int) (snapshots : XSnapshots) :
    (∀ config, (Cleanup.number config).requested now
      (snapshots.without ((Cleanup.number config).requested now snapshots)) = []) ∧
    (∀ config localtime, Calendar localtime snapshots →
      (Cleanup.timeline config localtime).requested now
        (snapshots.without ((Cleanup.timeline config localtime).requested now snapshots)) = []) :=
  ⟨fun config => requested_twice fun _ h => number_twice config now snapshots h,
    fun config _ hcal => requested_twice fun _ h => timeline_twice config now snapshots hcal h⟩

/-- The first of two snapshots of one hour uses up the slots; nothing more is deleted later. -/
theorem cleanup_idempotent_hour :
    (Cleanup.timeline { minAge := 0, limit := fun _ => 0 } utc).requested 9000
      (hourSnapshots.without [1, 2]) = [] := by
  have h := (cleanup_idempotent 9000 hourSnapshots).2 { minAge := 0, limit := fun _ => 0 } utc
    hourSnapshots_calendar
  have hfirst : (Cleanup.timeline { minAge := 0, limit := fun _ => 0 } utc).requested 9000
      hourSnapshots = [1, 2] := by decide
  rwa [hfirst] at h

end Snapper
