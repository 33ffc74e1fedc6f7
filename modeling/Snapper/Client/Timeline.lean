import Snapper.Client.CleanupSafe
import Snapper.General.Slots

/-!
# What the timeline keeps

The loop of the timeline gives a slot to each snapshot that is the first of its hour, day,
month or year.  As the snapshots go back in time, a period is a group of them that stands
together, and the first of the period is the last of the group.

## Main results

- `timelineLoop_eq_scan`: the loop is a scan with four kinds of slots
- `timeline_keeps`: the first snapshots of the most recent periods are kept
-/

namespace Snapper

open General

/-- The fields that are compared for a period. -/
def Tm.key (t : Tm) : Period → List Int
  | .hourly => [t.year, t.mon, t.mday, t.hour]
  | .daily => [t.year, t.mon, t.mday]
  | .monthly => [t.year, t.mon]
  | .yearly => [t.year]

/-- The period of a kind that a snapshot is in. -/
def periodOf (localtime : Int → Tm) (k : Period) (s : XSnapshot) : List Int :=
  (localtime s.date).key k

/-- The dates of the timeline snapshots ascend strictly, and the clock is not set back between
them. -/
structure Calendar (localtime : Int → Tm) (snapshots : XSnapshots) : Prop where
  dates : (timelineSnapshots snapshots).Pairwise fun a b => b.date < a.date
  fields : (timelineSnapshots snapshots).Pairwise fun a b =>
    periodOf localtime .hourly b ≤ periodOf localtime .hourly a

section Periods

variable {localtime : Int → Tm} {k : Period} {a b : XSnapshot} {t t' : Tm}

/-- The comparison that the test for a period makes. -/
def Period.equal : Period → Tm → Tm → Bool
  | .hourly => equalHour
  | .daily => equalDay
  | .monthly => equalMonth
  | .yearly => equalYear

theorem Period.mem_all (k : Period) : k ∈ Period.all := by cases k <;> decide

theorem Period.equal_iff : k.equal t t' = true ↔ t.key k = t'.key k := by
  cases k <;> simp [Period.equal, Tm.key, equalHour, equalDay, equalMonth, equalYear, and_assoc]

/-- The fields of a longer period come first. -/
theorem Tm.key_eq_take : t.key k = (t.key .hourly).take (t.key k).length := by
  cases k <;> rfl

/-- Lists that are in order up to some place are in order. -/
theorem lt_of_take_lt {l l' : List Int} {n : Nat} (h : l.take n < l'.take n) : l < l' := by
  induction n generalizing l l' with
  | zero => exact absurd h (lt_irrefl [])
  | succ n ih =>
    cases l with
    | nil =>
      cases l' with
      | nil => exact h
      | cons b l' => exact List.nil_lt_cons b l'
    | cons a l =>
      cases l' with
      | nil => exact absurd h (List.not_lt_nil _)
      | cons b l' =>
        rw [List.take_succ_cons, List.take_succ_cons, List.cons_lt_cons_iff] at h
        exact List.cons_lt_cons_iff.mpr (h.imp_right fun ⟨heq, hlt⟩ => ⟨heq, ih hlt⟩)

/-- Later hours are in later days, months and years. -/
theorem Tm.key_mono (h : t.key .hourly ≤ t'.key .hourly) (k : Period) : t.key k ≤ t'.key k := by
  have hlen : (t.key k).length = (t'.key k).length := by cases k <;> rfl
  rw [@Tm.key_eq_take k t, @Tm.key_eq_take k t', hlen]
  exact not_lt.mp fun hlt => not_lt.mpr h (lt_of_take_lt hlt)

end Periods

/-! ## The loop as a scan -/

section Loop

variable {localtime : Int → Tm} {snapshots : XSnapshots} {limit num : Period → Nat}
  {it : XSnapshot} {rest l : List XSnapshot} {k : Period}

/-- Snapshots that go back in time, hour by hour. -/
structure Descending (localtime : Int → Tm) (l : List XSnapshot) : Prop where
  dates : l.Pairwise fun a b => b.date < a.date
  fields : l.Pairwise fun a b => periodOf localtime .hourly b ≤ periodOf localtime .hourly a

theorem Calendar.descending (h : Calendar localtime snapshots) :
    Descending localtime (timelineSnapshots snapshots) := ⟨h.dates, h.fields⟩

theorem Descending.tail (h : Descending localtime (it :: rest)) : Descending localtime rest :=
  ⟨(List.pairwise_cons.mp h.dates).2, (List.pairwise_cons.mp h.fields).2⟩

theorem Descending.grouped (h : Descending localtime l) : Grouped (periodOf localtime) l :=
  fun k => h.fields.imp fun hle => Tm.key_mono hle k

theorem Descending.nodup (h : Descending localtime l) : l.Nodup :=
  h.dates.imp fun hlt heq => by rw [heq] at hlt; exact lt_irrefl _ hlt

/-- The first of a period is the last of its group. -/
theorem isFirst_iff (h : Descending localtime (it :: rest)) :
    isFirst localtime it k.equal (it :: rest) = true ↔ LastOf (periodOf localtime) k it rest := by
  rw [isFirst, if_pos rfl]
  cases rest with
  | nil => simp [isFirst, LastOf]
  | cons it2 rest =>
    obtain ⟨hdate, _⟩ := List.pairwise_cons.mp h.dates
    have hlt := hdate it2 (List.mem_cons_self ..)
    have hne : it ≠ it2 := fun heq => by rw [heq] at hlt; exact lt_irrefl _ hlt
    rw [isFirst, if_neg hne]
    by_cases hsame : k.equal (localtime it.date) (localtime it2.date) = true
    · -- the next snapshot back in time is of the same period
      simp only [hsame, Bool.not_true, Bool.false_eq_true, if_false, if_pos hlt, false_iff]
      intro hlast
      exact hlast it2 (List.mem_cons_self ..) (Period.equal_iff.mp hsame).symm
    · simp only [hsame, Bool.not_false, if_true, true_iff]
      intro s hs heq
      have hgrouped := List.pairwise_cons.mp (h.grouped k)
      have hle : periodOf localtime k s ≤ periodOf localtime k it2 := by
        obtain rfl | hs := List.mem_cons.mp hs
        · exact le_refl _
        · exact (List.pairwise_cons.mp hgrouped.2).1 s hs
      have hle' := hgrouped.1 it2 (List.mem_cons_self ..)
      rw [heq] at hle
      exact hsame (Period.equal_iff.mpr (le_antisymm hle hle'))

/-- The chain of conditions in the loop is the choice of the first kind of period that has a free
slot and begins with the snapshot. -/
theorem branch_eq_slot (h : Descending localtime (it :: rest)) :
    branch localtime limit num (it :: rest) it =
      slot Period.all (periodOf localtime) limit num it rest := by
  have htest : ∀ k, (num k < limit k ∧ isFirst localtime it k.equal (it :: rest) = true) =
      (decide (num k < limit k ∧ LastOf (periodOf localtime) k it rest) = true) := by
    intro k
    rw [isFirst_iff h, decide_eq_true_eq]
  have hhour := htest .hourly
  have hday := htest .daily
  have hmonth := htest .monthly
  have hyear := htest .yearly
  simp only [Period.equal] at hhour hday hmonth hyear
  unfold branch slot Period.all isFirstHourly isFirstDaily isFirstMonthly isFirstYearly
  simp only [hhour, hday, hmonth, hyear, List.find?_cons, List.find?_nil]
  split_ifs <;> simp only [*]

/-- The loop is a scan with a kind of slot for each period. -/
theorem timelineLoop_eq_scan (h : Descending localtime l) :
    timelineLoop localtime limit num l =
      scan Period.all (periodOf localtime) limit num l := by
  induction l generalizing num with
  | nil => rfl
  | cons it rest ih =>
    rw [timelineLoop, scan, branch_eq_slot h]
    cases slot Period.all (periodOf localtime) limit num it rest with
    | none => exact congrArg (it :: ·) (ih h.tail)
    | some k => exact ih h.tail

end Loop

/-- A snapshot is the first of one of the `limit` most recent periods of a kind that contain
timeline snapshots. -/
structure FirstOfRecent (localtime : Int → Tm) (snapshots : XSnapshots) (k : Period) (limit : Nat)
    (s : XSnapshot) : Prop where
  mem : s ∈ timelineSnapshots snapshots
  first : ∀ s' ∈ timelineSnapshots snapshots, periodOf localtime k s' = periodOf localtime k s →
    s.date ≤ s'.date
  recent : groupsBefore (periodOf localtime) k s (timelineSnapshots snapshots) < limit

/-- The first snapshots of the most recent hours, days, months and years are not deleted, and
no more snapshots are exempted than the limits allow. -/
theorem timeline_keeps (localtime : Int → Tm) (config : TimelineConfig) (now : Int)
    (snapshots : XSnapshots) (hcal : Calendar localtime snapshots) :
    (∀ k s, FirstOfRecent localtime snapshots k (config.limit k) s →
      s.num ∉ (Cleanup.timeline config localtime).requested now snapshots) ∧
    (timelineSnapshots snapshots).length ≤
      (timelineLoop localtime config.limit (fun _ => 0) (timelineSnapshots snapshots)).length +
        (config.limit .hourly + config.limit .daily + config.limit .monthly +
          config.limit .yearly) := by
  have hdesc := hcal.descending
  constructor
  · intro k s hs hmem
    -- what is deleted was left over by the loop
    have hleft : s ∈ timelineLoop localtime config.limit (fun _ => 0)
        (timelineSnapshots snapshots) := by
      unfold Cleanup.requested at hmem
      obtain ⟨s', hs', hnum⟩ := List.mem_map.mp hmem
      cases hrun : (Cleanup.timeline config localtime).run now snapshots with
      | none => rw [hrun] at hs'; cases hs'
      | some out =>
        rw [hrun] at hs'
        obtain ⟨_, hout⟩ := filter2_eq_some hrun
        have hmem' := List.mem_reverse.mp (mem_filter1.mp ((hout s').mp hs').1).1
        have hentry : ∀ s ∈ timelineSnapshots snapshots, s ∈ snapshots.entries := fun s hs =>
          (List.mem_filter.mp (List.mem_reverse.mp hs)).1
        rwa [XSnapshots.eq_of_num (hentry s hs.mem) (hentry s' (timelineLoop_subset hmem'))
          hnum.symm]
    obtain ⟨front, rest, hsplit⟩ := List.append_of_mem hs.mem
    rw [timelineLoop_eq_scan hdesc, hsplit] at hleft
    rw [hsplit] at hdesc
    refine not_mem_scan k.mem_all hdesc.grouped hdesc.nodup ?_ ?_ hleft
    · intro s' hs' heq
      have hdate := (List.pairwise_append.mp hdesc.dates).2.1
      have hlt := (List.pairwise_cons.mp hdate).1 s' hs'
      have hle := hs.first s' (by rw [hsplit]; simp [hs']) heq
      omega
    · rw [Nat.zero_add]
      refine Nat.lt_of_le_of_lt (groupsBefore_mono fun s' hs' => ?_) hs.recent
      rw [hsplit]
      exact List.mem_append_left _ hs'
  · have hlen := @length_scan XSnapshot (List Int) Period _ Period.all (periodOf localtime)
      config.limit (fun _ => 0) (timelineSnapshots snapshots) _ (fun _ => Nat.zero_le _) (by decide)
    rw [← timelineLoop_eq_scan hdesc] at hlen
    simp only [Period.all, List.map_cons, List.map_nil, List.sum_cons, List.sum_nil] at hlen
    omega

/-- A clock that starts on one day. -/
def utc (t : Int) : Tm := { year := 70, mon := 0, mday := 1 + t / 86400, hour := t % 86400 / 3600 }

/-- A snapshot of the timeline. -/
def timelineSnapshot (num : Nat) (date : Int) : XSnapshot :=
  { type := .SINGLE, num := num, date := date, uid := 0, preNum := 0, description := [],
    cleanup := str "timeline", userdata := SortedMap.empty }

/-- Two snapshots of one hour … -/
def hourSnapshots : XSnapshots where
  entries := [timelineSnapshot 1 100, timelineSnapshot 2 200]
  ascending := by decide

theorem hourSnapshots_calendar : Calendar utc hourSnapshots where
  dates := by decide
  fields := by decide

/-- … of which the first is kept when there is a slot for an hour. -/
theorem timeline_keeps_hour :
    1 ∉ (Cleanup.timeline { minAge := 0, limit := fun _ => 1 } utc).requested 9000
      hourSnapshots := by
  have h := timeline_keeps utc { minAge := 0, limit := fun _ => 1 } 9000 hourSnapshots
    hourSnapshots_calendar
  exact h.1 .hourly (timelineSnapshot 1 100)
    { mem := by decide, first := by decide, recent := by decide }

end Snapper
