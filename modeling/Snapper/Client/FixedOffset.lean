import Snapper.Client.Timeline
import Snapper.Info.Datetime

/-!
# The timeline in a time zone without changes of the clock

In UTC, and in every zone with a fixed offset from it, the fields of `localtime` are in the
order of the dates, so that nothing is left to assume of the calendar.

## Main results

* `localtime_le`: later dates are not in earlier hours, days, months or years.
* `calendar_fixed_iff`: the timeline only relies on dates that ascend.
-/

namespace Snapper

open General

/-- `localtime` with a fixed offset from UTC; `tm_year` counts from 1900. -/
def localtimeAt (offset : Int) (t : Int) : Tm :=
  let tm := gmtime (t + offset)
  { year := tm.year - 1900
    mon := tm.mon
    mday := tm.mday
    hour := tm.hour }

/-- The hours of two dates are in the order of the dates. -/
theorem localtime_le {offset t t' : Int} (h : t ≤ t') :
    (localtimeAt offset t).key .hourly ≤ (localtimeAt offset t').key .hourly := by
  set n := (t + offset) / 86400 + epoch with hn
  set n' := (t' + offset) / 86400 + epoch with hn'
  have hdays : n ≤ n' := by omega
  by_contra hlater
  have hlt := not_le.mp hlater
  simp only [Tm.key, localtimeAt, gmtime, List.cons_lt_cons_iff, List.not_lt_nil, and_false,
    or_false, ← hn, ← hn'] at hlt
  -- no earlier day has a later date
  have hfirst := fun hdate => not_lt.mpr hdays (show n' < n from ofDay_lt hdate)
  have hnonneg := (Date.ofDay n).day_nonneg
  have hnonneg' := (Date.ofDay n').day_nonneg
  rcases hlt with hyear | ⟨hyear, hmonth | ⟨hmonth, hday | ⟨hday, hhour⟩⟩⟩
  · exact hfirst (Or.inl (by omega))
  · exact hfirst (Or.inr ⟨by omega, Or.inl (by omega)⟩)
  · exact hfirst (Or.inr ⟨by omega, Or.inr ⟨by omega, by omega⟩⟩)
  · -- the days are the same, and then the hours decide
    have hsame : n = n' := by
      rw [← dayNumber_ofDay n, ← dayNumber_ofDay n']
      congr 1 <;> omega
    omega

/-- With a fixed offset from UTC it is enough for the timeline that the dates of its snapshots
ascend: the fields that are compared are then never set back. -/
theorem calendar_fixed_iff (offset : Int) (snapshots : XSnapshots) :
    Calendar (localtimeAt offset) snapshots ↔
      (timelineSnapshots snapshots).Pairwise fun a b => b.date < a.date :=
  ⟨Calendar.dates, fun hdates => ⟨hdates, hdates.imp fun hlt => localtime_le (le_of_lt hlt)⟩⟩

example : (localtimeAt 0 1330559999).key .hourly = [112, 1, 29, 23] := by decide +kernel
example : (localtimeAt 0 1330560000).key .hourly = [112, 2, 1, 0] := by decide +kernel

end Snapper
