import Mathlib.Algebra.Order.BigOperators.Group.List
import Mathlib.Algebra.Order.Ring.Int
import Mathlib.Data.List.GetD

/-!
# The Gregorian calendar

Days are counted from the first day of the year 1, in both directions, and the calendar is
used for the time before it was introduced as well.  A day has a year, a month and a day of
the month, and these give the day back.

## Main results

* `yearOf_spec`: the year of a day begins on or before the day and ends after it.
* `dayNumber_ofDay`: a day is the one of its date.
* `ofDay_dayNumber`: a date is the one of its day.
* `ofDay_lt`: dates are in the order of their days.
-/

namespace Snapper.General

/-! ## Years -/

/-- A leap year -/
def IsLeap (y : ℤ) : Prop := y % 4 = 0 ∧ (y % 100 ≠ 0 ∨ y % 400 = 0)

instance (y : ℤ) : Decidable (IsLeap y) := inferInstanceAs (Decidable (_ ∧ _))

/-- The days of a year. -/
def yearLength (y : ℤ) : ℤ := if IsLeap y then 366 else 365

/-- The first day of a year -/
def newYear (y : ℤ) : ℤ := 365 * (y - 1) + (y - 1) / 4 - (y - 1) / 100 + (y - 1) / 400

theorem newYear_succ (y : ℤ) : newYear (y + 1) = newYear y + yearLength y := by
  by_cases h : IsLeap y
  · simp only [newYear, yearLength, if_pos h]
    obtain ⟨h4, h100 | h400⟩ := h <;> omega
  · simp only [newYear, yearLength, if_neg h]
    simp only [IsLeap, not_and_or, not_or, not_not] at h
    omega

theorem newYear_le {y y' : ℤ} (h : y ≤ y') : newYear y ≤ newYear y' := by
  simp only [newYear]
  omega

/-- The year of a day -/
def yearOf (n : ℤ) : ℤ :=
  -- 400 years have 146097 days, so that this is off by one at most
  let y := 400 * n / 146097 + 1
  if n < newYear y then y - 1
  else if n < newYear (y + 1) then y
  else y + 1

/-- A day is on or after the first one of its year and before the first one of the next. -/
theorem yearOf_spec (n : ℤ) : newYear (yearOf n) ≤ n ∧ n < newYear (yearOf n + 1) := by
  simp only [yearOf]
  split
  · rename_i h
    simp only [newYear] at h ⊢
    omega
  · split
    · omega
    · rename_i h
      simp only [newYear] at h ⊢
      omega

/-- No other year has the day. -/
theorem yearOf_eq {n y : ℤ} (hbegin : newYear y ≤ n) (hend : n < newYear (y + 1)) :
    yearOf n = y := by
  obtain ⟨hbegin', hend'⟩ := yearOf_spec n
  -- years that do not overlap are in the order of their days
  have hle : yearOf n ≤ y := by
    by_contra hlt
    have := newYear_le (show y + 1 ≤ yearOf n by omega)
    omega
  have hge : y ≤ yearOf n := by
    by_contra hlt
    have := newYear_le (show yearOf n + 1 ≤ y by omega)
    omega
  omega

/-- The years up to a day. -/
theorem yearOf_lt_iff {n y : ℤ} : yearOf n < y ↔ n < newYear y := by
  obtain ⟨hbegin, hend⟩ := yearOf_spec n
  constructor
  · intro hlt
    have := newYear_le (show yearOf n + 1 ≤ y by omega)
    omega
  · intro hlt
    by_contra hge
    have := newYear_le (show y ≤ yearOf n by omega)
    omega

/-! ## Pieces -/

/-- In which of consecutive pieces a position is, and where in the piece. -/
def locate : List ℤ → ℤ → ℕ × ℤ
  | [], n => (0, n)
  | len :: lens, n =>
    if n < len then (0, n) else ((locate lens (n - len)).1 + 1, (locate lens (n - len)).2)

/-- A position in a row of lengths is in one of them, at an offset that is less than its length.
-/
theorem locate_spec {lens : List ℤ} {n : ℤ} (hn : 0 ≤ n) (hsum : n < lens.sum) :
    (lens.take (locate lens n).1).sum + (locate lens n).2 = n ∧
      0 ≤ (locate lens n).2 ∧ (locate lens n).2 < lens.getD (locate lens n).1 0 := by
  induction lens generalizing n with
  | nil =>
    simp at hsum
    omega
  | cons len lens ih =>
    rw [locate]
    split
    · simp
      omega
    · rw [List.sum_cons] at hsum
      obtain ⟨hsum', hpos, hlt⟩ := @ih (n - len) (by omega) (by omega)
      refine ⟨?_, hpos, hlt⟩
      rw [List.take_succ_cons, List.sum_cons]
      omega

/-- A position in the list of lengths and what goes beyond it are found again from their sum. -/
theorem locate_sum {lens : List ℤ} {i : ℕ} {r : ℤ} (hlens : ∀ len ∈ lens, 0 ≤ len) (hr : 0 ≤ r)
    (hlt : r < lens.getD i 0) : locate lens ((lens.take i).sum + r) = (i, r) := by
  -- length after length is taken off
  induction lens generalizing i with
  | nil =>
    simp at hlt
    omega
  | cons len lens ih =>
    obtain ⟨hlen, hlens'⟩ := List.forall_mem_cons.mp hlens
    cases i with
    | zero => simpa [locate] using hlt
    | succ i =>
      have hrest := ih hlens' (by simpa using hlt)
      have hsum : 0 ≤ (lens.take i).sum :=
        List.sum_nonneg fun len hlen => hlens' len (List.mem_of_mem_take hlen)
      have hge : ¬ ((len :: lens).take (i + 1)).sum + r < len := by
        simp
        omega
      have hsub : ((len :: lens).take (i + 1)).sum + r - len = (lens.take i).sum + r := by
        simp
        omega
      rw [locate, if_neg hge, hsub, hrest]

/-- A piece is within all pieces. -/
theorem take_sum_le {lens : List ℤ} (hlens : ∀ len ∈ lens, 0 ≤ len) (i : ℕ) :
    (lens.take i).sum + lens.getD i 0 ≤ lens.sum := by
  induction lens generalizing i with
  | nil => simp
  | cons len lens ih =>
    obtain ⟨hlen, hlens'⟩ := List.forall_mem_cons.mp hlens
    cases i with
    | zero =>
      have hsum : 0 ≤ lens.sum := List.sum_nonneg hlens'
      simpa using hsum
    | succ i =>
      have hrest := ih hlens' i
      rw [List.take_succ_cons, List.sum_cons, List.sum_cons, List.getD_cons_succ]
      omega

/-! ## Dates -/

/-- The lengths of the months -/
def monthLengths (y : ℤ) : List ℤ :=
  [31, if IsLeap y then 29 else 28, 31, 30, 31, 30, 31, 31, 30, 31, 30, 31]

theorem monthLengths_sum (y : ℤ) : (monthLengths y).sum = yearLength y := by
  by_cases h : IsLeap y <;> simp [monthLengths, yearLength, h]

theorem monthLengths_pos (y : ℤ) : ∀ len ∈ monthLengths y, 28 ≤ len ∧ len ≤ 31 := by
  intro len hlen
  by_cases h : IsLeap y
  all_goals
    simp [monthLengths, h] at hlen
    omega

/-- A date of the calendar.  Months and days are counted from zero. -/
@[ext]
structure Date where
  year : ℤ
  month : ℕ
  day : ℤ
  day_nonneg : 0 ≤ day
  day_lt : day < (monthLengths year).getD month 0

/-- The day of a year, a month and a day of the month, which may be after the month. -/
def dayNumber (year : ℤ) (month : ℕ) (day : ℤ) : ℤ :=
  newYear year + ((monthLengths year).take month).sum + day

theorem day_in_year (n : ℤ) :
    0 ≤ n - newYear (yearOf n) ∧ n - newYear (yearOf n) < (monthLengths (yearOf n)).sum := by
  obtain ⟨hbegin, hend⟩ := yearOf_spec n
  rw [newYear_succ] at hend
  rw [monthLengths_sum]
  omega

/-- The date of a day -/
def Date.ofDay (n : ℤ) : Date where
  year := yearOf n
  month := (locate (monthLengths (yearOf n)) (n - newYear (yearOf n))).1
  day := (locate (monthLengths (yearOf n)) (n - newYear (yearOf n))).2
  day_nonneg := (locate_spec (day_in_year n).1 (day_in_year n).2).2.1
  day_lt := (locate_spec (day_in_year n).1 (day_in_year n).2).2.2

theorem dayNumber_ofDay (n : ℤ) :
    dayNumber (Date.ofDay n).year (Date.ofDay n).month (Date.ofDay n).day = n := by
  have hsum := (locate_spec (day_in_year n).1 (day_in_year n).2).1
  simp only [dayNumber, Date.ofDay]
  omega

theorem Date.month_lt (date : Date) : date.month < 12 := by
  by_contra hge
  have hnone : (monthLengths date.year).getD date.month 0 = 0 :=
    List.getD_eq_default _ _ (by simpa [monthLengths] using hge)
  have hlt := date.day_lt
  have := date.day_nonneg
  omega

theorem Date.day_lt_31 (date : Date) : date.day < 31 := by
  have hlt := date.day_lt
  have hmonth : date.month < (monthLengths date.year).length := date.month_lt
  rw [List.getD_eq_getElem _ _ hmonth] at hlt
  have := monthLengths_pos date.year _ (List.getElem_mem hmonth)
  omega

/-- Dates are the dates of days. -/
theorem ofDay_dayNumber (date : Date) :
    Date.ofDay (dayNumber date.year date.month date.day) = date := by
  have hlens : ∀ len ∈ monthLengths date.year, 0 ≤ len := fun len hlen => by
    have := (monthLengths_pos date.year len hlen).1
    omega
  have hbefore : 0 ≤ ((monthLengths date.year).take date.month).sum :=
    List.sum_nonneg fun len hlen => hlens len (List.mem_of_mem_take hlen)
  have hafter := take_sum_le hlens date.month
  have hday := date.day_nonneg
  have hlt := date.day_lt
  -- the year goes on until after the month
  have hyear : yearOf (dayNumber date.year date.month date.day) = date.year := by
    apply yearOf_eq
    · rw [dayNumber]
      omega
    · rw [newYear_succ, ← monthLengths_sum, dayNumber]
      omega
  have hrest : dayNumber date.year date.month date.day - newYear date.year =
      ((monthLengths date.year).take date.month).sum + date.day := by
    rw [dayNumber]
    omega
  have hlocate := locate_sum hlens date.day_nonneg date.day_lt
  ext
  · exact hyear
  · simp only [Date.ofDay, hyear, hrest, hlocate]
  · simp only [Date.ofDay, hyear, hrest, hlocate]

/-- The months before another one end before it begins. -/
theorem take_sum_mono {lens : List ℤ} (hlens : ∀ len ∈ lens, 0 ≤ len) {i j : ℕ} (h : i < j) :
    (lens.take i).sum + lens.getD i 0 ≤ (lens.take j).sum := by
  have hshorter : ∀ len ∈ lens.take j, 0 ≤ len := fun len hlen =>
    hlens len (List.mem_of_mem_take hlen)
  have hrest := take_sum_le hshorter i
  rw [List.take_take, Nat.min_eq_left (Nat.le_of_lt h)] at hrest
  have hget : (lens.take j).getD i 0 = lens.getD i 0 := by
    simp [List.getD_eq_getElem?_getD, h]
  rwa [hget] at hrest

/-- A date that comes first, year by year, month by month and day by day, is one of a day that
comes first. -/
theorem ofDay_lt {n n' : ℤ}
    (h : (Date.ofDay n).year < (Date.ofDay n').year ∨
      (Date.ofDay n).year = (Date.ofDay n').year ∧ ((Date.ofDay n).month < (Date.ofDay n').month ∨
        (Date.ofDay n).month = (Date.ofDay n').month ∧ (Date.ofDay n).day < (Date.ofDay n').day)) :
    n < n' := by
  have hnumber := dayNumber_ofDay n
  have hnumber' := dayNumber_ofDay n'
  rcases h with hyear | ⟨hyear, hmonth | ⟨hmonth, hday⟩⟩
  · exact (yearOf_lt_iff.mp hyear).trans_le (yearOf_spec n').1
  · -- the whole month is before the other day
    have hlens : ∀ len ∈ monthLengths (Date.ofDay n).year, 0 ≤ len := fun len hlen => by
      have := (monthLengths_pos (Date.ofDay n).year len hlen).1
      omega
    have hbefore := take_sum_mono hlens hmonth
    have hlt := (Date.ofDay n).day_lt
    have hnonneg := (Date.ofDay n').day_nonneg
    rw [dayNumber, ← hyear] at hnumber'
    rw [dayNumber] at hnumber
    omega
  · rw [dayNumber, ← hyear, ← hmonth] at hnumber'
    rw [dayNumber] at hnumber
    omega

end Snapper.General
