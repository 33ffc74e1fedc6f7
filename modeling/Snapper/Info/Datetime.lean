import Snapper.General.Calendar
import Snapper.Info.Info

/-!
# Dates as text

`datetime` and `scan_datetime` of `AppUtil.cc`, for UTC and the classic locale: what
`info.xml` has for the date of a snapshot.  Of the C library they use `gmtime_r`, `timegm`,
`strftime` and `strptime`, with the format `%F %T`.

## Main results

* `scanDatetime_datetime`: a date is read back exactly when its year has up to four digits.
* `dates_faithful`: these functions do what is relied on elsewhere.
* `readInfo_dated`: what an `info.xml` gives for any date.
-/

namespace Snapper

open General

/-! ## The C library -/

/-- `struct tm`.  The year is counted from zero here, months are from 0 and days from 1. -/
structure BrokenDown where
  year : ℤ
  mon : ℕ
  mday : ℕ
  hour : ℕ
  min : ℕ
  sec : ℕ

/-- The day on which `time_t` begins -/
def epoch : ℤ := newYear 1970

/-- `gmtime_r` -/
def gmtime (t : ℤ) : BrokenDown :=
  let date := Date.ofDay (t / 86400 + epoch)
  { year := date.year
    mon := date.month
    mday := date.day.toNat + 1
    hour := (t % 86400 / 3600).toNat
    min := (t % 3600 / 60).toNat
    sec := (t % 60).toNat }

/-- `timegm`.  A day after the end of its month is one of the next month. -/
def timegm (tm : BrokenDown) : ℤ :=
  (dayNumber tm.year tm.mon (tm.mday - 1) - epoch) * 86400 + tm.hour * 3600 + tm.min * 60 + tm.sec

/-- `%Y`, without leading zeros -/
def formatYear (year : ℤ) : Str :=
  if year < 0 then 45 :: decString year.natAbs else decString year.natAbs

/-- Two digits at least -/
def twoDigits (n : ℕ) : Str := if n < 10 then 48 :: decString n else decString n

/-- `strftime` with `%F %T` -/
def strftime (tm : BrokenDown) : Str :=
  formatYear tm.year ++ 45 :: (twoDigits (tm.mon + 1) ++ 45 :: (twoDigits tm.mday ++
    32 :: (twoDigits tm.hour ++ 58 :: (twoDigits tm.min ++ 58 :: twoDigits tm.sec))))

/-- The loop of `get_number` in `strptime`: up to `n` digits, as long as the number can be
`hi` at most. -/
def takeNumber (hi : ℕ) : ℕ → ℕ → Str → ℕ × Str
  | n + 1, val, b :: rp =>
    if isDigit b ∧ val * 10 ≤ hi then takeNumber hi n (10 * val + (b.toNat - 48)) rp
    else (val, b :: rp)
  | _, val, rp => (val, rp)

/-- `get_number` -/
def getNumber (lo hi n : ℕ) (rp : Str) : Option (ℕ × Str) :=
  let rp := rp.dropWhile isSpace
  -- there has to be a digit
  if (rp.head?.map isDigit).getD false = false then none
  else
    let (val, rp) := takeNumber hi n 0 rp
    if lo ≤ val ∧ val ≤ hi then some (val, rp) else none

/-- `match_char` -/
def matchChar (c : UInt8) : Str → Option Str
  | [] => none
  | b :: rp => if b = c then some rp else none

/-- `strptime` with `%F %T`, and what it has not read -/
def strptime (rp : Str) : Option (BrokenDown × Str) := do
  let (year, rp) ← getNumber 0 9999 4 rp
  let rp ← matchChar 45 rp
  let (mon, rp) ← getNumber 1 12 2 rp
  let rp ← matchChar 45 rp
  let (mday, rp) ← getNumber 1 31 2 rp
  -- the blank of the format matches any white space
  let rp := rp.dropWhile isSpace
  let (hour, rp) ← getNumber 0 23 2 rp
  let rp ← matchChar 58 rp
  let (min, rp) ← getNumber 0 59 2 rp
  let rp ← matchChar 58 rp
  -- leap seconds are allowed
  let (sec, rp) ← getNumber 0 61 2 rp
  pure (⟨year, mon - 1, mday, hour, min, sec⟩, rp)

/-! ## The functions of snapper -/

/-- `datetime`; `buf` has room for 64 characters -/
def datetime (date : Int64) : Str :=
  let buf := strftime (gmtime date.toInt)
  if buf.length ≤ 64 then buf else str "unknown"

/-- `scan_datetime` -/
def scanDatetime (s : Str) : Int64 :=
  match strptime (cstr s) with
  | some (tm, []) => .ofInt (timegm tm)
  | _ => -1

example : datetime 1363010100 = str "2013-03-11 13:55:00" := by decide +kernel
example : scanDatetime (str "2013-02-30 13:55:00") = 1362232500 := by decide +kernel

/-! ## Reading numbers -/

section Numbers

variable {lo hi n val : ℕ} {digits rest : Str}

/-- What follows a number is no digit. -/
def NoDigit (rest : Str) : Prop := ∀ b ∈ rest.head?, isDigit b = false

/-- Digits that are read one after the other -/
def addDigits (val : ℕ) (digits : Str) : ℕ :=
  digits.foldl (fun val b => 10 * val + (b.toNat - 48)) val

theorem le_addDigits : val ≤ addDigits val digits := by
  induction digits generalizing val with
  | nil => exact le_refl _
  | cons b digits ih =>
    have hrest : 10 * val + (b.toNat - 48) ≤ addDigits val (b :: digits) := ih
    omega

/-- All digits are read when the number they make is allowed. -/
theorem takeNumber_digits (hdigits : ∀ b ∈ digits, isDigit b = true) (hlen : digits.length ≤ n)
    (hvalue : addDigits val digits ≤ hi) (hrest : NoDigit rest) :
    takeNumber hi n val (digits ++ rest) = (addDigits val digits, rest) := by
  induction digits generalizing n val with
  | nil =>
    cases n with
    | zero => simp [takeNumber, addDigits]
    | succ n =>
      cases rest with
      | nil => simp [takeNumber, addDigits]
      | cons b rest =>
        have hb : isDigit b = false := hrest b rfl
        simp [takeNumber, addDigits, hb]
  | cons b digits ih =>
    obtain ⟨hb, hdigits'⟩ := List.forall_mem_cons.mp hdigits
    cases n with
    | zero => simp at hlen
    | succ n =>
      -- the number that is complete is larger still
      have hmore : 10 * val + (b.toNat - 48) ≤ addDigits val (b :: digits) := le_addDigits
      have hsmall : val * 10 ≤ hi := by omega
      rw [List.cons_append, takeNumber, if_pos ⟨hb, hsmall⟩]
      exact ih hdigits' (by simpa using hlen) hvalue

/-- Where a digit is first, the loop begins. -/
theorem getNumber_loop (hne : digits ≠ []) (hdigits : ∀ b ∈ digits, isDigit b = true) :
    getNumber lo hi n (digits ++ rest) =
      if lo ≤ (takeNumber hi n 0 (digits ++ rest)).1 ∧ (takeNumber hi n 0 (digits ++ rest)).1 ≤ hi
      then some (takeNumber hi n 0 (digits ++ rest)) else none := by
  obtain ⟨b, digits, rfl⟩ := List.exists_cons_of_ne_nil hne
  have hb : isDigit b = true := hdigits b (List.mem_cons_self ..)
  have hspace : isSpace b = false := (not_of_isDigit hb).1
  simp [getNumber, hspace, hb]

theorem getNumber_digits (hne : digits ≠ []) (hdigits : ∀ b ∈ digits, isDigit b = true)
    (hlen : digits.length ≤ n) (hlo : lo ≤ digitsValue digits) (hhi : digitsValue digits ≤ hi)
    (hrest : NoDigit rest) :
    getNumber lo hi n (digits ++ rest) = some (digitsValue digits, rest) := by
  have htake : takeNumber hi n 0 (digits ++ rest) = (digitsValue digits, rest) :=
    takeNumber_digits hdigits hlen hhi hrest
  rw [getNumber_loop hne hdigits, htake, if_pos ⟨hlo, hhi⟩]

/-- Of more digits than there may be the rest begins with one. -/
theorem takeNumber_long (hdigits : ∀ b ∈ digits, isDigit b = true) (hlen : n < digits.length) :
    ¬ NoDigit (takeNumber hi n val (digits ++ rest)).2 := by
  induction digits generalizing n val with
  | nil => simp at hlen
  | cons b digits ih =>
    obtain ⟨hb, hdigits'⟩ := List.forall_mem_cons.mp hdigits
    have hfirst : ¬ NoDigit (b :: digits ++ rest) := fun h => by simp [h b rfl] at hb
    cases n with
    | zero => exact hfirst
    | succ n =>
      rw [List.cons_append, takeNumber]
      split
      · exact ih hdigits' (by simpa using hlen)
      · exact hfirst

/-- A field that is longer than its width is cut off, with a digit following. -/
theorem getNumber_long {rp : Str} (hdigits : ∀ b ∈ digits, isDigit b = true)
    (hlen : n < digits.length) (h : getNumber lo hi n (digits ++ rest) = some (val, rp)) :
    ¬ NoDigit rp := by
  have hne : digits ≠ [] := List.ne_nil_of_length_pos (by omega)
  have hrest : ¬ NoDigit (takeNumber hi n 0 (digits ++ rest)).2 := takeNumber_long hdigits hlen
  rw [getNumber_loop hne hdigits] at h
  split at h
  · rwa [Option.some.inj h] at hrest
  · cases h

@[simp] theorem matchChar_self {c : UInt8} : matchChar c (c :: rest) = some rest := if_pos rfl

/-- A separator does not match a digit. -/
theorem matchChar_none {c : UInt8} (hc : isDigit c = false) (hrest : ¬ NoDigit rest) :
    matchChar c rest = none := by
  cases rest with
  | nil => exact absurd (fun b hb => nomatch hb) hrest
  | cons b rest =>
    refine if_neg ?_
    rintro rfl
    exact hrest fun b' hb' => by
      obtain rfl : b = b' := Option.some.inj hb'
      exact hc

end Numbers

/-! ## Writing numbers -/

/-- A number below a power of ten has at most as many digits as that has zeros. -/
theorem decString_length_le {n k : ℕ} (hk : 0 < k) (h : n < 10 ^ k) :
    (decString n).length ≤ k := by
  induction k generalizing n with
  | zero => exact absurd hk (lt_irrefl 0)
  | succ k ih =>
    rcases Nat.lt_or_ge n 10 with hn | hn
    · simp [decString_of_lt hn]
    · -- the number has another digit before the last one
      have hk : 0 < k := by
        rcases Nat.eq_zero_or_pos k with rfl | hk
        · omega
        · exact hk
      have hrest := ih hk (n := n / 10) (by rw [pow_succ] at h; omega)
      simpa [decString_of_ge hn] using hrest

/-- And one that is not below it has more. -/
theorem lt_decString_length {n k : ℕ} (h : 10 ^ k ≤ n) : k < (decString n).length := by
  induction k generalizing n with
  | zero => exact List.length_pos_of_ne_nil (decString_ne_nil n)
  | succ k ih =>
    have hpow : 1 ≤ 10 ^ k := Nat.one_le_pow k 10 (by decide)
    rw [pow_succ] at h
    have hn : 10 ≤ n := by omega
    have hrest := ih (n := n / 10) (by omega)
    simpa [decString_of_ge hn] using hrest

section TwoDigits

variable {n : ℕ}

/-- Nothing but digits is written in a field of two. -/
theorem twoDigits_digits : ∀ b ∈ twoDigits n, isDigit b = true := by
  intro b hb
  rw [twoDigits] at hb
  split at hb
  · rcases List.mem_cons.mp hb with rfl | hb
    · decide
    · exact isDigit_of_mem_decString hb
  · exact isDigit_of_mem_decString hb

theorem twoDigits_ne_nil : twoDigits n ≠ [] := by
  rw [twoDigits]
  split
  · simp
  · exact decString_ne_nil n

theorem twoDigits_length (h : n < 100) : (twoDigits n).length ≤ 2 := by
  rw [twoDigits]
  split
  · rename_i hn
    simp [decString_of_lt hn]
  · exact decString_length_le (by decide) h

theorem twoDigits_value : digitsValue (twoDigits n) = n := by
  rw [twoDigits]
  split
  · -- a zero in front changes nothing
    have hzero : digitsValue (48 :: decString n) = digitsValue (decString n) := rfl
    rw [hzero, digitsValue_decString]
  · exact digitsValue_decString n

/-- A field of two digits is read back if its value is in the range of the field. -/
theorem getNumber_twoDigits {lo hi : ℕ} {rest : Str} (hlo : lo ≤ n) (hhi : n ≤ hi) (h : n < 100)
    (hrest : NoDigit rest) : getNumber lo hi 2 (twoDigits n ++ rest) = some (n, rest) := by
  have hnumber : getNumber lo hi 2 (twoDigits n ++ rest) =
      some (digitsValue (twoDigits n), rest) := by
    apply getNumber_digits twoDigits_ne_nil twoDigits_digits (twoDigits_length h) _ _ hrest
    · rwa [twoDigits_value]
    · rwa [twoDigits_value]
  rwa [twoDigits_value] at hnumber

theorem dropWhile_twoDigits {rest : Str} :
    (32 :: (twoDigits n ++ rest)).dropWhile isSpace = twoDigits n ++ rest := by
  obtain ⟨b, digits, hcons⟩ := List.exists_cons_of_ne_nil (twoDigits_ne_nil (n := n))
  have hb : isDigit b = true := twoDigits_digits (n := n) b (hcons ▸ List.mem_cons_self ..)
  have hspace : isSpace 32 = true := rfl
  simp [hcons, hspace, (not_of_isDigit hb).1]

end TwoDigits

/-! ## Broken-down time -/

/-- The fields are in their ranges. -/
structure BrokenDown.Valid (tm : BrokenDown) : Prop where
  mon : tm.mon < 12
  mday : 1 ≤ tm.mday ∧ tm.mday ≤ 31
  hour : tm.hour < 24
  min : tm.min < 60
  sec : tm.sec < 60

/-- Every time has a calendar date with its fields in range. -/
theorem gmtime_valid (t : ℤ) : (gmtime t).Valid where
  mon := (Date.ofDay (t / 86400 + epoch)).month_lt
  mday := by
    have hday := (Date.ofDay (t / 86400 + epoch)).day_lt_31
    have := (Date.ofDay (t / 86400 + epoch)).day_nonneg
    simp only [gmtime]
    omega
  hour := by
    simp only [gmtime]
    omega
  min := by
    simp only [gmtime]
    omega
  sec := by
    simp only [gmtime]
    omega

/-- The time comes back from its calendar date, for times before 1970 as well. -/
theorem timegm_gmtime (t : ℤ) : timegm (gmtime t) = t := by
  have hday := dayNumber_ofDay (t / 86400 + epoch)
  have hmday : (((gmtime t).mday : ℕ) : ℤ) - 1 = (Date.ofDay (t / 86400 + epoch)).day := by
    have := (Date.ofDay (t / 86400 + epoch)).day_nonneg
    simp only [gmtime]
    omega
  have hnumber : dayNumber (gmtime t).year (gmtime t).mon ((gmtime t).mday - 1) =
      t / 86400 + epoch := by
    rw [hmday]
    exact hday
  rw [timegm, hnumber]
  simp only [gmtime]
  omega

section Formats

variable {tm : BrokenDown}

theorem ascii_of_isDigit {b : UInt8} (h : isDigit b = true) : 32 ≤ b ∧ b < 127 := by
  simp only [isDigit, decide_eq_true_eq] at h
  exact ⟨le_trans (by decide) h.1, lt_of_le_of_lt h.2 (by decide)⟩

theorem noDigit_cons {b : UInt8} {rest : Str} (h : isDigit b = false) : NoDigit (b :: rest) := by
  rintro b' ⟨⟩
  exact h

/-- What `strftime` writes is read back by `strptime`, in the same format. -/
theorem strptime_strftime (h : tm.Valid) (hyear : 0 ≤ tm.year ∧ tm.year ≤ 9999) :
    strptime (strftime tm) = some (tm, []) := by
  -- a year without a sign, of at most four digits
  have hformat : formatYear tm.year = decString tm.year.natAbs := by
    rw [formatYear, if_neg (by omega)]
  -- what follows a number is no digit, so the number ends where it should
  have hnumber : ∀ rest, NoDigit rest →
      getNumber 0 9999 4 (decString tm.year.natAbs ++ rest) = some (tm.year.natAbs, rest) := by
    intro rest hrest
    have hvalue : digitsValue (decString tm.year.natAbs) ≤ 9999 := by
      rw [digitsValue_decString]
      omega
    have hdigits : getNumber 0 9999 4 (decString tm.year.natAbs ++ rest) = some (_, rest) :=
      getNumber_digits (decString_ne_nil tm.year.natAbs) (fun b => isDigit_of_mem_decString)
        (decString_length_le (by decide) (by omega)) (Nat.zero_le _) hvalue hrest
    rwa [digitsValue_decString] at hdigits
  have hmday := h.mday
  have hmon := h.mon
  have hhour := h.hour
  have hmin := h.min
  have hsec := h.sec
  have hlast : getNumber 0 61 2 (twoDigits tm.sec) = some (tm.sec, []) := by
    have hnumber : getNumber 0 61 2 (twoDigits tm.sec ++ []) = some (tm.sec, []) :=
      getNumber_twoDigits (Nat.zero_le tm.sec) (by omega) (by omega) (fun b hb => nomatch hb)
    rwa [List.append_nil] at hnumber
  -- field after field
  simp only [strptime, strftime, hformat, Option.bind_eq_bind]
  rw [hnumber _ (noDigit_cons rfl), Option.bind_some, matchChar_self, Option.bind_some,
    getNumber_twoDigits (by omega) (by omega) (by omega) (noDigit_cons rfl), Option.bind_some,
    matchChar_self, Option.bind_some,
    getNumber_twoDigits (by omega) (by omega) (by omega) (noDigit_cons rfl), Option.bind_some,
    dropWhile_twoDigits,
    getNumber_twoDigits (by omega) (by omega) (by omega) (noDigit_cons rfl), Option.bind_some,
    matchChar_self, Option.bind_some,
    getNumber_twoDigits (by omega) (by omega) (by omega) (noDigit_cons rfl), Option.bind_some,
    matchChar_self, Option.bind_some, hlast]
  have hyear' : (tm.year.natAbs : ℤ) = tm.year := Int.natAbs_of_nonneg hyear.1
  simp [hyear']

/-- A year of five digits or before the year 0 is not read. -/
theorem strptime_strftime_none (hyear : tm.year < 0 ∨ 9999 < tm.year) :
    strptime (strftime tm) = none := by
  rcases hyear with hyear | hyear
  · have hminus : isSpace 45 = false := rfl
    simp [strptime, strftime, formatYear, hyear, getNumber, hminus, isDigit]
  · have hformat : formatYear tm.year = decString tm.year.natAbs := by
      rw [formatYear, if_neg (by omega)]
    have hlong : 4 < (decString tm.year.natAbs).length := lt_decString_length (by omega)
    simp only [strptime, strftime, hformat, Option.bind_eq_bind]
    cases hnumber : getNumber 0 9999 4 (decString tm.year.natAbs ++ 45 :: _) with
    | none => rfl
    | some found =>
      -- a digit stands where a minus sign should be
      have hrest : ¬ NoDigit found.2 :=
        getNumber_long (fun b => isDigit_of_mem_decString) hlong hnumber
      rw [Option.bind_some, matchChar_none rfl hrest, Option.bind_none]

theorem twoDigits_ascii {n : ℕ} : ∀ b ∈ twoDigits n, 32 ≤ b ∧ b < 127 := fun b hb =>
  ascii_of_isDigit (twoDigits_digits b hb)

/-- A year is written in printable characters, with a sign where it is negative. -/
theorem formatYear_ascii {year : ℤ} : ∀ b ∈ formatYear year, 32 ≤ b ∧ b < 127 := by
  intro b hb
  rw [formatYear] at hb
  split at hb
  · rcases List.mem_cons.mp hb with rfl | hb
    · decide
    · exact ascii_of_isDigit (isDigit_of_mem_decString hb)
  · exact ascii_of_isDigit (isDigit_of_mem_decString hb)

/-- So is a whole date. -/
theorem strftime_ascii : ∀ b ∈ strftime tm, 32 ≤ b ∧ b < 127 := by
  have hsign : ∀ {b : UInt8} {rest : Str}, (32 ≤ b ∧ b < 127) →
      (∀ b ∈ rest, 32 ≤ b ∧ b < 127) → ∀ b' ∈ b :: rest, 32 ≤ b' ∧ b' < 127 :=
    fun hb hrest => List.forall_mem_cons.mpr ⟨hb, hrest⟩
  have happend : ∀ {l rest : Str}, (∀ b ∈ l, 32 ≤ b ∧ b < 127) →
      (∀ b ∈ rest, 32 ≤ b ∧ b < 127) → ∀ b ∈ l ++ rest, 32 ≤ b ∧ b < 127 :=
    fun hl hrest => List.forall_mem_append.mpr ⟨hl, hrest⟩
  exact happend formatYear_ascii (hsign (by decide) (happend twoDigits_ascii (hsign (by decide)
    (happend twoDigits_ascii (hsign (by decide) (happend twoDigits_ascii (hsign (by decide)
      (happend twoDigits_ascii (hsign (by decide) twoDigits_ascii)))))))))

/-- The text fits into the buffer. -/
theorem strftime_length (h : tm.Valid) (hyear : tm.year.natAbs < 10 ^ 20) :
    (strftime tm).length ≤ 64 := by
  have hformat : (formatYear tm.year).length ≤ 21 := by
    have hdec := decString_length_le (k := 20) (by decide) hyear
    rw [formatYear]
    split
    · rw [List.length_cons]
      omega
    · omega
  have hmon := twoDigits_length (n := tm.mon + 1) (by have := h.mon; omega)
  have hmday := twoDigits_length (n := tm.mday) (by have := h.mday; omega)
  have hhour := twoDigits_length (n := tm.hour) (by have := h.hour; omega)
  have hmin := twoDigits_length (n := tm.min) (by have := h.min; omega)
  have hsec := twoDigits_length (n := tm.sec) (by have := h.sec; omega)
  simp only [strftime, List.length_append, List.length_cons]
  omega

end Formats

/-! ## Dates of snapshots -/

section Dates

variable {date : Int64}

/-- `gmtime_r` can represent the date: the years since 1900 fit into an `int`. -/
def Representable (date : Int64) : Prop :=
  -2147483648 ≤ (gmtime date.toInt).year - 1900 ∧ (gmtime date.toInt).year - 1900 ≤ 2147483647

instance (date : Int64) : Decidable (Representable date) := inferInstanceAs (Decidable (_ ∧ _))

/-- The years 0 to 9999 -/
def FourDigits (date : Int64) : Prop :=
  -62167219200 ≤ date.toInt ∧ date.toInt ≤ 253402300799

instance (date : Int64) : Decidable (FourDigits date) := inferInstanceAs (Decidable (_ ∧ _))

/-- The dates with at most four digits in the year are those of the years 0 to 9999. -/
theorem fourDigits_iff :
    FourDigits date ↔ 0 ≤ (gmtime date.toInt).year ∧ (gmtime date.toInt).year ≤ 9999 := by
  have hfirst := yearOf_lt_iff (n := date.toInt / 86400 + epoch) (y := 0)
  have hlast := yearOf_lt_iff (n := date.toInt / 86400 + epoch) (y := 10000)
  have hyear : (gmtime date.toInt).year = yearOf (date.toInt / 86400 + epoch) := rfl
  -- the days on which these years begin
  have h0 : newYear 0 = -366 := rfl
  have h10000 : newYear 10000 = 3652059 := rfl
  have hepoch : epoch = 719162 := rfl
  rw [FourDigits, hyear]
  omega

theorem FourDigits.representable (h : FourDigits date) : Representable date := by
  obtain ⟨hfirst, hlast⟩ := fourDigits_iff.mp h
  rw [Representable]
  omega

theorem datetime_eq (h : Representable date) : datetime date = strftime (gmtime date.toInt) := by
  obtain ⟨hlow, hhigh⟩ := h
  exact if_pos (strftime_length (gmtime_valid _) (by omega))

theorem datetime_ascii (h : Representable date) : ∀ b ∈ datetime date, 32 ≤ b ∧ b < 127 := by
  rw [datetime_eq h]
  exact strftime_ascii

/-- A date is read back when its year has up to four digits; other dates cannot be read. -/
theorem scanDatetime_datetime (h : Representable date) :
    scanDatetime (datetime date) = if FourDigits date then date else -1 := by
  rw [scanDatetime, cstr_of_no_nul (no_nul_of_ascii (datetime_ascii h)), datetime_eq h]
  split_ifs with hyear
  · rw [strptime_strftime (gmtime_valid _) (fourDigits_iff.mp hyear)]
    simp [timegm_gmtime]
  · rw [strptime_strftime_none]
    rw [fourDigits_iff] at hyear
    omega

theorem FourDigits.of_inRange (h : InRange date) : FourDigits date := by
  obtain ⟨hfirst, hlast⟩ := h
  constructor
  · omega
  · exact hlast

/-- What is relied on of these functions. -/
theorem dates_faithful : DatesFaithful datetime scanDatetime where
  inverse date h := by
    have hyear : FourDigits date := .of_inRange h
    rw [scanDatetime_datetime hyear.representable, if_pos hyear]
  ascii date h := datetime_ascii (FourDigits.of_inRange h).representable

end Dates

/-! ## The document with any date -/

/-- `read` makes a snapshot of the document when it can read the date. -/
theorem readInfo_dated {datetime : Int64 → Str} {scanDatetime : Str → Int64}
    {checkSnapshot : UInt32 → Bool} {unset : UInt32} {s : Snapshot} (hnul : s.NoNul)
    (hdate : ∀ b ∈ datetime s.date, 32 ≤ b ∧ b < 127) (hnum : s.num ≠ 0)
    (hcheck : checkSnapshot s.num = true) :
    readInfo scanDatetime checkSnapshot unset (decString s.num.toNat)
        [(s.writeInfo datetime).shown] =
      if scanDatetime (datetime s.date) = -1 then none
      else some ((Snapshot.new s.type s.num (scanDatetime (datetime s.date))).readFields
        (s.shownNodes datetime)) := by
  -- the document has the one node that is looked for
  have hnode : getChildNode (str "snapshot") [(s.writeInfo datetime).shown] =
      s.shownNodes datetime := by
    rw [Snapshot.writeInfo, XmlNode.shown, infoNodes_shown hnul (no_nul_of_ascii hdate)]
    simp [getChildNode, Snapshot.shownNodes]
  -- and in it the fields that are always written
  obtain ⟨htype, hnumber, hdatetime, -⟩ :
      getChildValue (str "type") (s.shownNodes datetime) = _ ∧
      getChildValue (str "num") (s.shownNodes datetime) = _ ∧
      getChildValue (str "date") (s.shownNodes datetime) = _ ∧ _ := shownNodes_fixed
  have hsame : ((Snapshot.new s.type s.num (scanDatetime (datetime s.date))).readFields
      (s.shownNodes datetime)).num = s.num := rfl
  simp only [readInfo, hnode, htype, Option.bind_some, SnapshotType.ofStr_toStr, hnumber,
    extract_decString, hnum, if_false, hdatetime, ne_eq, not_true_eq_false, hsame, hcheck, if_true]

end Snapper
