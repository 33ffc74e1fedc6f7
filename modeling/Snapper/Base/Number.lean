import Mathlib.Algebra.Group.Int.Defs
import Mathlib.Algebra.Group.Nat.Defs
import Mathlib.Data.List.TakeWhile
import Snapper.Base.Bytes

/-!
# Numbers as text

`decString` writes a number in plain decimal form.  `operator>>` of a stream reads more than
that: white space and a sign before the digits, leading zeros, anything after them.
-/

namespace Snapper

/-! ## Writing -/

/-- `decString`, and `operator<<` of a stream in the classic locale -/
def decString (num : Nat) : Str := str (toString num)

/-- A decimal digit -/
def isDigit (b : UInt8) : Bool := 48 ≤ b ∧ b ≤ 57

/-- The digit of a number below ten. -/
def digit (n : Nat) : UInt8 := 48 + UInt8.ofNat n

theorem digit_toNat {n : Nat} (h : n < 10) : (digit n).toNat = 48 + n := by
  have hbyte : n < UInt8.size := lt_trans h (by decide)
  have h48 : (48 : UInt8).toNat = 48 := rfl
  rw [digit, UInt8.toNat_add, UInt8.toNat_ofNat_of_lt' hbyte, h48]
  omega

theorem isDigit_digit {n : Nat} (h : n < 10) : isDigit (digit n) = true := by
  have hvalue := digit_toNat h
  simp only [isDigit, decide_eq_true_eq, UInt8.le_iff_toNat_le, hvalue]
  have h48 : (48 : UInt8).toNat = 48 := rfl
  have h57 : (57 : UInt8).toNat = 57 := rfl
  omega

theorem digitChar_eq_digit : ∀ {n : Nat}, n < 10 → n.digitChar.toNat.toUInt8 = digit n := by
  decide

theorem decString_of_lt {n : Nat} (h : n < 10) : decString n = [digit n] := by
  rw [decString, str, Nat.toString_eq_repr, Nat.toList_repr, Nat.toDigits_of_lt_base h]
  simp [digitChar_eq_digit h]

/-- The last digit is written last. -/
theorem decString_of_ge {n : Nat} (h : 10 ≤ n) :
    decString n = decString (n / 10) ++ [digit (n % 10)] := by
  have hlast : n % 10 < 10 := Nat.mod_lt _ (by omega)
  rw [decString, decString, str, str, Nat.toString_eq_repr, Nat.toString_eq_repr,
    Nat.toList_repr, Nat.toList_repr, Nat.toDigits_of_base_le (by omega) h, List.map_append,
    List.map_singleton, digitChar_eq_digit hlast]

theorem decString_ne_nil (n : Nat) : decString n ≠ [] := by
  rcases Nat.lt_or_ge n 10 with h | h
  · simp [decString_of_lt h]
  · simp [decString_of_ge h]

/-- Nothing but digits is written of a number: no sign, no blank and no separator. -/
theorem isDigit_of_mem_decString {n : Nat} {b : UInt8} (hb : b ∈ decString n) :
    isDigit b = true := by
  induction n using Nat.strong_induction_on with
  | _ n ih =>
    rcases Nat.lt_or_ge n 10 with h | h
    · rw [decString_of_lt h, List.mem_singleton] at hb
      exact hb ▸ isDigit_digit h
    · rw [decString_of_ge h, List.mem_append, List.mem_singleton] at hb
      rcases hb with hb | rfl
      · exact ih (n / 10) (by omega) hb
      · exact isDigit_digit (Nat.mod_lt _ (by omega))

/-! ## Reading -/

/-- `isspace` in the classic locale -/
def isSpace (b : UInt8) : Bool := b = 32 ∨ (9 ≤ b ∧ b ≤ 13)

/-- The number that digits stand for. -/
def digitsValue (digits : Str) : Nat :=
  digits.foldl (fun value b => 10 * value + (b.toNat - 48)) 0

/-- What `operator>>` of a stream takes of a number in the classic locale: white space is skipped,
then come a sign and decimal digits.  Where nothing follows the white space, nothing is read at
all, while other text without digits is read as a number without digits. -/
def streamNumber (text : Str) : Option (Bool × Str) :=
  match text.dropWhile isSpace with
  | [] => none
  | b :: rest => some <|
    if b = 45 then (true, rest.takeWhile isDigit)
    else if b = 43 then (false, rest.takeWhile isDigit)
    else (false, (b :: rest).takeWhile isDigit)

/-- The number that was read in an unsigned type of `w` bits: the largest one where the value is too
large, and 0 without digits. -/
def unsignedValue (w : Nat) : Bool × Str → Nat
  | (negative, digits) =>
    if 2 ^ w ≤ digitsValue digits then 2 ^ w - 1
    -- a minus sign negates the value in the unsigned type
    else if negative then (2 ^ w - digitsValue digits) % 2 ^ w
    else digitsValue digits

/-- The number that was read in a signed type of `w + 1` bits, the nearest one where the value is
out of range. -/
def signedValue (w : Nat) : Bool × Str → Int
  | (negative, digits) =>
    if negative then max (-digitsValue digits) (-2 ^ w) else min (digitsValue digits) (2 ^ w - 1)

/-- `istringstream >> unsigned int`.  Where nothing follows the white space the variable
keeps its value. -/
def extract (text : Str) (v : UInt32) : UInt32 :=
  (streamNumber text).elim v fun number => UInt32.ofNat (unsignedValue 32 number)

/-- `istringstream >> size_t` -/
def extractSize (text : Str) (v : Nat) : Nat :=
  (streamNumber text).elim v (unsignedValue 64)

/-- `istringstream >> time_t` -/
def extractTime (text : Str) (v : Int) : Int :=
  (streamNumber text).elim v (signedValue 63)

theorem digitsValue_append (digits : Str) (b : UInt8) :
    digitsValue (digits ++ [b]) = 10 * digitsValue digits + (b.toNat - 48) := by
  simp [digitsValue]

/-- A number is the value of the digits that are written of it. -/
@[simp] theorem digitsValue_decString (n : Nat) : digitsValue (decString n) = n := by
  induction n using Nat.strong_induction_on with
  | _ n ih =>
    rcases Nat.lt_or_ge n 10 with h | h
    · have := digit_toNat h
      simp [decString_of_lt h, digitsValue, this]
    · have := digit_toNat (Nat.mod_lt n (by omega : 0 < 10))
      rw [decString_of_ge h, digitsValue_append, ih (n / 10) (by omega), this]
      omega

/-- Two numbers with the same text are equal. -/
theorem decString_injective {m n : Nat} (h : decString m = decString n) : m = n := by
  rw [← digitsValue_decString m, h, digitsValue_decString]

/-- A digit is no white space and no sign. -/
theorem not_of_isDigit {b : UInt8} (h : isDigit b = true) :
    isSpace b = false ∧ b ≠ 45 ∧ b ≠ 43 := by
  simp only [isDigit, decide_eq_true_eq] at h
  obtain ⟨hlow, hhigh⟩ := h
  refine ⟨?_, ?_, ?_⟩
  · simp only [isSpace, decide_eq_false_iff_not, not_or, not_and, not_le]
    refine ⟨?_, fun _ => lt_of_lt_of_le (by decide) hlow⟩
    rintro rfl
    exact absurd hlow (by decide)
  · rintro rfl
    exact absurd hlow (by decide)
  · rintro rfl
    exact absurd hlow (by decide)

/-- A number that was written is read back, whatever was in the variable. -/
theorem extract_decString (num v : UInt32) : extract (decString num.toNat) v = num := by
  obtain ⟨b, rest, hcons⟩ := List.exists_cons_of_ne_nil (decString_ne_nil num.toNat)
  have hdigits : ∀ c ∈ decString num.toNat, isDigit c = true := fun c hc =>
    isDigit_of_mem_decString hc
  have hvalue := digitsValue_decString num.toNat
  rw [hcons] at hdigits hvalue ⊢
  obtain ⟨hspace, hminus, hplus⟩ := not_of_isDigit (hdigits b (List.mem_cons_self ..))
  have htake : (b :: rest).takeWhile isDigit = b :: rest := List.takeWhile_eq_self_iff.mpr hdigits
  have hread : streamNumber (b :: rest) = some (false, b :: rest) := by
    unfold streamNumber
    rw [List.dropWhile_cons_of_neg (by simp [hspace])]
    simp [hminus, hplus, htake]
  have hlt : ¬2 ^ 32 ≤ num.toNat := Nat.not_le.mpr num.toNat_lt
  have hfits : unsignedValue 32 (false, b :: rest) = num.toNat := by
    simp only [unsignedValue, hvalue, if_neg hlt, Bool.false_eq_true, if_false]
  rw [extract, hread, Option.elim_some, hfits, UInt32.ofNat_toNat]

end Snapper
