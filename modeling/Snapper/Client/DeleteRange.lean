import Mathlib.Algebra.Group.Nat.Defs
import Snapper.Base.Number
import Snapper.Client.Types

/-!
# Ranges of snapshots to delete

`snapper delete` takes numbers and ranges `first-last`.  Of a range it collects the numbers of
the snapshots that exist, going through all numbers with an `unsigned int`.

## Main results

- `readNums_iff`: the ranges that can be given
- `rangeLoop_eq`: what the loop collects where it ends
- `delete_range_iff`: where it ends
-/

namespace Snapper.Client

/-! ## Numbers -/

/-- `istringstream >> unsigned int` without `fail`, up to the end of the text -/
def readsAll (digits : Str) : Bool :=
  digits ≠ [] ∧ digits.all isDigit ∧ digitsValue digits < 2 ^ 32

/-- `read_num`, `none` for `exit` -/
def readNum (s : Str) : Option UInt32 :=
  let text := s.dropWhile isSpace
  -- one sign may come before the digits
  let digits := if text.head? = some 45 ∨ text.head? = some 43 then text.tail else text
  if readsAll digits then some (extract s 0) else none

/-- `str.find(delim)`, and what is before and behind it -/
def cutAt (delim : Str) : Str → Option (Str × Str)
  | [] => if delim = [] then some ([], []) else none
  | c :: s =>
    if delim <+: c :: s then some ([], (c :: s).drop delim.length)
    else (cutAt delim s).map fun parts => (c :: parts.1, parts.2)

/-- `read_nums`, `none` for `exit` -/
def readNums (s delim : Str) : Option (UInt32 × UInt32) := do
  let parts ← cutAt delim s
  let num1 ← readNum parts.1
  let num2 ← readNum parts.2
  if num1 = num2 then none else some (num1, num2)

/-! ## The loop -/

/-- The body of the loop -/
def pick (snapshots : List XSnapshot) (nums : List UInt32) (i : UInt32) : List UInt32 :=
  if (XSnapshots.find snapshots i.toNat).isSome ∧ i ∉ nums then nums ++ [i] else nums

/-- `for (unsigned int i = r.first; i <= r.second; ++i)`, with fuel -/
def rangeLoop (snapshots : List XSnapshot) (last : UInt32) :
    Nat → UInt32 → List UInt32 → Option (List UInt32)
  | 0, _, _ => none
  | fuel + 1, i, nums =>
    if i ≤ last then rangeLoop snapshots last fuel (i + 1) (pick snapshots nums i) else some nums

/-- What ends `command_delete` before it deletes. -/
inductive Stop where
  | exit
  | outOfFuel
  deriving DecidableEq

/-- The numbers after one argument of `command_delete`, where the loop may run `fuel` rounds -/
def addArg (fuel : Nat) (snapshots : List XSnapshot) (nums : List UInt32) (arg : Str) :
    Except Stop (List UInt32) :=
  if 45 ∉ arg then
    match readNum arg with
    | none => .error .exit
    | some i => .ok (nums ++ [i])
  else
    match readNums arg (str "-") with
    | none => .error .exit
    | some r =>
      let first := if r.2 < r.1 then r.2 else r.1
      let last := if r.2 < r.1 then r.1 else r.2
      match rangeLoop snapshots last fuel first nums with
      | none => .error .outOfFuel
      | some nums => .ok nums

/-! ## Where it ends -/

/-- `n` numbers from `i` on -/
def numbersFrom (i : UInt32) : Nat → List UInt32
  | 0 => []
  | n + 1 => i :: numbersFrom (i + 1) n

theorem toNat_succ {i : UInt32} (h : i.toNat + 1 < 2 ^ 32) : (i + 1).toNat = i.toNat + 1 := by
  have hone : (1 : UInt32).toNat = 1 := rfl
  rw [UInt32.toNat_add, hone, Nat.mod_eq_of_lt h]

/-- Counting up from a number without overflow gives the numbers from there on. -/
theorem mem_numbersFrom {i j : UInt32} {n : Nat} (h : i.toNat + n < 2 ^ 32) :
    j ∈ numbersFrom i n ↔ i.toNat ≤ j.toNat ∧ j.toNat < i.toNat + n := by
  induction n generalizing i with
  | zero =>
    simp only [numbersFrom, List.not_mem_nil, false_iff]
    omega
  | succ n ih =>
    have hsucc : (i + 1).toNat = i.toNat + 1 := toNat_succ (by omega)
    rw [numbersFrom, List.mem_cons, ih (by omega), hsucc, ← UInt32.toNat_inj]
    omega

/-- They ascend, and so none stands there twice. -/
theorem numbersFrom_ascending {i : UInt32} {n : Nat} (h : i.toNat + n < 2 ^ 32) :
    (numbersFrom i n).Pairwise (· < ·) := by
  induction n generalizing i with
  | zero => exact List.Pairwise.nil
  | succ n ih =>
    have hsucc : (i + 1).toNat = i.toNat + 1 := toNat_succ (by omega)
    have hrest : (i + 1).toNat + n < 2 ^ 32 := by omega
    refine List.pairwise_cons.mpr ⟨fun j hj => ?_, ih hrest⟩
    have hj := (mem_numbersFrom hrest).mp hj
    rw [UInt32.lt_iff_toNat_lt]
    omega

/-- The rounds of the loop up to its end, with a bound that the counter can pass. -/
theorem rangeLoop_eq (snapshots : List XSnapshot) {last i : UInt32} {n : Nat}
    (hn : i.toNat + n = last.toNat + 1) (hlast : last.toNat + 1 < 2 ^ 32) (nums : List UInt32) :
    rangeLoop snapshots last (n + 1) i nums =
      some ((numbersFrom i n).foldl (pick snapshots) nums) := by
  induction n generalizing i nums with
  | zero =>
    have hend : ¬i ≤ last := by
      rw [UInt32.le_iff_toNat_le]
      omega
    rw [rangeLoop, if_neg hend]
    rfl
  | succ n ih =>
    have hgo : i ≤ last := by
      rw [UInt32.le_iff_toNat_le]
      omega
    have hsucc : (i + 1).toNat = i.toNat + 1 := toNat_succ (by omega)
    rw [rangeLoop, if_pos hgo, ih (by omega)]
    rfl

/-- Against the largest number the counter starts again from zero. -/
theorem rangeLoop_endless (snapshots : List XSnapshot) {last : UInt32} (h : last.toNat + 1 = 2 ^ 32)
    (fuel : Nat) (i : UInt32) (nums : List UInt32) :
    rangeLoop snapshots last fuel i nums = none := by
  induction fuel generalizing i nums with
  | zero => rfl
  | succ fuel ih =>
    have hgo : i ≤ last := by
      rw [UInt32.le_iff_toNat_le]
      have hi := i.toNat_lt
      omega
    rw [rangeLoop, if_pos hgo]
    exact ih (i + 1) (pick snapshots nums i)

/-! ## What it collects -/

/-- Numbers picked in a row: those that exist and were not there before, in this order. -/
theorem foldl_pick (snapshots : List XSnapshot) {l : List UInt32} (hl : l.Nodup)
    (nums : List UInt32) :
    l.foldl (pick snapshots) nums =
      nums ++ l.filter fun i => (XSnapshots.find snapshots i.toNat).isSome ∧ i ∉ nums := by
  induction l generalizing nums with
  | nil => exact (List.append_nil nums).symm
  | cons i l ih =>
    obtain ⟨hi, hl⟩ := List.nodup_cons.mp hl
    rw [List.foldl_cons, ih hl, pick]
    by_cases hpick : (XSnapshots.find snapshots i.toNat).isSome ∧ i ∉ nums
    · -- the later numbers are other ones, so `i` makes no difference to them
      have hrest :
          l.filter (fun j => (XSnapshots.find snapshots j.toNat).isSome ∧ j ∉ nums ++ [i]) =
          l.filter fun j => (XSnapshots.find snapshots j.toNat).isSome ∧ j ∉ nums := by
        refine List.filter_congr fun j hj => ?_
        have hne : j ≠ i := fun heq => hi (heq ▸ hj)
        simp [hne]
      rw [if_pos hpick, hrest, List.filter_cons_of_pos (by simpa using hpick), List.append_assoc,
        List.singleton_append]
    · rw [if_neg hpick, List.filter_cons_of_neg (by simpa using hpick)]

/-- What is to be appended for a range: the numbers of the snapshots in it that are not in
`nums`, ascending and once each. -/
structure Collects (snapshots : List XSnapshot) (nums : List UInt32) (a b : UInt32)
    (new : List UInt32) : Prop where
  ascending : new.Pairwise (· < ·)
  mem_iff : ∀ i, i ∈ new ↔ min a.toNat b.toNat ≤ i.toNat ∧ i.toNat ≤ max a.toNat b.toNat ∧
    (XSnapshots.find snapshots i.toNat).isSome = true ∧ i ∉ nums

/-- Those of them that are in the list and not collected yet are what the range stands for. -/
theorem collects_filter (snapshots : List XSnapshot) (nums : List UInt32)
    {a b first : UInt32} {n : Nat}
    (hfirst : first.toNat = min a.toNat b.toNat) (hn : first.toNat + n = max a.toNat b.toNat + 1)
    (hlast : max a.toNat b.toNat + 1 < 2 ^ 32) :
    Collects snapshots nums a b ((numbersFrom first n).filter fun i =>
      (XSnapshots.find snapshots i.toNat).isSome ∧ i ∉ nums) where
  ascending := (numbersFrom_ascending (by omega)).filter _
  mem_iff i := by
    rw [List.mem_filter, mem_numbersFrom (by omega), decide_eq_true_eq, and_assoc, hn, ← hfirst,
      Nat.lt_succ_iff]

/-! ## The arguments -/

/-- What is cut, with the delimiter between the two parts. -/
theorem cutAt_split {delim s before after : Str} (h : cutAt delim s = some (before, after)) :
    s = before ++ delim ++ after := by
  induction s generalizing before with
  | nil =>
    rw [cutAt] at h
    split at h
    · next hdelim =>
      obtain ⟨rfl, rfl⟩ := Prod.mk.inj (Option.some.inj h)
      rw [hdelim]
      rfl
    · cases h
  | cons c s ih =>
    rw [cutAt] at h
    split at h
    -- the delimiter is here
    · next hdelim =>
      obtain ⟨rfl, rfl⟩ := Prod.mk.inj (Option.some.inj h)
      obtain ⟨rest, hrest⟩ := hdelim
      rw [← hrest, List.drop_left]
      rfl
    · obtain ⟨parts, hparts, hpair⟩ := Option.map_eq_some_iff.mp h
      obtain ⟨rfl, rfl⟩ := Prod.mk.inj hpair
      rw [List.cons_append, List.cons_append, ← ih hparts]

/-- The text is cut at the first place where the delimiter stands. -/
theorem cutAt_first {c : UInt8} {before : Str} (h : c ∉ before) (after : Str) :
    cutAt [c] (before ++ c :: after) = some (before, after) := by
  induction before with
  | nil =>
    have hfront : [c] <+: c :: after := List.prefix_append [c] after
    rw [List.nil_append, cutAt, if_pos hfront]
    rfl
  | cons b before ih =>
    rw [List.mem_cons, not_or] at h
    have hnot : ¬[c] <+: b :: (before ++ c :: after) := by
      intro hprefix
      obtain ⟨rest, hrest⟩ := hprefix
      exact h.1 (List.cons.inj hrest).1
    rw [List.cons_append, cutAt, if_neg hnot, ih h.2]
    rfl

/-- A number as it is written is accepted. -/
theorem readNum_decString (num : UInt32) : readNum (decString num.toNat) = some num := by
  obtain ⟨b, rest, hcons⟩ := List.exists_cons_of_ne_nil (decString_ne_nil num.toNat)
  have hb : isDigit b = true := isDigit_of_mem_decString (hcons ▸ List.mem_cons_self ..)
  obtain ⟨hspace, hminus, hplus⟩ := not_of_isDigit hb
  have hdrop : (decString num.toNat).dropWhile isSpace = decString num.toNat := by
    rw [hcons, List.dropWhile_cons_of_neg (by simp [hspace])]
  have hsign : ¬((decString num.toNat).head? = some 45 ∨
    (decString num.toNat).head? = some 43) := by
    rw [hcons]
    simp [hminus, hplus]
  have hreads : readsAll (decString num.toNat) = true := by
    have hall : (decString num.toNat).all isDigit = true :=
      List.all_eq_true.mpr fun c hc => isDigit_of_mem_decString hc
    have hlt := num.toNat_lt
    exact decide_eq_true ⟨decString_ne_nil _, hall, by rwa [digitsValue_decString]⟩
  unfold readNum
  dsimp only
  rw [hdrop, if_neg hsign, if_pos hreads, extract_decString]

/-- The ranges that can be given are the pairs of different numbers. -/
theorem readNums_iff (a b : UInt32) :
    (∃ arg, readNums arg (str "-") = some (a, b)) ↔ a ≠ b := by
  constructor
  · intro h
    obtain ⟨arg, harg⟩ := h
    obtain ⟨parts, -, hparts⟩ := Option.bind_eq_some_iff.mp harg
    obtain ⟨num1, -, hnum1⟩ := Option.bind_eq_some_iff.mp hparts
    obtain ⟨num2, -, hnum2⟩ := Option.bind_eq_some_iff.mp hnum1
    split at hnum2
    · cases hnum2
    · next hne =>
      obtain ⟨rfl, rfl⟩ := Prod.mk.inj (Option.some.inj hnum2)
      exact hne
  · intro hne
    -- written in digits, the first hyphen is the one between the numbers
    have hdigits : 45 ∉ decString a.toNat := fun hmem =>
      (not_of_isDigit (isDigit_of_mem_decString hmem)).2.1 rfl
    refine ⟨decString a.toNat ++ 45 :: decString b.toNat, ?_⟩
    have hdelim : str "-" = [45] := rfl
    rw [readNums, hdelim, cutAt_first hdigits]
    simp only [Option.bind_eq_bind, Option.bind_some, readNum_decString, if_neg hne]

theorem dash_mem_of_readNums {arg : Str} {r : UInt32 × UInt32}
    (h : readNums arg (str "-") = some r) : 45 ∈ arg := by
  obtain ⟨parts, hparts, -⟩ := Option.bind_eq_some_iff.mp h
  have hsplit : arg = parts.1 ++ str "-" ++ parts.2 := cutAt_split hparts
  rw [hsplit]
  simp [str]

/-- A range, swapped if need be. -/
theorem addArg_range {arg : Str} {a b : UInt32} (h : readNums arg (str "-") = some (a, b))
    (snapshots : List XSnapshot) (nums : List UInt32) :
    ∃ first last : UInt32, first.toNat = min a.toNat b.toNat ∧ last.toNat = max a.toNat b.toNat ∧
      ∀ fuel, addArg fuel snapshots nums arg =
        (rangeLoop snapshots last fuel first nums).elim (.error .outOfFuel) .ok := by
  refine ⟨if b < a then b else a, if b < a then a else b, ?_, ?_, fun fuel => ?_⟩
  · split
    · next hlt =>
      rw [UInt32.lt_iff_toNat_lt] at hlt
      omega
    · next hge =>
      rw [UInt32.lt_iff_toNat_lt] at hge
      omega
  · split
    · next hlt =>
      rw [UInt32.lt_iff_toNat_lt] at hlt
      omega
    · next hge =>
      rw [UInt32.lt_iff_toNat_lt] at hge
      omega
  -- the argument has a hyphen, so it is read as a range
  · rw [addArg, if_neg (not_not_intro (dash_mem_of_readNums h)), h]
    cases hloop :
        rangeLoop snapshots (if b < a then a else b) fuel (if b < a then b else a) nums with
    | none => simp [hloop]
    | some nums => simp [hloop]

/-! ## Main result -/

/-- For all lists of snapshots, in any order, numbers so far and ranges: the loop ends and appends
what it should if and only if the range does not reach up to the largest number. -/
theorem delete_range_iff (snapshots : List XSnapshot) (nums : List UInt32) (arg : Str)
    (a b : UInt32)
    (h : readNums arg (str "-") = some (a, b)) :
    (∃ fuel new, addArg fuel snapshots nums arg = .ok (nums ++ new) ∧
      Collects snapshots nums a b new) ↔ max a.toNat b.toNat ≠ 2 ^ 32 - 1 := by
  obtain ⟨first, last, hfirst, hlast, hadd⟩ := addArg_range h snapshots nums
  constructor
  · intro hends hmax
    obtain ⟨fuel, new, hresult, -⟩ := hends
    -- from the largest number the counter goes on with 0, for ever
    rw [hadd, rangeLoop_endless snapshots (by omega) fuel first nums] at hresult
    cases hresult
  · intro hmax
    have hbound : last.toNat + 1 < 2 ^ 32 := by
      have hlt := last.toNat_lt
      omega
    -- else the loop makes as many rounds as there are numbers, and one more to see the end
    obtain ⟨n, hn⟩ : ∃ n, first.toNat + n = last.toNat + 1 :=
      ⟨last.toNat + 1 - first.toNat, by omega⟩
    have hnodup : (numbersFrom first n).Nodup :=
      (numbersFrom_ascending (by omega)).imp fun hlt => ne_of_lt hlt
    have hmax' : first.toNat + n = max a.toNat b.toNat + 1 := by omega
    refine ⟨n + 1, _, ?_, collects_filter snapshots nums hfirst hmax' (by omega)⟩
    rw [hadd, rangeLoop_eq snapshots hn hbound, foldl_pick snapshots hnodup]
    rfl

theorem readNums_three_five : readNums (str "5-3") (str "-") = some (5, 3) := by decide

theorem readNums_largest : readNums (str "1-4294967295") (str "-") = some (1, 4294967295) := by
  decide

/-- A snapshot with this number -/
def numbered (num : Nat) : XSnapshot := ⟨.SINGLE, num, 0, 0, 0, [], [], .empty⟩

/-- A range that is given the other way around.  The number 3 was given before, there is no
snapshot 5, and 6 is beyond the range: 4 is appended. -/
theorem delete_range_three_five : ∃ fuel new,
    addArg fuel [numbered 4, numbered 3, numbered 6] [3] (str "5-3") = .ok ([3] ++ new) ∧
      Collects [numbered 4, numbered 3, numbered 6] [3] 5 3 new :=
  (delete_range_iff [numbered 4, numbered 3, numbered 6] [3] (str "5-3") 5 3
    readNums_three_five).mpr (by decide)

/-- `snapper delete 1-4294967295` never ends. -/
theorem delete_range_endless :
    readNums (str "1-4294967295") (str "-") = some (1, 4294967295) ∧
      ∀ fuel, addArg fuel [] [] (str "1-4294967295") = .error .outOfFuel := by
  refine ⟨readNums_largest, fun fuel => ?_⟩
  obtain ⟨first, last, -, hlast, hadd⟩ := addArg_range readNums_largest [] []
  rw [hadd, rangeLoop_endless [] (by rw [hlast]; decide)]
  rfl

end Snapper.Client
