import Snapper.Dbus.Hihi

/-!
# What an operator makes of a value

An operator either takes the value its iterator points to, and then stands behind it, or
throws.  In the second case what matters is how many containers it leaves entered: these
iterators stay on the stack.
-/

namespace Snapper.DBus

open General

variable {α β : Type}

/-- On the value `v` the operator has the result `r`: a value read, or the number of
iterators left on the stack by the exception. -/
def Reads (c : Decode α) (v : Value) : Except Nat α → Prop
  | .ok a => ∀ vs rest, c.run ⟨(v :: vs) :: rest⟩ = (.ok a, ⟨vs :: rest⟩)
  | .error n => ∀ vs rest, ∃ hihi,
      c.run ⟨(v :: vs) :: rest⟩ = (.error .MarshallingException, hihi) ∧
        hihi.iters.length = rest.length + 1 + n

/-- At the end of its iterator the operator throws and leaves the stack alone. -/
def ThrowsAtEnd (c : Decode α) : Prop :=
  ∀ rest, c.run ⟨[] :: rest⟩ = (.error .MarshallingException, ⟨[] :: rest⟩)

/-! ## Basic types -/

theorem getBasic_run_some {get : Value → Option α} {v : Value} {a : α} (h : get v = some a)
    (vs : List Value) (rest : List (List Value)) :
    (getBasic get).run ⟨(v :: vs) :: rest⟩ = (.ok a, ⟨vs :: rest⟩) := by
  simp [getBasic, Act.run_bind, Hihi.ahead, Hihi.next, h]

theorem getBasic_run_none {get : Value → Option α} {v : Value} (h : get v = none)
    (vs : List Value) (rest : List (List Value)) :
    (getBasic get).run ⟨(v :: vs) :: rest⟩ =
      (.error .MarshallingException, ⟨(v :: vs) :: rest⟩) := by
  simp [getBasic, Act.run_bind, Hihi.ahead, h]

theorem getBasic_throwsAtEnd (get : Value → Option α) : ThrowsAtEnd (getBasic get) := by
  intro rest
  simp [getBasic, Act.run_bind, Hihi.ahead]

theorem getBasic_reads (get : Value → Option α) (v : Value) :
    Reads (getBasic get) v ((get v).elim (.error 0) .ok) := by
  cases h : get v with
  | some a => exact getBasic_run_some h
  | none =>
    intro vs rest
    exact ⟨_, getBasic_run_none h vs rest, rfl⟩

/-- What `operator>>(Hihi&, string&)` makes of a value. -/
def stringValue : Value → Except Nat Str
  | .string s => (unescape s).elim (.error 0) .ok
  | _ => .error 0

/-- A string is read from a string; any other value makes the operator throw where it stands. -/
theorem extract_string_reads (v : Value) : Reads (extract : Decode Str) v (stringValue v) := by
  cases v with
  | string s =>
    have hget : ∀ vs rest, getString.run ⟨(.string s :: vs) :: rest⟩ = (.ok s, ⟨vs :: rest⟩) :=
      getBasic_run_some rfl
    -- the iterator has gone on when `unescape` throws
    cases h : unescape s with
    | some t =>
      simp only [stringValue, h, Option.elim]
      intro vs rest
      simp [extract, Act.run_bind, hget, h]
    | none =>
      simp only [stringValue, h, Option.elim]
      intro vs rest
      simp [extract, Act.run_bind, hget, h]
  | _ =>
    intro vs rest
    exact ⟨_, Act.run_bind_error (getBasic_run_none rfl vs rest), rfl⟩

theorem extract_string_throwsAtEnd : ThrowsAtEnd (extract : Decode Str) := by
  intro rest
  exact Act.run_bind_error (getBasic_throwsAtEnd _ rest)

/-! ## Arrays -/

/-- The loop over the elements of an array, which fuel for all elements does not cut short. -/
theorem whileValid_run {body : β → Decode β} {step : β → Value → Except Nat β}
    {elems : List Value} (hbody : ∀ v ∈ elems, ∀ data, Reads (body data) v (step data v))
    {fuel : Nat} (hfuel : elems.length ≤ fuel) (data : β) (rest : List (List Value)) :
    match elems.foldlM step data with
    | .ok data' => (whileValid body fuel data).run ⟨elems :: rest⟩ = (.ok data', ⟨[] :: rest⟩)
    | .error n => ∃ hihi, (whileValid body fuel data).run ⟨elems :: rest⟩ =
        (.error .MarshallingException, hihi) ∧ hihi.iters.length = rest.length + 1 + n := by
  induction elems generalizing fuel data with
  | nil =>
    cases fuel with
    | zero => rfl
    | succ fuel => rfl
  | cons v elems ih =>
    obtain ⟨fuel, rfl⟩ := Nat.exists_eq_add_one_of_ne_zero (Nat.ne_zero_of_lt hfuel)
    have hread := hbody v (List.mem_cons_self ..) data
    have hvalid : v.type ≠ .INVALID := by cases v <;> simp [Value.type]
    have hloop : (whileValid body (fuel + 1) data).run ⟨(v :: elems) :: rest⟩ =
        (body data >>= whileValid body fuel).run ⟨(v :: elems) :: rest⟩ := by
      simp [whileValid, Act.run_bind, Hihi.getType, Hihi.ahead, hvalid]
    rw [List.foldlM_cons, hloop]
    cases hstep : step data v with
    | error n =>
      -- the exception of the body ends the loop
      rw [hstep] at hread
      obtain ⟨hihi, hrun, hlength⟩ := hread elems rest
      exact ⟨hihi, Act.run_bind_error hrun, hlength⟩
    | ok data' =>
      rw [hstep] at hread
      rw [Act.run_bind_ok (hread elems rest)]
      exact ih (fun w hw => hbody w (List.mem_cons_of_mem v hw)) (by simpa using hfuel) data'

/-- An array is entered, its elements are read while there are any, and it is left. -/
theorem extractArray_run (body : β → Decode β) (data : β) (sig : Str) (elems vs : List Value)
    (rest : List (List Value)) :
    (extractArray body data).run ⟨(.array sig elems :: vs) :: rest⟩ =
      (whileValid body elems.length data >>= fun data => do
        Act.modify Hihi.closeRecurse
        pure data).run ⟨elems :: (.array sig elems :: vs) :: rest⟩ := by
  simp [extractArray, Act.run_bind, Hihi.getType, Hihi.ahead, Value.type, Hihi.openRecurse,
    Hihi.children]

/-- An exception in an element leaves the array entered. -/
theorem extractArray_reads {body : β → Decode β} {step : β → Value → Except Nat β} {sig : Str}
    {elems : List Value} (hbody : ∀ v ∈ elems, ∀ data, Reads (body data) v (step data v))
    (data : β) :
    Reads (extractArray body data) (.array sig elems)
      ((elems.foldlM step data).mapError (· + 1)) := by
  have hloop := whileValid_run hbody le_rfl data
  -- the loop ends with the elements or with the exception of one
  cases hfold : elems.foldlM step data with
  | ok data' =>
    rw [hfold] at hloop
    intro vs rest
    rw [extractArray_run, Act.run_bind_ok (hloop _)]
    rfl
  | error n =>
    rw [hfold] at hloop
    intro vs rest
    obtain ⟨hihi, hrun, hlength⟩ := hloop ((.array sig elems :: vs) :: rest)
    refine ⟨hihi, ?_, ?_⟩
    · rw [extractArray_run, Act.run_bind_error hrun]
    · show hihi.iters.length = rest.length + 1 + (n + 1)
      rw [hlength, List.length_cons]
      omega

theorem extractArray_reads_other (body : β → Decode β) (data : β) {v : Value}
    (h : v.type ≠ .ARRAY) : Reads (extractArray body data) v (.error 0) := by
  intro vs rest
  simp [extractArray, Act.run_bind, Hihi.getType, Hihi.ahead, h]

theorem extractArray_throwsAtEnd (body : β → Decode β) (data : β) :
    ThrowsAtEnd (extractArray body data) := by
  intro rest
  simp [extractArray, Act.run_bind, Hihi.getType, Hihi.ahead]

/-! ## Their elements -/

/-- What `extractEntry` makes of a value: the exception of an escape leaves the entry
entered. -/
def entryStep (data : StrMap) : Value → Except Nat StrMap
  | .dictEntry (.string k) (.string v) =>
    match unescape k, unescape v with
    | some k, some v => .ok (data.set k v)
    | _, _ => .error 1
  | _ => .error 0

/-- A dictionary entry is entered, key and value are read, and the map has them afterwards. -/
theorem extractEntry_reads (data : StrMap) (v : Value) :
    Reads (extractEntry data) v (entryStep data v) := by
  by_cases hsig : v.sig = str "{ss}"
  · obtain ⟨k, w, rfl⟩ := Value.sig_eq_ss.mp hsig
    have hkey := extract_string_reads (.string k)
    have hvalue := extract_string_reads (.string w)
    have hopen : ∀ vs rest, (extractEntry data).run ⟨(.dictEntry (.string k) (.string w) :: vs) ::
        rest⟩ = (do
          let k : Str ← extract
          let v : Str ← extract
          Act.modify Hihi.closeRecurse
          pure (data.set k v) : Decode StrMap).run
            ⟨[.string k, .string w] :: (.dictEntry (.string k) (.string w) :: vs) :: rest⟩ := by
      intro vs rest
      simp [extractEntry, Act.run_bind, Hihi.getSignature, Hihi.ahead, hsig, Hihi.openRecurse,
        Hihi.children]
    -- the key is read first; an error of either leaves the entry open
    cases hk : unescape k with
    | none =>
      simp only [stringValue, hk, Option.elim] at hkey
      simp only [entryStep, hk]
      intro vs rest
      obtain ⟨hihi, hrun, hlength⟩ := hkey [.string w]
        ((.dictEntry (.string k) (.string w) :: vs) :: rest)
      exact ⟨hihi, by rw [hopen, Act.run_bind_error hrun], by simpa using hlength⟩
    | some k' =>
      simp only [stringValue, hk, Option.elim] at hkey
      cases hw : unescape w with
      | none =>
        simp only [stringValue, hw, Option.elim] at hvalue
        simp only [entryStep, hk, hw]
        intro vs rest
        obtain ⟨hihi, hrun, hlength⟩ := hvalue []
          ((.dictEntry (.string k) (.string w) :: vs) :: rest)
        refine ⟨hihi, ?_, by simpa using hlength⟩
        rw [hopen, Act.run_bind_ok (hkey _ _), Act.run_bind_error hrun]
      | some w' =>
        simp only [stringValue, hw, Option.elim] at hvalue
        simp only [entryStep, hk, hw]
        intro vs rest
        rw [hopen, Act.run_bind_ok (hkey _ _), Act.run_bind_ok (hvalue _ _)]
        rfl
  · have hstep : entryStep data v = .error 0 := by
      unfold entryStep
      split
      · next k w => exact absurd (Value.sig_eq_ss.mpr ⟨k, w, rfl⟩) hsig
      · rfl
    rw [hstep]
    intro vs rest
    simp [extractEntry, Act.run_bind, Hihi.getSignature, Hihi.ahead, hsig]

/-- An element of the right signature is read and appended. -/
theorem extractElement_reads [TypeInfo α] [Extract α] {v : Value} {r : Except Nat α}
    (hsig : v.sig = TypeInfo.signature α) (hread : Reads (extract : Decode α) v r)
    (data : List α) : Reads (extractElement data) v (r.map (data ++ [·])) := by
  have hcheck : ∀ vs rest, (extractElement data : Decode (List α)).run ⟨(v :: vs) :: rest⟩ =
      (do
        let tmp : α ← extract
        pure (data ++ [tmp])).run ⟨(v :: vs) :: rest⟩ := by
    intro vs rest
    simp [extractElement, Act.run_bind, Hihi.getSignature, Hihi.ahead, hsig]
  cases r with
  | ok a =>
    intro vs rest
    rw [hcheck, Act.run_bind_ok (hread vs rest)]
    rfl
  | error n =>
    intro vs rest
    obtain ⟨hihi, hrun, hlength⟩ := hread vs rest
    exact ⟨hihi, by rw [hcheck, Act.run_bind_error hrun], hlength⟩

theorem extractElement_reads_other [TypeInfo α] [Extract α] {v : Value}
    (hsig : v.sig ≠ TypeInfo.signature α) (data : List α) :
    Reads (extractElement data) v (.error 0) := by
  intro vs rest
  simp [extractElement, Act.run_bind, Hihi.getSignature, Hihi.ahead, hsig]

end Snapper.DBus
