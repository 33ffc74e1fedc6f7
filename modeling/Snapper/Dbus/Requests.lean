import Snapper.Dbus.Reading

/-!
# Decoding the requests

`Client::dispatch` hands a message to the handler of its method, which decodes the arguments
before anything else.  Where `~Hihi` finds iterators of containers still on its stack, the
assertion ends the daemon.  That happens exactly when decoding comes to an array with an
element that its operator does not take.
-/

namespace Snapper.DBus

open General

/-! ## Arguments -/

/-- The types of the arguments. -/
inductive Arg where
  | string | uint32 | time | bool | strMap | uint32s
  deriving DecidableEq, Repr

abbrev Arg.Val : Arg → Type
  | .string => Str
  | .uint32 => UInt32
  | .time => Int64
  | .bool => Bool
  | .strMap => StrMap
  | .uint32s => List UInt32

/-- `hihi >> data` -/
def Arg.extract : (arg : Arg) → Decode arg.Val
  | .string => (DBus.extract : Decode Str)
  | .uint32 => (DBus.extract : Decode UInt32)
  | .time => (DBus.extract : Decode Int64)
  | .bool => (DBus.extract : Decode Bool)
  | .strMap => (DBus.extract : Decode StrMap)
  | .uint32s => (DBus.extract : Decode (List UInt32))

/-- The values of arguments in a row. -/
abbrev Args : List Arg → Type
  | [] => Unit
  | arg :: args => arg.Val × Args args

/-- `hihi >> data1 >> data2 >> …` -/
def extractArgs : (args : List Arg) → Decode (Args args)
  | [] => pure ()
  | arg :: args => do
    let val ← arg.extract
    let vals ← extractArgs args
    pure (val, vals)

/-! ## Methods -/

/-- The methods that `Client::dispatch` knows, in the order of its checks. -/
inductive Method where
  | ListConfigs | CreateConfig | GetConfig | DeleteConfig | LockConfig | UnlockConfig
  | ListSnapshots | ListSnapshotsAtTime | GetSnapshot | SetSnapshot
  | CreateSingleSnapshot | CreatePreSnapshot | CreatePostSnapshot | DeleteSnapshots
  | MountSnapshot | UmountSnapshot | GetMountPoint
  | CreateComparison | DeleteComparison | GetFiles | Debug
  deriving DecidableEq, Repr

/-- What the handler of the method reads; `none` if it makes no `Hihi`. -/
def Method.args : Method → Option (List Arg)
  | .ListConfigs => none
  | .CreateConfig => some [.string, .string, .string, .string]
  | .GetConfig => some [.string]
  | .DeleteConfig => some [.string]
  | .LockConfig => some [.string]
  | .UnlockConfig => some [.string]
  | .ListSnapshots => some [.string]
  | .ListSnapshotsAtTime => some [.string, .time, .time]
  | .GetSnapshot => some [.string, .uint32]
  | .SetSnapshot => some [.string, .uint32, .string, .string, .strMap]
  | .CreateSingleSnapshot => some [.string, .string, .string, .strMap]
  | .CreatePreSnapshot => some [.string, .string, .string, .strMap]
  | .CreatePostSnapshot => some [.string, .uint32, .string, .string, .strMap]
  | .DeleteSnapshots => some [.string, .uint32s]
  | .MountSnapshot => some [.string, .uint32, .bool]
  | .UmountSnapshot => some [.string, .uint32, .bool]
  | .GetMountPoint => some [.string, .uint32]
  | .CreateComparison => some [.string, .uint32, .uint32]
  | .DeleteComparison => some [.string, .uint32, .uint32]
  | .GetFiles => some [.string, .uint32, .uint32]
  | .Debug => none

/-- The error of the reply that `Client::dispatch` sends for an exception. -/
def Exception.error : Exception → Str
  | .MarshallingException => str "error.dbus.marshalling"
  | .FatalException => str "error.dbus.fatal"

/-- How decoding ends. -/
inductive Outcome where
  /-- The handler goes on with all arguments. -/
  | delivered (args : List Arg) (vals : Args args)
  /-- An error reply is sent. -/
  | error (name : Str)
  /-- The assertion of `~Hihi` fails. -/
  | aborted

/-- The decoding in the handler of the method, with the life of its `Hihi`. -/
def Method.decode (method : Method) (msg : List Value) : Outcome :=
  match method.args with
  | none => .delivered [] ()
  | some args =>
    -- the constructor throws without arguments, and then there is nothing to destroy
    if msg.isEmpty then .error Exception.FatalException.error
    else
      match (extractArgs args).run ⟨[msg]⟩ with
      | (result, hihi) =>
        if ¬ hihi.iters.tail.isEmpty then .aborted
        else
          match result with
          | .ok vals => .delivered args vals
          | .error e => .error e.error

/-! ## What decoding trips over -/

/-- The element of an array is one that the operator takes. -/
def Arg.TakesElement : Arg → Value → Prop
  | .strMap, .dictEntry (.string k) (.string v) => (unescape k).isSome ∧ (unescape v).isSome
  | .uint32s, .uint32 _ => True
  | _, _ => False

/-- The operator takes the value. -/
def Arg.Fits : Arg → Value → Prop
  | .string, .string s => (unescape s).isSome
  | .uint32, .uint32 _ => True
  | .time, .int64 _ => True
  | .bool, .boolean _ => True
  | .strMap, .array _ elems => ∀ v ∈ elems, Arg.strMap.TakesElement v
  | .uint32s, .array _ elems => ∀ v ∈ elems, Arg.uint32s.TakesElement v
  | _, _ => False

/-- The operator enters the value, an array, but does not take one of its elements. -/
def Arg.Trips : Arg → Value → Prop
  | .strMap, .array _ elems => ∃ v ∈ elems, ¬ Arg.strMap.TakesElement v
  | .uint32s, .array _ elems => ∃ v ∈ elems, ¬ Arg.uint32s.TakesElement v
  | _, _ => False

/-- Decoding comes to a value that it trips over. -/
def Trips : List Arg → List Value → Prop
  | arg :: args, v :: vs => arg.Trips v ∨ (arg.Fits v ∧ Trips args vs)
  | _, _ => False

/-- A loop whose steps all succeed does so. -/
private theorem foldlM_ok {β : Type} {step : β → Value → Except Nat β} {vs : List Value}
    (h : ∀ v ∈ vs, ∀ data, ∃ data', step data v = .ok data') (data : β) :
    ∃ data', vs.foldlM step data = .ok data' := by
  induction vs generalizing data with
  | nil => exact ⟨data, rfl⟩
  | cons v vs ih =>
    obtain ⟨data', hstep⟩ := h v (List.mem_cons_self ..) data
    obtain ⟨last, hlast⟩ := ih (fun w hw => h w (List.mem_cons_of_mem v hw)) data'
    exact ⟨last, by rw [List.foldlM_cons, hstep]; exact hlast⟩

/-- A loop with one step that fails, whatever came before, fails. -/
private theorem foldlM_error {β : Type} {step : β → Value → Except Nat β} {vs : List Value}
    {v : Value} (hv : v ∈ vs) (h : ∀ data, ∃ n, step data v = .error n) (data : β) :
    ∃ n, vs.foldlM step data = .error n := by
  induction vs generalizing data with
  | nil => cases hv
  | cons w vs ih =>
    rw [List.foldlM_cons]
    cases hstep : step data w with
    | error n => exact ⟨n, rfl⟩
    | ok data' =>
      obtain rfl | hv := List.mem_cons.mp hv
      · obtain ⟨n, hn⟩ := h data
        rw [hstep] at hn
        cases hn
      · exact ih hv data'

/-- The three things that can happen at a value. -/
structure Arg.Read (arg : Arg) (v : Value) : Prop where
  fits : arg.Fits v → ∃ val, Reads arg.extract v (.ok val)
  trips : arg.Trips v → ∃ n, Reads arg.extract v (.error (n + 1))
  other : ¬ arg.Fits v → ¬ arg.Trips v → Reads arg.extract v (.error 0)

/-- A basic type is read or not; nothing is entered. -/
private theorem read_basic {arg : Arg} {v : Value} {r : Option arg.Val}
    (hreads : Reads arg.extract v (r.elim (.error 0) .ok)) (hfits : arg.Fits v → r.isSome)
    (hother : ¬ arg.Fits v → r = none) (htrips : ¬ arg.Trips v) : arg.Read v where
  fits h := by
    obtain ⟨val, rfl⟩ := Option.isSome_iff_exists.mp (hfits h)
    exact ⟨val, hreads⟩
  trips h := absurd h htrips
  other h _ := by
    rw [hother h] at hreads
    exact hreads

/-- Of an array all elements are read, or the operator throws inside. -/
private theorem read_array {arg : Arg} {body : arg.Val → Decode arg.Val} {data : arg.Val}
    {step : arg.Val → Value → Except Nat arg.Val} {sig : Str} {elems : List Value}
    (hextract : arg.extract = extractArray body data)
    (hbody : ∀ v data, Reads (body data) v (step data v))
    (htakes : ∀ v, arg.TakesElement v → ∀ data, ∃ data', step data v = .ok data')
    (hrefuses : ∀ v, ¬ arg.TakesElement v → ∀ data, ∃ n, step data v = .error n)
    (hfits : arg.Fits (.array sig elems) ↔ ∀ v ∈ elems, arg.TakesElement v)
    (htrips : arg.Trips (.array sig elems) ↔ ∃ v ∈ elems, ¬ arg.TakesElement v) :
    arg.Read (.array sig elems) := by
  have hreads : Reads arg.extract (.array sig elems)
      ((elems.foldlM step data).mapError (· + 1)) := by
    rw [hextract]
    exact extractArray_reads (fun v _ data => hbody v data) data
  refine ⟨fun h => ?_, fun h => ?_, fun h h' => ?_⟩
  · obtain ⟨data', hfold⟩ := foldlM_ok (fun v hv => htakes v (hfits.mp h v hv)) data
    rw [hfold] at hreads
    exact ⟨data', hreads⟩
  · obtain ⟨v, hv, hnot⟩ := htrips.mp h
    obtain ⟨n, hfold⟩ := foldlM_error hv (hrefuses v hnot) data
    rw [hfold] at hreads
    exact ⟨n, hreads⟩
  · -- an array that does not fit has an element that is not taken
    rw [hfits] at h
    push Not at h
    exact absurd (htrips.mpr h) h'

/-- A struct of two strings is taken, whatever the map has already. -/
private theorem entryStep_takes {v : Value} (h : Arg.strMap.TakesElement v) (data : StrMap) :
    ∃ data', entryStep data v = .ok data' := by
  unfold Arg.TakesElement at h
  split at h
  · next k w _ =>
    obtain ⟨k', hk⟩ := Option.isSome_iff_exists.mp h.1
    obtain ⟨w', hw⟩ := Option.isSome_iff_exists.mp h.2
    exact ⟨data.set k' w', by simp [entryStep, hk, hw]⟩
  · next heq => cases heq
  · exact h.elim

/-- Any other element of a map throws. -/
private theorem entryStep_refuses {v : Value} (h : ¬ Arg.strMap.TakesElement v) (data : StrMap) :
    ∃ n, entryStep data v = .error n := by
  unfold entryStep
  split
  · next k w =>
    split
    · next k' w' hk hw => exact absurd (by simp [Arg.TakesElement, hk, hw]) h
    · exact ⟨1, rfl⟩
  · exact ⟨0, rfl⟩

/-- What `extractElement` makes of a number. -/
private def uint32Step (data : List UInt32) : Value → Except Nat (List UInt32)
  | .uint32 n => .ok (data ++ [n])
  | _ => .error 0

/-- An element of an array of numbers is read as one more number. -/
private theorem extractElement_uint32_reads (v : Value) (data : List UInt32) :
    Reads (extractElement data) v (uint32Step data v) := by
  by_cases hsig : v.sig = str "u"
  · obtain ⟨n, rfl⟩ := Value.sig_eq_u.mp hsig
    exact extractElement_reads hsig (getBasic_reads _ (.uint32 n)) data
  · have hstep : uint32Step data v = .error 0 := by
      cases v with
      | uint32 n => exact absurd rfl hsig
      | _ => rfl
    rw [hstep]
    exact extractElement_reads_other hsig data

/-- How an operator reads a value for each kind of argument: it takes what fits, throws inside of
what it has entered, or throws before it enters anything. -/
theorem Arg.read (arg : Arg) (v : Value) : arg.Read v := by
  cases arg with
  | string =>
    cases v with
    | string s =>
      refine read_basic (r := unescape s) (extract_string_reads (.string s)) id ?_ id
      exact fun h => Option.not_isSome_iff_eq_none.mp h
    | _ => exact read_basic (r := none) (extract_string_reads _) False.elim (fun _ => rfl) id
  | uint32 =>
    cases v with
    | uint32 n => exact read_basic (getBasic_reads _ _) (fun _ => rfl) (absurd trivial) id
    | _ => exact read_basic (getBasic_reads _ _) False.elim (fun _ => rfl) id
  | time =>
    cases v with
    | int64 n => exact read_basic (getBasic_reads _ _) (fun _ => rfl) (absurd trivial) id
    | _ => exact read_basic (getBasic_reads _ _) False.elim (fun _ => rfl) id
  | bool =>
    cases v with
    | boolean b => exact read_basic (getBasic_reads _ _) (fun _ => rfl) (absurd trivial) id
    | _ => exact read_basic (getBasic_reads _ _) False.elim (fun _ => rfl) id
  -- every array is opened, and its elements are checked one by one
  | strMap =>
    cases v with
    | array sig elems =>
      exact read_array rfl (fun v data => extractEntry_reads data v) (fun _ => entryStep_takes)
        (fun _ => entryStep_refuses) Iff.rfl Iff.rfl
    | _ =>
      exact read_basic (r := none) (extractArray_reads_other _ _ nofun) False.elim (fun _ => rfl) id
  | uint32s =>
    cases v with
    | array sig elems =>
      refine read_array rfl extractElement_uint32_reads ?_ ?_ Iff.rfl Iff.rfl
      · intro v h data
        cases v with
        | uint32 n => exact ⟨_, rfl⟩
        | _ => exact h.elim
      · intro v h data
        cases v with
        | uint32 n => exact absurd trivial h
        | _ => exact ⟨0, rfl⟩
    | _ =>
      exact read_basic (r := none) (extractArray_reads_other _ _ nofun) False.elim (fun _ => rfl) id

theorem Arg.throwsAtEnd (arg : Arg) : ThrowsAtEnd arg.extract := by
  cases arg with
  | string => exact extract_string_throwsAtEnd
  | strMap => exact extractArray_throwsAtEnd _ _
  | uint32s => exact extractArray_throwsAtEnd _ _
  | _ => exact getBasic_throwsAtEnd _

/-- Decoding that does not trip ends with one iterator, one that trips with more. -/
theorem extractArgs_run (args : List Arg) (vs : List Value) (rest : List (List Value)) :
    ∃ result hihi, (extractArgs args).run ⟨vs :: rest⟩ = (result, hihi) ∧
      (Trips args vs → rest.length + 1 < hihi.iters.length) ∧
      (¬ Trips args vs → hihi.iters.length = rest.length + 1) := by
  -- over the arguments that are expected, with the values that are left
  induction args generalizing vs with
  | nil => exact ⟨_, _, rfl, False.elim, fun _ => rfl⟩
  | cons arg args ih =>
    cases vs with
    | nil =>
      -- the message is at its end
      exact ⟨_, _, Act.run_bind_error (arg.throwsAtEnd rest), False.elim, fun _ => rfl⟩
    | cons v vs =>
      obtain ⟨hfits, htrips, hother⟩ := arg.read v
      by_cases htrip : arg.Trips v
      -- the operator opens a container and throws inside it: its iterator stays
      · obtain ⟨n, hread⟩ := htrips htrip
        obtain ⟨hihi, hrun, hlength⟩ := hread vs rest
        refine ⟨_, hihi, Act.run_bind_error hrun, fun _ => by omega, fun h => ?_⟩
        exact absurd (Or.inl htrip) h
      · by_cases hfit : arg.Fits v
        · -- the rest decides
          obtain ⟨val, hread⟩ := hfits hfit
          obtain ⟨result, hihi, hrun, hmore, hone⟩ := ih vs
          have hiff : Trips (arg :: args) (v :: vs) ↔ Trips args vs := by
            simp [Trips, htrip, hfit]
          rw [hiff]
          cases result with
          | ok vals =>
            refine ⟨.ok (val, vals), hihi, ?_, hmore, hone⟩
            rw [extractArgs, Act.run_bind_ok (hread vs rest), Act.run_bind_ok hrun]
            rfl
          | error e =>
            refine ⟨.error e, hihi, ?_, hmore, hone⟩
            rw [extractArgs, Act.run_bind_ok (hread vs rest), Act.run_bind_error hrun]
        -- another type: it throws before it opens anything
        · obtain ⟨hihi, hrun, hlength⟩ := hother hfit htrip vs rest
          refine ⟨_, hihi, Act.run_bind_error hrun, fun h => ?_, fun _ => hlength⟩
          exact (h.elim htrip fun h => hfit h.1).elim

/-- A request is decoded in full or answered with an error reply, and the assertion holds,
exactly when decoding does not trip. -/
theorem decode_safe_iff (method : Method) (msg : List Value) :
    ((∃ vals, method.decode msg = .delivered (method.args.getD []) vals) ∨
        ∃ e : Exception, method.decode msg = .error e.error) ↔
      ∀ args, method.args = some args → ¬ Trips args msg := by
  unfold Method.decode
  cases hargs : method.args with
  | none => exact iff_of_true (Or.inl ⟨(), rfl⟩) nofun
  | some args =>
    simp only [Option.some.injEq, forall_eq', Option.getD_some]
    cases msg with
    | nil =>
      have hno : ¬ Trips args [] := by cases args <;> exact id
      exact iff_of_true (Or.inr ⟨.FatalException, rfl⟩) hno
    | cons v vs =>
      obtain ⟨result, hihi, hrun, hmore, hone⟩ := extractArgs_run args (v :: vs) []
      simp only [List.isEmpty_cons, Bool.false_eq_true, if_false, hrun]
      by_cases htrips : Trips args (v :: vs)
      · have hlength := hmore htrips
        -- an iterator that was opened is left open, and the destructor notices
        have htail : hihi.iters.tail.isEmpty = false := by
          rw [List.isEmpty_eq_false_iff, ← List.length_pos_iff, List.length_tail]
          exact Nat.sub_pos_of_lt hlength
        simp [htail, htrips]
      · have hlength := hone htrips
        have htail : hihi.iters.tail.isEmpty = true := by
          rw [List.isEmpty_iff, ← List.length_eq_zero_iff, List.length_tail, hlength]
          rfl
        simp only [htail, not_true, if_false, htrips, not_false_iff, iff_true]
        cases result with
        | ok vals => exact Or.inl ⟨vals, rfl⟩
        | error e => exact Or.inr ⟨e, rfl⟩

/-- Numbers sent as strings: the exception leaves the array entered. -/
theorem decode_aborts :
    Value.AllWellFormed [.string (str "root"), .array (str "s") [.string (str "1")]] ∧
      Method.DeleteSnapshots.decode
        [.string (str "root"), .array (str "s") [.string (str "1")]] = .aborted := by
  refine ⟨?_, rfl⟩
  simp [Value.AllWellFormed, Value.WellFormed, Value.sig]

end Snapper.DBus
