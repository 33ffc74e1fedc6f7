import Snapper.Base.Bytes

/-!
# D-Bus values

The arguments of a D-Bus message as `libdbus` presents them to an iterator: a value has a
type, a type signature and, if it is a container, values of its own.
-/

namespace Snapper.DBus

/-- `DBUS_TYPE_…`, what `dbus_message_iter_get_arg_type` returns -/
inductive ArgType where
  | INVALID | BYTE | BOOLEAN | INT16 | UINT16 | INT32 | UINT32 | INT64 | UINT64 | DOUBLE
  | STRING | OBJECT_PATH | SIGNATURE | UNIX_FD | ARRAY | VARIANT | STRUCT | DICT_ENTRY
  deriving DecidableEq, Repr

/-- A value.  An array knows the signature of its elements, also when it is empty. -/
inductive Value where
  | byte (n : UInt8)
  | boolean (b : Bool)
  | int16 (n : Int16)
  | uint16 (n : UInt16)
  | int32 (n : Int32)
  | uint32 (n : UInt32)
  | int64 (n : Int64)
  | uint64 (n : UInt64)
  | double (bits : UInt64)
  | string (s : Str)
  | objectPath (s : Str)
  | signature (s : Str)
  | unixFd (n : UInt32)
  | array (sig : Str) (elems : List Value)
  | variant (v : Value)
  | struct (fields : List Value)
  | dictEntry (key value : Value)

namespace Value

def type : Value → ArgType
  | byte _ => .BYTE
  | boolean _ => .BOOLEAN
  | int16 _ => .INT16
  | uint16 _ => .UINT16
  | int32 _ => .INT32
  | uint32 _ => .UINT32
  | int64 _ => .INT64
  | uint64 _ => .UINT64
  | double _ => .DOUBLE
  | string _ => .STRING
  | objectPath _ => .OBJECT_PATH
  | signature _ => .SIGNATURE
  | unixFd _ => .UNIX_FD
  | array _ _ => .ARRAY
  | variant _ => .VARIANT
  | struct _ => .STRUCT
  | dictEntry _ _ => .DICT_ENTRY

mutual

/-- The type signature of a value, what `dbus_message_iter_get_signature` returns. -/
def sig : Value → Str
  | byte _ => str "y"
  | boolean _ => str "b"
  | int16 _ => str "n"
  | uint16 _ => str "q"
  | int32 _ => str "i"
  | uint32 _ => str "u"
  | int64 _ => str "x"
  | uint64 _ => str "t"
  | double _ => str "d"
  | string _ => str "s"
  | objectPath _ => str "o"
  | signature _ => str "g"
  | unixFd _ => str "h"
  | array sig _ => str "a" ++ sig
  | variant _ => str "v"
  | struct fields => str "(" ++ (sigs fields ++ str ")")
  | dictEntry key value => str "\x7b" ++ (sig key ++ (sig value ++ str "\x7d"))

/-- The signatures of values in a row. -/
def sigs : List Value → Str
  | [] => []
  | v :: vs => sig v ++ sigs vs

end

mutual

/-- Every array has elements of the signature it was opened with, as `libdbus` demands. -/
def WellFormed : Value → Prop
  | array sig elems => (∀ v ∈ elems, v.sig = sig) ∧ AllWellFormed elems
  | variant v => WellFormed v
  | struct fields => AllWellFormed fields
  | dictEntry key value => WellFormed key ∧ WellFormed value
  | _ => True

/-- `WellFormed` of values in a row. -/
def AllWellFormed : List Value → Prop
  | [] => True
  | v :: vs => WellFormed v ∧ AllWellFormed vs

end

theorem allWellFormed_iff {vs : List Value} : AllWellFormed vs ↔ ∀ v ∈ vs, v.WellFormed := by
  induction vs with
  | nil => simp [AllWellFormed]
  | cons v vs ih => simp [AllWellFormed, ih]

/-! ## Reading a signature back -/

/-- The signature of a value is of a string when it starts as that of a string does. -/
private theorem string_of_sig_append {v : Value} {rest rest' : Str}
    (h : v.sig ++ rest = str "s" ++ rest') : ∃ s, v = .string s ∧ rest = rest' := by
  have hhead := congrArg List.head? h
  cases v with
  | string s => exact ⟨s, rfl, by simpa [sig] using h⟩
  | _ => simp [sig, str] at hhead

/-- `"{ss}"` is the signature of dict entries from strings to strings only. -/
theorem sig_eq_ss {v : Value} :
    v.sig = str "{ss}" ↔ ∃ k w, v = .dictEntry (.string k) (.string w) := by
  constructor
  · intro h
    have hhead := congrArg List.head? h
    cases v with
    | dictEntry key value =>
      -- the key's signature comes first, then that of the value
      have hkey : key.sig ++ (value.sig ++ str "\x7d") = str "s" ++ (str "s" ++ str "\x7d") := by
        simpa [sig, str] using h
      obtain ⟨k, rfl, hvalue⟩ := string_of_sig_append hkey
      obtain ⟨w, rfl, _⟩ := string_of_sig_append hvalue
      exact ⟨k, w, rfl⟩
    | _ => simp [sig, str] at hhead
  · rintro ⟨k, w, rfl⟩
    simp [sig, str]

/-- The signature u is that of 32 bit numbers only. -/
theorem sig_eq_u {v : Value} : v.sig = str "u" ↔ ∃ n, v = .uint32 n := by
  constructor
  · intro h
    have hhead := congrArg List.head? h
    cases v with
    | uint32 n => exact ⟨n, rfl⟩
    | _ => simp [sig, str] at hhead
  · rintro ⟨n, rfl⟩
    rfl

end Value

end Snapper.DBus
