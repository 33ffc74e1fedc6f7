import Snapper.Dbus.Message
import Snapper.General.Act

/-!
# Reading the arguments of a message

`Hihi` walks through a message with a stack of iterators: one for the message and one for
every container that was entered.  An iterator is the list of the values still ahead.
-/

namespace Snapper.DBus

open General

/-- What the operators throw. -/
inductive Exception where
  | MarshallingException
  | FatalException
  deriving DecidableEq, Repr

/-- `vector<DBusMessageIter*> iters`, the last one first -/
structure Hihi where
  iters : List (List Value)

abbrev Decode := Act Hihi Exception

namespace Hihi

/-- The values ahead of `top()`. -/
def ahead (hihi : Hihi) : List Value := hihi.iters.headD []

/-- `get_type` -/
def getType (hihi : Hihi) : ArgType :=
  match hihi.ahead with
  | [] => .INVALID
  | v :: _ => v.type

/-- `get_signature` -/
def getSignature (hihi : Hihi) : Str :=
  match hihi.ahead with
  | [] => []
  | v :: _ => v.sig

/-- `dbus_message_iter_next(top())` -/
def next (hihi : Hihi) : Hihi :=
  match hihi.iters with
  | [] => hihi
  | top :: rest => ⟨top.tail :: rest⟩

/-- The values in the container at the iterator. -/
def children (hihi : Hihi) : List Value :=
  match hihi.ahead with
  | .array _ elems :: _ => elems
  | .struct fields :: _ => fields
  | .dictEntry key value :: _ => [key, value]
  | .variant v :: _ => [v]
  | _ => []

/-- `Hihi::open_recurse` -/
def openRecurse (hihi : Hihi) : Hihi := ⟨hihi.children :: hihi.iters⟩

/-- `Hihi::close_recurse`: the container is passed as a whole. -/
def closeRecurse (hihi : Hihi) : Hihi := next ⟨hihi.iters.tail⟩

end Hihi

/-! ## Escapes -/

/-- `'\\'` -/
def backslash : UInt8 := 92

/-- `'x'` -/
def letterX : UInt8 := 120

def isxdigit (c : UInt8) : Bool :=
  (48 ≤ c ∧ c ≤ 57) ∨ (97 ≤ c ∧ c ≤ 102) ∨ (65 ≤ c ∧ c ≤ 70)

/-- The value of a hexadecimal digit. -/
def hexValue (c : UInt8) : UInt8 :=
  if c ≤ 57 then c - 48 else if c ≤ 70 then c - 55 else c - 87

/-- `Hihi::unescape`; `none` for the exception -/
def unescape : Str → Option Str
  | [] => some []
  | c :: cs =>
    if c = backslash then
      match cs with
      | [] => none
      | c' :: cs =>
        if c' = backslash then (unescape cs).map (backslash :: ·)
        else if c' = letterX then
          match cs with
          | [] => none
          | d :: cs =>
            if isxdigit d then
              -- a second digit belongs to the number if there is one
              match cs with
              | [] => some [hexValue d]
              | d' :: cs =>
                if isxdigit d' then (unescape cs).map ((16 * hexValue d + hexValue d') :: ·)
                else (unescape (d' :: cs)).map (hexValue d :: ·)
            else none
        else none
    else (unescape cs).map (c :: ·)

theorem unescape_backslash (s : Str) :
    unescape (backslash :: backslash :: s) = (unescape s).map (backslash :: ·) := by
  rw [unescape.eq_def]
  simp

theorem unescape_hex {d d' : UInt8} (hd : isxdigit d = true) (hd' : isxdigit d' = true) (s : Str) :
    unescape (backslash :: letterX :: d :: d' :: s) =
      (unescape s).map ((16 * hexValue d + hexValue d') :: ·) := by
  have hx : letterX ≠ backslash := by decide
  rw [unescape.eq_def]
  simp [hx, hd, hd']

theorem unescape_cons {c : UInt8} (h : c ≠ backslash) (s : Str) :
    unescape (c :: s) = (unescape s).map (c :: ·) := by
  rw [unescape.eq_def]
  simp [h]

/-! ## The operators -/

/-- The operators for the basic types: check the type, get the value and go to the next.
`get` is `none` for the values of other types. -/
def getBasic {α : Type} (get : Value → Option α) : Decode α := do
  match (← Act.read Hihi.ahead).head? >>= get with
  | none => throw .MarshallingException
  | some a => do
    Act.modify Hihi.next
    pure a

/-- `TypeInfo<Type>::signature` -/
class TypeInfo (α : Type) where
  signature : Str

/-- `Hihi& operator>>(Hihi&, Type&)` -/
class Extract (α : Type) where
  extract : Decode α

export Extract (extract)

instance : Extract Bool where
  extract := getBasic fun
    | .boolean b => some b
    | _ => none

instance : Extract UInt16 where
  extract := getBasic fun
    | .uint16 n => some n
    | _ => none

instance : Extract UInt32 where
  extract := getBasic fun
    | .uint32 n => some n
    | _ => none

/-- `time_t` -/
instance : Extract Int64 where
  extract := getBasic fun
    | .int64 n => some n
    | _ => none

/-- The bytes of a string as they are in the message. -/
def getString : Decode Str := getBasic fun
  | .string s => some s
  | _ => none

instance : Extract Str where
  extract := do
    match unescape (← getString) with
    | none => throw .MarshallingException
    | some s => pure s

/-- `while (hihi.get_type() != DBUS_TYPE_INVALID)`, with fuel -/
def whileValid {β : Type} (body : β → Decode β) : Nat → β → Decode β
  | 0, data => pure data
  | fuel + 1, data => do
    if (← Act.read Hihi.getType) = .INVALID then pure data
    else whileValid body fuel (← body data)

/-- The operators for containers of elements: check for an array, enter it, read all
elements and leave it. -/
def extractArray {β : Type} (body : β → Decode β) (data : β) : Decode β := do
  if (← Act.read Hihi.getType) ≠ .ARRAY then throw .MarshallingException
  else do
    Act.modify Hihi.openRecurse
    -- every iteration takes an element, so there are no more than elements
    let data ← whileValid body (← Act.read Hihi.ahead).length data
    Act.modify Hihi.closeRecurse
    pure data

/-- An entry of a `map<string, string>`. -/
def extractEntry (data : StrMap) : Decode StrMap := do
  if (← Act.read Hihi.getSignature) ≠ str "{ss}" then throw .MarshallingException
  else do
    Act.modify Hihi.openRecurse
    let k : Str ← extract
    let v : Str ← extract
    Act.modify Hihi.closeRecurse
    pure (data.set k v)

instance : Extract StrMap where
  extract := extractArray extractEntry .empty

/-- An element of a `list<Type>`. -/
def extractElement {α : Type} [TypeInfo α] [Extract α] (data : List α) : Decode (List α) := do
  if (← Act.read Hihi.getSignature) ≠ TypeInfo.signature α then throw .MarshallingException
  else do
    let tmp : α ← extract
    pure (data ++ [tmp])

instance {α : Type} [TypeInfo α] [Extract α] : Extract (List α) where
  extract := extractArray extractElement []

instance : TypeInfo UInt32 := ⟨str "u"⟩

instance : TypeInfo Str := ⟨str "s"⟩

end Snapper.DBus
