import Snapper.Base.AsciiFile
import Snapper.Dbus.Hihi

/-!
# Appending the arguments of a message

`Hoho` builds a message with a stack of iterators: one for the message and one for every
container that is open.  An iterator is the list of the values appended so far.
-/

namespace Snapper.DBus

open General

/-- What an iterator appends to. -/
inductive Container where
  | message
  | array (sig : Str)
  | struct
  | dictEntry

/-- The value that a container becomes when it is closed.  A dict entry without a key and a
value is none. -/
def Container.close : Container → List Value → Option Value
  | .message, _ => none
  | .array sig, elems => some (.array sig elems)
  | .struct, fields => some (.struct fields)
  | .dictEntry, [key, value] => some (.dictEntry key value)
  | .dictEntry, _ => none

/-- `vector<DBusMessageIter*> iters`, the last one first -/
structure Hoho where
  iters : List (Container × List Value)

abbrev Encode := Act Hoho Exception

namespace Hoho

/-- `dbus_message_iter_append_basic`, and what closing a container does to the iterator
around it -/
def append (v : Value) (hoho : Hoho) : Hoho :=
  match hoho.iters with
  | [] => hoho
  | (container, vs) :: rest => ⟨(container, vs ++ [v]) :: rest⟩

/-- `dbus_message_iter_open_container` -/
def openContainer (container : Container) (hoho : Hoho) : Hoho :=
  ⟨(container, []) :: hoho.iters⟩

/-- The open container as a value. -/
def closed (hoho : Hoho) : Option Value :=
  match hoho.iters with
  | [] => none
  | (container, vs) :: _ => container.close vs

end Hoho

/-- `open_struct`, `open_array` and `open_dict_entry` -/
def openContainer (container : Container) : Encode PUnit :=
  Act.modify (Hoho.openContainer container)

/-- `close_struct`, `close_array` and `close_dict_entry` -/
def closeContainer : Encode PUnit := do
  match ← Act.read Hoho.closed with
  | none => throw .FatalException
  | some v => Act.modify fun hoho => Hoho.append v ⟨hoho.iters.tail⟩

def appendBasic (v : Value) : Encode PUnit := Act.modify (Hoho.append v)

/-! ## Escapes -/

/-- A digit as `"%x"` prints it. -/
def hexDigit (n : UInt8) : UInt8 := if n < 10 then 48 + n else 87 + n

/-- `Hoho::escape` -/
def escape (s : Str) : Str :=
  s.flatMap fun c =>
    if c = backslash then [backslash, backslash]
    else if 127 < c then [backslash, letterX, hexDigit (c / 16), hexDigit (c % 16)]
    else [c]

/-! ## The operators -/

/-- `Hoho& operator<<(Hoho&, const Type&)` -/
class Put (α : Type) where
  put : α → Encode PUnit

export Put (put)

instance : Put Bool := ⟨fun data => appendBasic (.boolean data)⟩

instance : Put UInt16 := ⟨fun data => appendBasic (.uint16 data)⟩

instance : Put UInt32 := ⟨fun data => appendBasic (.uint32 data)⟩

/-- `time_t` -/
instance : Put Int64 := ⟨fun data => appendBasic (.int64 data)⟩

/-- A string goes through a `const char*`. -/
instance : Put Str := ⟨fun data => appendBasic (.string (cstr (escape data)))⟩

/-- Something put for each element of a list. -/
def putAll {α : Type} (putOne : α → Encode PUnit) : List α → Encode PUnit
  | [] => pure ⟨⟩
  | a :: l => do
    putOne a
    putAll putOne l

/-- The operators for containers of elements. -/
def putArray {α : Type} (sig : Str) (putOne : α → Encode PUnit) (data : List α) :
    Encode PUnit := do
  openContainer (.array sig)
  putAll putOne data
  closeContainer

def putEntry (entry : Str × Str) : Encode PUnit := do
  openContainer .dictEntry
  put entry.1
  put entry.2
  closeContainer

instance : Put StrMap := ⟨fun data => putArray (str "{ss}") putEntry data.entries⟩

instance {α : Type} [TypeInfo α] [Put α] : Put (List α) :=
  ⟨fun data => putArray (TypeInfo.signature α) put data⟩

end Snapper.DBus
