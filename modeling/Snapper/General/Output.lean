import Mathlib.Data.List.TakeDrop

/-!
# Buffered output

A stream collects what is put into it and hands it over to its file when it likes, the rest when it
is closed.  The file stops accepting data at some point; what it has then is the first part of what
was put, whatever the buffer did.

## Main results

- `close_puts`: the file after putting pieces and closing
-/

namespace Snapper.General

universe u

variable {α : Type u}

/-- A file with the room that is left for it -/
structure Sink (α : Type u) where
  content : List α
  room : Nat

/-- Write to the file; what does not fit is lost, and reported. -/
def Sink.write (data : List α) (file : Sink α) : Bool × Sink α :=
  (data.length ≤ file.room,
    { content := file.content ++ data.take file.room, room := file.room - data.length })

/-- A file opened for writing -/
structure Output (α : Type u) where
  file : Sink α
  buffer : List α

namespace Output

/-- Put data into the stream, which hands over the first `n` elements of its buffer. -/
def put (n : Nat) (data : List α) (s : Output α) : Bool × Output α :=
  let buffer := s.buffer ++ data
  let (ok, file) := s.file.write (buffer.take n)
  (ok, { file := file, buffer := buffer.drop n })

/-- Hand over the rest. -/
def close (s : Output α) : Bool × Sink α := s.file.write s.buffer

/-- Of `data` the stream has handed over some part, and the file has what fitted into `room`. -/
structure Wrote (content : List α) (room : Nat) (data : List α) (s : Output α) : Prop where
  intro ::
  split : ∃ handed, data = handed ++ s.buffer ∧
    s.file.content = content ++ handed.take room ∧ s.file.room = room - handed.length

variable {content data : List α} {room : Nat} {s : Output α}

theorem Wrote.start (content : List α) (room : Nat) : Wrote content room [] ⟨⟨content, room⟩, []⟩ :=
  ⟨[], rfl, by simp, by simp⟩

theorem take_append_room (handed more : List α) (room : Nat) :
    handed.take room ++ more.take (room - handed.length) = (handed ++ more).take room :=
  List.take_append.symm

/-- What a stream has written is the beginning of what was put, up to the room that there is. -/
theorem Wrote.put (h : Wrote content room data s) (n : Nat) (more : List α) :
    Wrote content room (data ++ more) (s.put n more).2 := by
  obtain ⟨handed, hdata, hcontent, hroom⟩ := h
  refine ⟨handed ++ (s.buffer ++ more).take n, ?_, ?_, ?_⟩
  · show data ++ more = _ ++ (s.buffer ++ more).drop n
    rw [List.append_assoc, List.take_append_drop, hdata, List.append_assoc]
  · show s.file.content ++ ((s.buffer ++ more).take n).take s.file.room = _
    rw [hcontent, hroom, List.append_assoc, take_append_room]
  · show s.file.room - ((s.buffer ++ more).take n).length = _
    rw [hroom, List.length_append, Nat.sub_sub]

theorem Wrote.close (h : Wrote content room data s) :
    s.close.2.content = content ++ data.take room := by
  obtain ⟨handed, hdata, hcontent, hroom⟩ := h
  show s.file.content ++ s.buffer.take s.file.room = _
  rw [hcontent, hroom, List.append_assoc, take_append_room, hdata]

/-- Put pieces one after the other; after the piece `i` the first `flushes i` elements of the
buffer are handed over. -/
def puts (flushes : Nat → Nat) : Nat → List (List α) → Output α → Output α
  | _, [], s => s
  | i, data :: pieces, s => puts flushes (i + 1) pieces (s.put (flushes i) data).2

/-- The same after several pieces, with whatever flushes in between. -/
theorem Wrote.puts (h : Wrote content room data s) (flushes : Nat → Nat) (i : Nat)
    (pieces : List (List α)) :
    Wrote content room (data ++ pieces.flatten) (s.puts flushes i pieces) := by
  induction pieces generalizing i data s with
  | nil => simpa [Output.puts] using h
  | cons piece pieces ih =>
    rw [List.flatten_cons, ← List.append_assoc]
    exact ih (h.put (flushes i) piece) (i + 1)

/-- The file has the first part of what was put into the stream. -/
theorem close_puts (flushes : Nat → Nat) (pieces : List (List α)) (room : Nat) :
    ((Output.puts flushes 0 pieces ⟨⟨[], room⟩, []⟩).close).2.content =
      pieces.flatten.take room := by
  have hwrote := (Wrote.start [] room).puts flushes 0 pieces
  exact hwrote.close

end Output

end Snapper.General
