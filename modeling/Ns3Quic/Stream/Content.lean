import Mathlib.Data.List.Basic

/-!
# The content of a stream

A stream carries one sequence of bytes.  What the sender keeps, what the frames
carry and what the receiver hands out are parts of it.
-/

namespace Ns3Quic.Stream

/-- The bytes are those of the content from the offset on. -/
def Agrees (content : Nat → UInt8) (offset : Nat) (bytes : List UInt8) : Prop :=
  ∀ distance byte, bytes[distance]? = some byte → byte = content (offset + distance)

theorem Agrees.drop {content : Nat → UInt8} {offset : Nat} {bytes : List UInt8}
    (agrees : Agrees content offset bytes) (count : Nat) :
    Agrees content (offset + count) (bytes.drop count) := by
  intro distance byte found
  rw [List.getElem?_drop] at found
  rw [agrees _ byte found, Nat.add_assoc]

theorem Agrees.take {content : Nat → UInt8} {offset : Nat} {bytes : List UInt8}
    (agrees : Agrees content offset bytes) (count : Nat) :
    Agrees content offset (bytes.take count) := by
  intro distance byte found
  rw [List.getElem?_take] at found
  split at found
  · exact agrees _ byte found
  · cases found

def slice (content : Nat → UInt8) (offset count : Nat) : List UInt8 :=
  (List.range count).map fun distance => content (offset + distance)

@[simp] theorem length_slice (content : Nat → UInt8) (offset count : Nat) :
    (slice content offset count).length = count := by
  rw [slice, List.length_map, List.length_range]

theorem agrees_slice (content : Nat → UInt8) (offset count : Nat) :
    Agrees content offset (slice content offset count) := by
  intro distance byte found
  rw [slice, List.getElem?_map, Option.map_eq_some_iff] at found
  obtain ⟨index, inRange, rfl⟩ := found
  obtain ⟨short, same⟩ := List.getElem?_eq_some_iff.mp inRange
  rw [← same, List.getElem_range]

theorem slice_append (content : Nat → UInt8) (offset count more : Nat) :
    slice content offset count ++ slice content (offset + count) more =
      slice content offset (count + more) := by
  rw [slice, slice, slice, List.range_add, List.map_append, List.map_map]
  congr 1
  apply List.map_congr_left
  intro distance _
  rw [Function.comp_apply, Nat.add_assoc]

theorem take_slice (content : Nat → UInt8) (offset count shorter : Nat) :
    (slice content offset count).take shorter = slice content offset (min shorter count) := by
  rw [slice, slice, ← List.map_take, List.take_range]

theorem drop_slice (content : Nat → UInt8) (offset count dropped : Nat) :
    (slice content offset count).drop dropped =
      slice content (offset + dropped) (count - dropped) := by
  rcases Nat.le_total dropped count with inside | outside
  · obtain ⟨more, rfl⟩ := Nat.exists_eq_add_of_le inside
    rw [← slice_append, List.drop_left' (length_slice _ _ _), Nat.add_sub_cancel_left]
  · rw [List.drop_of_length_le (by rw [length_slice]; exact outside), Nat.sub_eq_zero_of_le outside]
    rfl

end Ns3Quic.Stream
