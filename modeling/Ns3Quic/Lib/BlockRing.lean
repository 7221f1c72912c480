import Mathlib.Algebra.Order.Ring.Nat
import Mathlib.Data.Nat.ModEq

/-!
# A ring of blocks

An endless sequence is stored in a ring of `capacity` places that is cut into
blocks of `size` places; the last block may be shorter.  An offset of the
sequence belongs to a block and to a place in it.  A window of at most
`capacity` offsets uses no place twice, and a block that the window starts in
the middle of holds offsets of its first and of its last part only.
-/

namespace BlockRing

variable {capacity size : Nat}

def index (capacity size offset : Nat) : Nat := offset % capacity / size

def place (capacity size offset : Nat) : Nat := offset % capacity % size

def count (capacity size : Nat) : Nat := (capacity + size - 1) / size

def room (capacity size block : Nat) : Nat :=
  if block + 1 = count capacity size then
    if capacity % size = 0 then size else capacity % size
  else size

/-- The number of places from an offset to the end of its block. -/
def left (capacity size offset : Nat) : Nat :=
  room capacity size (index capacity size offset) - place capacity size offset

theorem count_eq (someRoom : 0 < capacity) (somePlaces : 0 < size) :
    count capacity size = (capacity - 1) / size + 1 := by
  rw [count, show capacity + size - 1 = capacity - 1 + size by omega,
    Nat.add_div_right _ somePlaces]

theorem index_lt_count (someRoom : 0 < capacity) (somePlaces : 0 < size) (offset : Nat) :
    index capacity size offset < count capacity size := by
  have inside : offset % capacity < capacity := Nat.mod_lt _ someRoom
  rw [count_eq someRoom somePlaces, Nat.lt_succ_iff]
  exact Nat.div_le_div_right (by omega)

theorem room_add (someRoom : 0 < capacity) (somePlaces : 0 < size) {block : Nat}
    (inside : block < count capacity size) :
    size * block + room capacity size block = min (size * (block + 1)) capacity := by
  rw [count_eq someRoom somePlaces] at inside
  have start : size * block ≤ capacity - 1 :=
    (Nat.mul_le_mul_left size (Nat.lt_succ_iff.mp inside)).trans (Nat.mul_div_le _ _)
  have next : size * (block + 1) = size * block + size := Nat.mul_succ size block
  unfold room
  split
  · next isLast =>
      rw [count_eq someRoom somePlaces, Nat.add_right_cancel_iff] at isLast
      have ends : capacity - 1 < size * (block + 1) := by
        rw [isLast]
        exact Nat.lt_mul_div_succ _ somePlaces
      rcases Nat.lt_or_ge capacity (size * (block + 1)) with short | full
      · have remainder : capacity % size = capacity - size * block := by
          have inBlock : capacity - size * block < size := by omega
          calc capacity % size = (size * block + (capacity - size * block)) % size := by
                rw [Nat.add_sub_cancel' (by omega)]
            _ = (capacity - size * block) % size := Nat.mul_add_mod _ _ _
            _ = capacity - size * block := Nat.mod_eq_of_lt inBlock
        rw [remainder, if_neg (by omega)]
        omega
      · have whole : capacity = size * (block + 1) := by omega
        rw [if_pos (by rw [whole]; exact Nat.mul_mod_right _ _)]
        omega
  · next notLast =>
      rw [count_eq someRoom somePlaces, Nat.add_right_cancel_iff] at notLast
      have later : size * (block + 1) ≤ capacity - 1 :=
        (Nat.mul_le_mul_left size (by omega)).trans (Nat.mul_div_le _ _)
      omega

theorem index_mul_add_place (offset : Nat) :
    size * index capacity size offset + place capacity size offset = offset % capacity :=
  Nat.div_add_mod _ _

theorem place_lt (somePlaces : 0 < size) (offset : Nat) : place capacity size offset < size :=
  Nat.mod_lt _ somePlaces

theorem left_eq (someRoom : 0 < capacity) (somePlaces : 0 < size) (offset : Nat) :
    left capacity size offset =
      min (size - place capacity size offset) (capacity - offset % capacity) := by
  have whole := room_add someRoom somePlaces (index_lt_count someRoom somePlaces offset)
  have split := @index_mul_add_place capacity size offset
  have next : size * (index capacity size offset + 1) = size * index capacity size offset + size :=
    Nat.mul_succ _ _
  have inside : offset % capacity < capacity := Nat.mod_lt _ someRoom
  rw [left]
  omega

theorem left_pos (someRoom : 0 < capacity) (somePlaces : 0 < size) (offset : Nat) :
    0 < left capacity size offset := by
  have inside : offset % capacity < capacity := Nat.mod_lt _ someRoom
  have inBlock := @place_lt capacity size somePlaces offset
  rw [left_eq someRoom somePlaces]
  omega

theorem place_add_left_le (someRoom : 0 < capacity) (somePlaces : 0 < size) (offset : Nat) :
    place capacity size offset + left capacity size offset ≤ size := by
  have inBlock := @place_lt capacity size somePlaces offset
  rw [left_eq someRoom somePlaces]
  omega

theorem eq_of_index_place {offset other : Nat}
    (sameIndex : index capacity size offset = index capacity size other)
    (samePlace : place capacity size offset = place capacity size other) :
    offset % capacity = other % capacity := by
  rw [← @index_mul_add_place capacity size offset, sameIndex, samePlace, index_mul_add_place]

theorem index_place_of_mod {offset block position : Nat} (inBlock : position < size)
    (same : offset % capacity = size * block + position) :
    index capacity size offset = block ∧ place capacity size offset = position := by
  constructor
  · rw [index, same, Nat.mul_add_div (by omega), Nat.div_eq_of_lt inBlock, Nat.add_zero]
  · rw [place, same, Nat.mul_add_mod, Nat.mod_eq_of_lt inBlock]

theorem index_place_add (someRoom : 0 < capacity) (somePlaces : 0 < size) {offset distance : Nat}
    (inside : distance < left capacity size offset) :
    index capacity size (offset + distance) = index capacity size offset ∧
      place capacity size (offset + distance) = place capacity size offset + distance := by
  rw [left_eq someRoom somePlaces] at inside
  have short : distance % capacity = distance := Nat.mod_eq_of_lt (by omega)
  apply index_place_of_mod (by omega)
  rw [Nat.add_mod_of_add_mod_lt (by omega), short, ← @index_mul_add_place capacity size offset,
    Nat.add_assoc]

/-- A window as long as the ring uses no place twice. -/
theorem eq_of_window {start offset other : Nat} (fromStart : start ≤ offset)
    (inWindow : offset < start + capacity) (otherFrom : start ≤ other)
    (otherInWindow : other < start + capacity)
    (sameIndex : index capacity size offset = index capacity size other)
    (samePlace : place capacity size offset = place capacity size other) : offset = other := by
  have congruent : offset ≡ other [MOD capacity] := eq_of_index_place sameIndex samePlace
  apply congruent.eq_of_abs_lt
  rw [abs_lt]
  omega

theorem mod_add_of_round {start distance : Nat} (short : distance < capacity)
    (round : capacity ≤ start % capacity + distance) :
    (start + distance) % capacity + capacity = start % capacity + distance := by
  have same : distance % capacity = distance := Nat.mod_eq_of_lt short
  rw [Nat.add_mod_add_of_le_add_mod (by omega), same]

/-- The offsets of a window that lie at its end and again in the block in which
it starts. -/
theorem index_of_wrapped (someRoom : 0 < capacity) (somePlaces : 0 < size) {start offset : Nat}
    (wrapped : start + capacity ≤ offset + place capacity size start)
    (inWindow : offset < start + capacity) :
    index capacity size offset = index capacity size start := by
  have split := @index_mul_add_place capacity size start
  have inside : start % capacity < capacity := Nat.mod_lt _ someRoom
  have inBlock := @place_lt capacity size somePlaces start
  have round := mod_add_of_round (show offset - start < capacity by omega)
    (show capacity ≤ start % capacity + (offset - start) by omega)
  rw [Nat.add_sub_cancel' (by omega)] at round
  have same : offset % capacity = size * index capacity size start +
      (offset + place capacity size start - (start + capacity)) := by
    omega
  exact (index_place_of_mod (by omega) same).1

theorem same_block_cases (someRoom : 0 < capacity) (somePlaces : 0 < size) {start offset : Nat}
    (fromStart : start ≤ offset) (inWindow : offset < start + capacity)
    (same : index capacity size offset = index capacity size start) :
    offset < start + left capacity size start ∨
      start + capacity ≤ offset + place capacity size start := by
  obtain ⟨distance, rfl⟩ := Nat.exists_eq_add_of_le fromStart
  have split := @index_mul_add_place capacity size start
  have offsetSplit := @index_mul_add_place capacity size (start + distance)
  have inBlock := @place_lt capacity size somePlaces (start + distance)
  rw [same] at offsetSplit
  rcases Nat.lt_or_ge (start % capacity + distance) capacity with before | round
  · have short : distance % capacity = distance := Nat.mod_eq_of_lt (by omega)
    rw [Nat.add_mod_of_add_mod_lt (by omega), short] at offsetSplit
    left
    rw [left_eq someRoom somePlaces]
    omega
  · have wrapped := mod_add_of_round (by omega) round
    right
    omega

end BlockRing
