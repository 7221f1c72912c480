import Ns3Quic.Stream.Content
import Ns3Quic.Stream.SendBuffer

/-!
# What the send buffer keeps

The slices of the buffer follow one another up to the end of what the application
has written.  A slice holds its part of the content or has been emptied, and then
all of its bytes are acknowledged; in front of the first slice everything is
acknowledged.  So every byte that is not acknowledged can be written to a packet
at any time, and an acknowledgement of bytes that were sent never fails.
-/

namespace Ns3Quic.Stream

open QuicIntervalDeque

/-- Slices that follow one another from one offset to another. -/
def Chained (content : Nat → UInt8) (acked : QuicIntervalSet Nat) :
    Nat → List BufferedSlice → Nat → Prop
  | start, [], finish => start = finish
  | start, buffered :: rest, finish =>
      buffered.offset = start ∧ ∃ length, 0 < length ∧
        (buffered.slice = slice content start length ∨
          (buffered.slice = [] ∧
            ∀ offset, start ≤ offset → offset < start + length → offset ∈ acked)) ∧
        Chained content acked (start + length) rest finish

section Chained

variable {content : Nat → UInt8} {acked more : QuicIntervalSet Nat} {start finish : Nat}
  {slices : List BufferedSlice}

theorem Chained.le (chained : Chained content acked start slices finish) : start ≤ finish := by
  induction slices generalizing start with
  | nil => exact Nat.le_of_eq chained
  | cons buffered rest ih =>
      obtain ⟨-, length, -, -, later⟩ := chained
      exact (Nat.le_add_right _ _).trans (ih later)

theorem Chained.mono (chained : Chained content acked start slices finish)
    (contained : ∀ offset ∈ acked, offset ∈ more) : Chained content more start slices finish := by
  induction slices generalizing start with
  | nil => exact chained
  | cons buffered rest ih =>
      obtain ⟨place, length, positive, held, later⟩ := chained
      refine ⟨place, length, positive, held.imp_right fun emptied => ?_, ih later⟩
      exact ⟨emptied.1, fun offset low high => contained offset (emptied.2 offset low high)⟩

theorem chained_append {front back : List BufferedSlice} :
    Chained content acked start (front ++ back) finish ↔
      ∃ middle, Chained content acked start front middle ∧
        Chained content acked middle back finish := by
  induction front generalizing start with
  | nil =>
      constructor
      · exact fun chained => ⟨start, rfl, chained⟩
      · rintro ⟨middle, rfl, chained⟩
        exact chained
  | cons buffered rest ih =>
      constructor
      · rintro ⟨place, length, positive, held, later⟩
        obtain ⟨middle, front, back⟩ := ih.mp later
        exact ⟨middle, ⟨place, length, positive, held, front⟩, back⟩
      · rintro ⟨middle, ⟨place, length, positive, held, front⟩, back⟩
        exact ⟨place, length, positive, held, ih.mpr ⟨middle, front, back⟩⟩

theorem Chained.push (chained : Chained content acked start slices finish) {length : Nat}
    (positive : 0 < length) :
    Chained content acked start (slices ++ [⟨slice content finish length, finish⟩])
      (finish + length) :=
  chained_append.mpr ⟨finish, chained, rfl, length, positive, .inl rfl, rfl⟩

theorem Chained.bounds (chained : Chained content acked start slices finish) :
    ∀ buffered ∈ slices, start ≤ buffered.offset ∧ buffered.offset < finish ∧
      buffered.offset + buffered.slice.length ≤ finish := by
  induction slices generalizing start with
  | nil => exact fun _ membership => absurd membership List.not_mem_nil
  | cons first rest ih =>
      obtain ⟨place, length, positive, held, later⟩ := chained
      have after := later.le
      have short : first.slice.length ≤ length := by
        rcases held with whole | ⟨emptied, -⟩
        · rw [whole, length_slice]
        · rw [emptied]
          exact Nat.zero_le _
      refine List.forall_mem_cons.mpr ⟨by omega, fun buffered membership => ?_⟩
      have bounds := ih later buffered membership
      omega

theorem Chained.pairwise (chained : Chained content acked start slices finish) :
    slices.Pairwise fun earlier later =>
      earlier.offset < later.offset ∧ earlier.offset + earlier.slice.length ≤ later.offset := by
  induction slices generalizing start with
  | nil => exact List.Pairwise.nil
  | cons first rest ih =>
      obtain ⟨place, length, positive, held, later⟩ := chained
      have short : first.slice.length ≤ length := by
        rcases held with whole | ⟨emptied, -⟩
        · rw [whole, length_slice]
        · rw [emptied]
          exact Nat.zero_le _
      refine List.pairwise_cons.mpr ⟨fun buffered membership => ?_, ih later⟩
      have bounds := later.bounds buffered membership
      omega

theorem Chained.ordered (chained : Chained content acked start slices finish) :
    Ordered BufferedSlice.interval slices :=
  ⟨fun _ _ => Nat.le_add_right _ _, chained.pairwise.imp fun both => both.2⟩

theorem interval_contains {buffered : BufferedSlice} {offset : Nat} :
    buffered.interval.contains offset = true ↔
      buffered.offset ≤ offset ∧ offset < buffered.offset + buffered.slice.length := by
  rw [QuicInterval.contains, Bool.and_eq_true, decide_eq_true_iff, decide_eq_true_iff]
  rfl

theorem Chained.live (chained : Chained content acked start slices finish) {offset : Nat}
    (low : start ≤ offset) (high : offset < finish) (unacked : offset ∉ acked) :
    ∃ (index : Nat) (buffered : BufferedSlice), slices[index]? = some buffered ∧
      buffered.interval.contains offset = true := by
  induction slices generalizing start with
  | nil =>
      have ends : start = finish := chained
      omega
  | cons first rest ih =>
      obtain ⟨place, length, positive, held, later⟩ := chained
      rcases Nat.lt_or_ge offset (start + length) with here | further
      · refine ⟨0, first, rfl, interval_contains.mpr ?_⟩
        rcases held with whole | ⟨-, all⟩
        · rw [whole, length_slice]
          omega
        · exact absurd (all offset low here) unacked
      · obtain ⟨index, buffered, found, contains⟩ := ih later further
        exact ⟨index + 1, buffered, found, contains⟩

end Chained

/-- A slice that follows a written one, or that was found to contain a byte, has it
if the byte is not acknowledged: the slice has not been emptied. -/
theorem whole_of_unacked {content : Nat → UInt8} {acked : QuicIntervalSet Nat}
    {buffered : BufferedSlice} {start length offset : Nat} (place : buffered.offset = start)
    (lengthPos : 0 < length)
    (held : buffered.slice = slice content start length ∨
      (buffered.slice = [] ∧
        ∀ position, start ≤ position → position < start + length → position ∈ acked))
    (here : start = offset ∨ buffered.interval.contains offset = true) (unacked : offset ∉ acked) :
    start ≤ offset ∧ offset < start + length ∧ buffered.slice = slice content start length := by
  rcases held with whole | ⟨emptied, all⟩
  · rcases here with same | contains
    · exact ⟨by omega, by omega, whole⟩
    · have bounds := interval_contains.mp contains
      rw [whole, length_slice, place] at bounds
      exact ⟨bounds.1, bounds.2, whole⟩
  · rcases here with rfl | contains
    · exact absurd (all start (Nat.le_refl _) (by omega)) unacked
    · have bounds := interval_contains.mp contains
      rw [emptied, List.length_nil] at bounds
      omega

namespace QuicStreamSendBuffer

variable {content : Nat → UInt8} {buffer after : QuicStreamSendBuffer}

/-! ## Writing -/

theorem writeLoop_eq {acked : QuicIntervalSet Nat} {slices : List BufferedSlice}
    {start finish index offset dataLength room : Nat} {deque : QuicIntervalDeque BufferedSlice}
    (chained : Chained content acked start slices finish)
    (here : 0 < dataLength → start = offset ∨
      ∃ buffered rest, slices = buffered :: rest ∧ buffered.interval.contains offset = true)
    (unacked : ∀ position, offset ≤ position → position < offset + dataLength →
      position ∉ acked)
    (saved : offset + dataLength ≤ finish) (fits : dataLength ≤ room)
    (inside : Inside deque) (visits : index + slices.length = deque.size) :
    ∃ last, writeLoop slices index offset dataLength room deque =
        (slice content offset dataLength, true, last) ∧
      last.container = deque.container ∧ Inside last := by
  induction slices generalizing start index offset dataLength room deque with
  | nil =>
      have nothing : dataLength = 0 := by
        have ends : start = finish := chained
        by_contra nonempty
        rcases here (by omega) with same | ⟨_, _, impossible, -⟩
        · omega
        · cases impossible
      subst nothing
      exact ⟨deque, rfl, rfl, inside⟩
  | cons buffered rest ih =>
      rcases Nat.eq_zero_or_pos dataLength with rfl | positive
      · exact ⟨deque, rfl, rfl, inside⟩
      · obtain ⟨place, length, lengthPos, held, later⟩ := chained
        obtain ⟨low, high, whole⟩ := whole_of_unacked place lengthPos held
          ((here positive).imp_right fun ⟨_, _, shape, has⟩ => (List.cons.inj shape).1 ▸ has)
          (unacked offset (Nat.le_refl _) (by omega))
        have available : buffered.slice.length - (offset - buffered.offset) =
            start + length - offset := by
          rw [whole, length_slice]
          omega
        generalize copyEq : min dataLength (start + length - offset) = copyLength
        obtain ⟨last, written, same, lastInside⟩ := @ih (start + length) (index + 1)
          (offset + copyLength) (dataLength - copyLength) (room - copyLength)
          (deque.moveTo (index + 1)) later (fun more => .inl (by omega))
          (fun position from_ to_ => unacked position (by omega) (by omega)) (by omega) (by omega)
          (inside.moveTo (by rw [List.length_cons] at visits; omega))
          (by rw [List.length_cons] at visits; show _ = deque.size; omega)
        refine ⟨last, ?_, same, lastInside⟩
        have goOn : ¬ (decide (dataLength = 0) || decide (offset < buffered.offset)) = true := by
          simp only [Bool.or_eq_true, decide_eq_true_iff]
          omega
        rw [writeLoop, if_neg goOn]
        dsimp only
        have taken : min copyLength (length - (offset - start)) = copyLength := by omega
        rw [available, copyEq, if_neg (by omega), written, whole, drop_slice, take_slice, place,
          Nat.add_sub_cancel' low, taken, slice_append, Nat.add_sub_cancel' (by omega)]

/-! ## Emptying slices -/

theorem freeLoop_chained {acked : QuicIntervalSet Nat} {slices : List BufferedSlice}
    {start finish : Nat} (chained : Chained content acked start slices finish) (end_ : Nat) :
    Chained content acked start (freeLoop acked end_ slices).1 finish := by
  induction slices generalizing start with
  | nil => exact chained
  | cons buffered rest ih =>
      obtain ⟨place, length, positive, held, later⟩ := chained
      rw [freeLoop]
      split
      · exact ⟨place, length, positive, held, later⟩
      · refine ⟨?_, length, positive, ?_, ih later⟩
        · split <;> exact place
        · split
          · next freed =>
              refine .inr ⟨rfl, ?_⟩
              rcases held with whole | emptied
              · have covered := (Bool.and_eq_true_iff.mp freed).2
                rw [QuicIntervalSet.containsInterval_iff] at covered
                · rw [BufferedSlice.interval, whole, length_slice, place] at covered
                  exact covered
                · rw [BufferedSlice.interval, whole, length_slice]
                  show buffered.offset < buffered.offset + length
                  omega
              · exact emptied.2
          · exact held

theorem freeLoop_length (acked : QuicIntervalSet Nat) (end_ : Nat) (slices : List BufferedSlice) :
    (freeLoop acked end_ slices).1.length = slices.length ∧
      (freeLoop acked end_ slices).2 ≤ slices.length := by
  induction slices with
  | nil => exact ⟨rfl, Nat.le_refl _⟩
  | cons buffered rest ih =>
      rw [freeLoop]
      split
      · exact ⟨rfl, Nat.zero_le _⟩
      · exact ⟨congrArg (· + 1) ih.1, Nat.succ_le_succ ih.2⟩

theorem moveOver_inside {deque : QuicIntervalDeque BufferedSlice} {index visited : Nat}
    (inside : Inside deque) (atMost : index + visited ≤ deque.size) :
    Inside (moveOver deque index visited) ∧
      (moveOver deque index visited).container = deque.container := by
  induction visited generalizing deque index with
  | zero => exact ⟨inside, rfl⟩
  | succ visited ih => exact ih (inside.moveTo (by omega)) (show _ ≤ deque.size by omega)

/-- `FreeMemSlices` starts at a slice that still has bytes: an emptied slice in
front of the one with the first byte starts before it, so it does not end at that
byte. -/
theorem firstToFree_live {deque : QuicIntervalDeque BufferedSlice} {acked : QuicIntervalSet Nat}
    {start first finish : Nat} (chained : Chained content acked start deque.container finish)
    (low : start ≤ first) (high : first < finish) (unacked : first ∉ acked) :
    ∃ buffered : BufferedSlice,
      deque.container[(firstToFree deque first).1]? = some buffered ∧ buffered.slice ≠ [] := by
  have notEmpty : ∀ {buffered : BufferedSlice}, buffered.interval.contains first = true →
      buffered.slice ≠ [] := by
    rintro buffered contains nothing
    have bounds := interval_contains.mp contains
    rw [nothing, List.length_nil] at bounds
    omega
  unfold firstToFree
  split
  · next atFront =>
      obtain ⟨buffered, isHead, contains⟩ := (Option.any_eq_true _ _).mp atFront
      exact ⟨buffered, List.head?_eq_getElem? ▸ isHead, notEmpty contains⟩
  · obtain ⟨index, buffered, found, contains⟩ := chained.live low high unacked
    have bounds := interval_contains.mp contains
    obtain ⟨indexInside, rfl⟩ := List.getElem?_eq_some_iff.mp found
    generalize searched : (deque.container.findIdx fun buffered =>
        !decide (buffered.offset + buffered.slice.length < first)) = place
    have atMost : place ≤ index := by
      rw [← searched]
      by_contra later
      have passed := List.not_of_lt_findIdx (Nat.lt_of_not_le later)
      rw [Bool.not_eq_false', decide_eq_true_iff] at passed
      omega
    have placeInside := atMost.trans_lt indexInside
    refine ⟨_, List.getElem?_eq_getElem placeInside, ?_⟩
    rcases Nat.lt_or_eq_of_le atMost with before | rfl
    · intro nothing
      have apart := List.pairwise_iff_getElem.mp chained.pairwise place index placeInside
        indexInside before
      have stopped := ((List.findIdx_eq placeInside).mp searched).1
      rw [Bool.not_eq_true', decide_eq_false_iff_not, nothing, List.length_nil] at stopped
      omega
    · exact notEmpty contains

/-- The loop of `CleanUpBufferedSlices` removes slices whose bytes are all
acknowledged, until the first slice has bytes. -/
theorem popEmpty_chained {acked : QuicIntervalSet Nat} {slices : List BufferedSlice}
    {deque : QuicIntervalDeque BufferedSlice} {start finish : Nat}
    (held : deque.container = slices) (chained : Chained content acked start slices finish)
    (inside : Inside deque) :
    ∃ next, Chained content acked next (popEmpty slices deque).container finish ∧
      (∀ offset, start ≤ offset → offset < next → offset ∈ acked) ∧
      (∀ first ∈ (popEmpty slices deque).container.head?, first.slice ≠ []) ∧
      Inside (popEmpty slices deque) := by
  induction slices generalizing deque start with
  | nil =>
      rw [popEmpty, held]
      refine ⟨start, chained, fun offset low high => by omega, ?_, inside⟩
      intro first isFirst
      cases isFirst
  | cons buffered rest ih =>
      rw [popEmpty]
      split
      · next empty =>
          obtain ⟨place, length, positive, isHeld, later⟩ := chained
          have popped : deque.popFront.container = rest := by
            rw [QuicIntervalDeque.popFront, held]
          obtain ⟨next, isChained, covered, front, isInside⟩ := ih popped later inside.popFront
          refine ⟨next, isChained, fun offset low high => ?_, front, isInside⟩
          rcases Nat.lt_or_ge offset (start + length) with here | further
          · rcases isHeld with whole | ⟨-, all⟩
            · rw [List.isEmpty_iff.mp empty] at whole
              have impossible := congrArg List.length whole
              rw [length_slice, List.length_nil] at impossible
              omega
            · exact all offset low here
          · exact covered offset further high
      · next notEmpty =>
          refine ⟨start, held ▸ chained, fun offset low high => by omega, ?_, inside⟩
          intro first isFirst
          rw [held, List.head?_cons, Option.mem_some_iff] at isFirst
          subst isFirst
          exact fun nothing => notEmpty (List.isEmpty_iff.mpr nothing)

/-! ## The invariant -/

structure Stored (content : Nat → UInt8) (acked : QuicIntervalSet Nat)
    (deque : QuicIntervalDeque BufferedSlice) (finish : Nat) : Prop where
  chain : ∃ start, Chained content acked start deque.container finish ∧
    ∀ offset < start, offset ∈ acked
  front : ∀ first ∈ deque.container.head?, first.slice ≠ []
  inside : Inside deque

/-- What holds of the buffer of a stream with the given content. -/
structure Keeps (content : Nat → UInt8) (buffer : QuicStreamSendBuffer) : Prop where
  stored : Stored content buffer.bytesAcked buffer.intervalDeque buffer.streamOffset
  acked_lt : ∀ offset ∈ buffer.bytesAcked, offset < buffer.streamBytesWritten
  written_le : buffer.streamBytesWritten ≤ buffer.streamOffset
  pending : ∀ offset ∈ buffer.pendingRetransmissions,
    offset < buffer.streamBytesWritten ∧ offset ∉ buffer.bytesAcked
  outstanding : buffer.streamBytesOutstanding + buffer.bytesAcked.count =
    buffer.streamBytesWritten

theorem new_keeps (content : Nat → UInt8) : Keeps content new where
  stored :=
    { chain := ⟨0, rfl, fun offset below => absurd below (Nat.not_lt_zero _)⟩
      front := by
        intro first isFirst
        cases isFirst
      inside := inside_empty }
  acked_lt := fun offset membership => absurd membership (QuicIntervalSet.notMem_empty offset)
  written_le := Nat.le_refl _
  pending := fun offset membership => absurd membership (QuicIntervalSet.notMem_empty offset)
  outstanding := rfl

theorem Stored.push {acked : QuicIntervalSet Nat} {deque : QuicIntervalDeque BufferedSlice}
    {finish length : Nat} (stored : Stored content acked deque finish) (positive : 0 < length) :
    Stored content acked
      (deque.pushBack BufferedSlice.interval ⟨slice content finish length, finish⟩)
      (finish + length) := by
  obtain ⟨start, chained, covered⟩ := stored.chain
  have pushed : (deque.pushBack BufferedSlice.interval
      ⟨slice content finish length, finish⟩).container =
      deque.container ++ [⟨slice content finish length, finish⟩] := by
    rw [QuicIntervalDeque.pushBack, if_neg]
    rw [BufferedSlice.interval, length_slice, QuicInterval.isEmpty, decide_eq_true_iff]
    show ¬ finish + length ≤ finish
    omega
  refine ⟨⟨start, pushed ▸ chained.push positive, covered⟩, ?_, stored.inside.pushBack _⟩
  intro first isFirst
  rw [pushed, List.head?_append, Option.mem_def, Option.or_eq_some_iff] at isFirst
  rcases isFirst with isFirst | ⟨-, isNew⟩
  · exact stored.front first isFirst
  · rw [← Option.some.inj isNew, ← List.length_pos_iff, length_slice]
    exact positive

theorem Keeps.saveMemSlice (keeps : Keeps content buffer) {length : Nat} :
    ∃ deque, buffer.saveMemSlice (slice content buffer.streamOffset length) =
        { buffer with intervalDeque := deque, streamOffset := buffer.streamOffset + length } ∧
      Keeps content
        { buffer with intervalDeque := deque, streamOffset := buffer.streamOffset + length } := by
  unfold QuicStreamSendBuffer.saveMemSlice
  rcases Nat.eq_zero_or_pos length with rfl | positive
  · exact ⟨buffer.intervalDeque, if_pos rfl, keeps⟩
  · have notEmpty : ¬ (slice content buffer.streamOffset length).isEmpty = true := by
      rw [List.isEmpty_iff, ← List.length_eq_zero_iff, length_slice]
      omega
    rw [if_neg notEmpty, length_slice]
    exact ⟨_, rfl, keeps.stored.push positive, keeps.acked_lt,
      keeps.written_le.trans (Nat.le_add_right _ _), keeps.pending, keeps.outstanding⟩

theorem Keeps.onStreamDataConsumed (keeps : Keeps content buffer) {bytesConsumed : Nat}
    (saved : buffer.streamBytesWritten + bytesConsumed ≤ buffer.streamOffset) :
    Keeps content (buffer.onStreamDataConsumed bytesConsumed) where
  stored := keeps.stored
  acked_lt := fun offset membership =>
    (keeps.acked_lt offset membership).trans_le (Nat.le_add_right _ _)
  written_le := saved
  pending := fun offset membership =>
    ⟨(keeps.pending offset membership).1.trans_le (Nat.le_add_right _ _),
      (keeps.pending offset membership).2⟩
  outstanding := by
    have balance := keeps.outstanding
    dsimp only [QuicStreamSendBuffer.onStreamDataConsumed]
    omega

theorem Keeps.writeStreamData (keeps : Keeps content buffer) {offset dataLength room : Nat}
    (positive : 0 < dataLength) (saved : offset + dataLength ≤ buffer.streamOffset)
    (unacked : ∀ position, offset ≤ position → position < offset + dataLength →
      position ∉ buffer.bytesAcked)
    (fits : dataLength ≤ room) :
    ∃ deque, buffer.writeStreamData offset dataLength room =
        some (slice content offset dataLength, true, { buffer with intervalDeque := deque }) ∧
      Keeps content { buffer with intervalDeque := deque } := by
  obtain ⟨start, chained, covered⟩ := keeps.stored.chain
  have firstUnacked := unacked offset (Nat.le_refl _) (by omega)
  have low : start ≤ offset := Nat.le_of_not_lt fun below => firstUnacked (covered offset below)
  obtain ⟨index, buffered, found, contains⟩ := chained.live low (by omega) firstUnacked
  obtain ⟨deque, searched, same, inside⟩ :=
    dataAt_eq chained.ordered keeps.stored.inside found contains
  obtain ⟨indexInside, rfl⟩ := List.getElem?_eq_some_iff.mp found
  have parts := chained
  rw [← List.take_append_drop index buffer.intervalDeque.container, chained_append] at parts
  obtain ⟨middle, -, rest⟩ := parts
  obtain ⟨last, written, lastSame, lastInside⟩ := @writeLoop_eq content buffer.bytesAcked
    (buffer.intervalDeque.container.drop index) middle buffer.streamOffset index offset dataLength
    room deque rest
    (fun _ => .inr ⟨_, _, List.drop_eq_getElem_cons indexInside, contains⟩) unacked saved fits
    inside (by rw [List.length_drop, QuicIntervalDeque.size, same]; omega)
  have unchanged : last.container = buffer.intervalDeque.container := lastSame.trans same
  refine ⟨last, ?_, ?_, keeps.acked_lt, keeps.written_le, keeps.pending, keeps.outstanding⟩
  · rw [QuicStreamSendBuffer.writeStreamData, searched, Option.map_some]
    dsimp only
    rw [same, written]
  · exact ⟨⟨start, unchanged ▸ chained, covered⟩, unchanged ▸ keeps.stored.front, lastInside⟩

/-! ## Acknowledgements -/

theorem Stored.freeMemSlices {old : QuicIntervalSet Nat} {first : Nat}
    (stored : Stored content old buffer.intervalDeque buffer.streamOffset)
    (contained : ∀ offset ∈ old, offset ∈ buffer.bytesAcked)
    (saved : first < buffer.streamOffset) (unacked : first ∉ old) (end_ : Nat) :
    ∃ deque, buffer.freeMemSlices first end_ = (true, { buffer with intervalDeque := deque }) ∧
      (∃ start, Chained content buffer.bytesAcked start deque.container buffer.streamOffset ∧
        ∀ offset < start, offset ∈ buffer.bytesAcked) ∧
      Inside deque := by
  obtain ⟨start, chained, covered⟩ := stored.chain
  have low : start ≤ first := Nat.le_of_not_lt fun below => unacked (covered first below)
  obtain ⟨buffered, found, notEmpty⟩ := firstToFree_live chained low saved unacked
  have searched : (firstToFree buffer.intervalDeque first).2.container =
        buffer.intervalDeque.container ∧ Inside (firstToFree buffer.intervalDeque first).2 := by
    unfold firstToFree
    split
    · exact ⟨rfl, stored.inside⟩
    · exact ⟨rfl, stored.inside.moveToEnd⟩
  have frontLive : (buffer.intervalDeque.container.head?.any fun buffered =>
      !buffered.slice.isEmpty) = true := by
    obtain ⟨head, rest, shape⟩ :=
      List.exists_cons_of_ne_nil (List.ne_nil_of_mem (List.mem_of_getElem? found))
    have headLive := stored.front head (by rw [shape]; rfl)
    rw [shape, List.head?_cons, Option.any_some, Bool.not_eq_true', List.isEmpty_eq_false_iff]
    exact headLive
  unfold QuicStreamSendBuffer.freeMemSlices
  rw [frontLive, Bool.not_true, if_neg Bool.false_ne_true]
  generalize firstToFree buffer.intervalDeque first = search at found searched
  obtain ⟨index, deque⟩ := search
  obtain ⟨same, inside⟩ := searched
  dsimp only at found same inside ⊢
  rw [same, found, Option.any_some, List.isEmpty_eq_false_iff.mpr notEmpty, Bool.not_false,
    Bool.not_true, if_neg Bool.false_ne_true]
  have indexInside := (List.getElem?_eq_some_iff.mp found).1
  -- the slices in front of the first one to free stay as they are
  have parts := chained.mono contained
  rw [← List.take_append_drop index buffer.intervalDeque.container, chained_append] at parts
  obtain ⟨middle, before, behind⟩ := parts
  have visits := freeLoop_length buffer.bytesAcked end_ (buffer.intervalDeque.container.drop index)
  rw [List.length_drop] at visits
  refine ⟨_, rfl, ⟨start, chained_append.mpr ⟨middle, before, freeLoop_chained behind end_⟩,
    fun offset below => contained offset (covered offset below)⟩, ?_⟩
  intro cached isCached
  have moved := (moveOver_inside inside (show _ ≤ deque.container.length by
    rw [same]; exact (Nat.add_le_add_left visits.2 index).trans (by omega)))
  have isInside := moved.1 cached isCached
  rw [QuicIntervalDeque.size, moved.2, same] at isInside
  rw [QuicIntervalDeque.size, List.length_append, visits.1, List.length_take]
  omega

theorem Stored.freeAndCleanUp {old : QuicIntervalSet Nat} {first : Nat}
    (stored : Stored content old buffer.intervalDeque buffer.streamOffset)
    (contained : ∀ offset ∈ old, offset ∈ buffer.bytesAcked)
    (saved : first < buffer.streamOffset) (unacked : first ∉ old) (end_ : Nat) :
    ∃ deque, buffer.freeAndCleanUp first end_ = (true, { buffer with intervalDeque := deque }) ∧
      Stored content buffer.bytesAcked deque buffer.streamOffset := by
  obtain ⟨deque, freed, ⟨start, chained, covered⟩, inside⟩ :=
    stored.freeMemSlices contained saved unacked end_
  obtain ⟨next, isChained, popped, front, isInside⟩ := popEmpty_chained rfl chained inside
  refine ⟨_, by rw [QuicStreamSendBuffer.freeAndCleanUp, freed]; rfl, ?_, front, isInside⟩
  refine ⟨next, isChained, fun offset below => ?_⟩
  rcases Nat.lt_or_ge offset start with before | behind
  · exact covered offset before
  · exact popped offset behind below

structure Acknowledged (offset dataLength newlyAcked : Nat) (buffer after : QuicStreamSendBuffer) :
    Prop where
  streamOffset : after.streamOffset = buffer.streamOffset
  written : after.streamBytesWritten = buffer.streamBytesWritten
  outstanding : after.streamBytesOutstanding + newlyAcked = buffer.streamBytesOutstanding
  mem_acked : ∀ position, position ∈ after.bytesAcked ↔
    position ∈ buffer.bytesAcked ∨ (offset ≤ position ∧ position < offset + dataLength)
  mem_pending : ∀ position, position ∈ after.pendingRetransmissions ↔
    position ∈ buffer.pendingRetransmissions ∧
      ¬ (offset ≤ position ∧ position < offset + dataLength)

theorem Keeps.markAcked (keeps : Keeps content buffer) {offset dataLength first : Nat}
    (sent : offset + dataLength ≤ buffer.streamBytesWritten)
    {bytesAcked newlyAcked : QuicIntervalSet Nat}
    (acked_iff : ∀ position, position ∈ bytesAcked ↔
      position ∈ buffer.bytesAcked ∨ (offset ≤ position ∧ position < offset + dataLength))
    (newly_iff : ∀ position, position ∈ newlyAcked ↔
      (offset ≤ position ∧ position < offset + dataLength) ∧ position ∉ buffer.bytesAcked)
    (isFirst : first ∈ newlyAcked) (end_ : Nat) :
    newlyAcked.count ≤ buffer.streamBytesOutstanding ∧
    ∃ after, (buffer.markAcked ⟨offset, offset + dataLength⟩ newlyAcked.count
        bytesAcked).freeAndCleanUp first end_ = (true, after) ∧
      Keeps content after ∧ Acknowledged offset dataLength newlyAcked.count buffer after := by
  have below : ∀ position ∈ bytesAcked, position < buffer.streamBytesWritten := by
    intro position membership
    rcases (acked_iff position).mp membership with before | inside
    · exact keeps.acked_lt position before
    · omega
  have counted : bytesAcked.count = buffer.bytesAcked.count + newlyAcked.count := by
    refine QuicIntervalSet.count_add (fun position => ?_) fun position before newly =>
      ((newly_iff position).mp newly).2 before
    rw [acked_iff, newly_iff]
    tauto
  have atMost := QuicIntervalSet.count_le below
  have balance := keeps.outstanding
  have written := keeps.written_le
  obtain ⟨inside, unacked⟩ := (newly_iff first).mp isFirst
  obtain ⟨deque, freed, stored⟩ := @Stored.freeAndCleanUp content
    (buffer.markAcked ⟨offset, offset + dataLength⟩ newlyAcked.count bytesAcked)
    buffer.bytesAcked first keeps.stored
    (fun position before => (acked_iff position).mpr (.inl before))
    (show first < buffer.streamOffset by omega) unacked end_
  refine ⟨by omega, _, freed, ?_, ?_⟩
  · refine ⟨stored, below, written, fun position membership => ?_, ?_⟩
    · obtain ⟨before, outside⟩ := QuicIntervalSet.mem_differenceInterval.mp membership
      refine ⟨(keeps.pending position before).1, fun nowAcked => ?_⟩
      rcases (acked_iff position).mp nowAcked with was | isInside
      · exact (keeps.pending position before).2 was
      · exact outside isInside
    · show buffer.streamBytesOutstanding - newlyAcked.count + bytesAcked.count =
        buffer.streamBytesWritten
      omega
  · refine ⟨rfl, rfl, ?_, acked_iff, fun position => QuicIntervalSet.mem_differenceInterval⟩
    show buffer.streamBytesOutstanding - newlyAcked.count + newlyAcked.count =
      buffer.streamBytesOutstanding
    omega

theorem unacked_of_allNewlyAcked {interval : QuicInterval Nat}
    (shortcut : buffer.allNewlyAcked interval = true) {position : Nat}
    (low : interval.min ≤ position) (high : position < interval.max) :
    position ∉ buffer.bytesAcked := by
  intro acked
  unfold allNewlyAcked at shortcut
  split at shortcut
  · next nothing =>
      obtain ⟨covering, inSet, -⟩ := acked
      rw [List.getLast?_eq_none_iff.mp nothing] at inSet
      cases inSet
  · next last isLast =>
      rcases Bool.or_eq_true_iff.mp shortcut with behind | apart
      · have before := QuicIntervalSet.lt_of_getLast? isLast acked
        have behind := of_decide_eq_true behind
        omega
      · exact QuicIntervalSet.isDisjoint_iff.mp apart position low high acked

theorem acknowledged_nothing {offset dataLength : Nat}
    (already : ∀ position, offset ≤ position → position < offset + dataLength →
      position ∈ buffer.bytesAcked)
    (pending : ∀ position ∈ buffer.pendingRetransmissions, position ∉ buffer.bytesAcked) :
    Acknowledged offset dataLength 0 buffer buffer where
  streamOffset := rfl
  written := rfl
  outstanding := rfl
  mem_acked := fun position => (or_iff_left_of_imp fun inside =>
    already position inside.1 inside.2).symm
  mem_pending := fun position => (and_iff_left_of_imp fun isPending inside =>
    pending position isPending (already position inside.1 inside.2)).symm

theorem Keeps.acknowledgeAll (keeps : Keeps content buffer) {offset dataLength : Nat}
    (nonzero : dataLength ≠ 0) (sent : offset + dataLength ≤ buffer.streamBytesWritten)
    (unacked : ∀ position, offset ≤ position ∧ position < offset + dataLength →
      position ∉ buffer.bytesAcked) :
    dataLength ≤ buffer.streamBytesOutstanding ∧
    ∃ after, (buffer.markAcked ⟨offset, offset + dataLength⟩ dataLength
        (buffer.bytesAcked.addOptimizedForAppend ⟨offset, offset + dataLength⟩)).freeAndCleanUp
          offset (offset + dataLength) = (true, after) ∧
      Keeps content after ∧ Acknowledged offset dataLength dataLength buffer after := by
  have marked := @Keeps.markAcked content buffer keeps offset dataLength offset sent
    (buffer.bytesAcked.addOptimizedForAppend ⟨offset, offset + dataLength⟩)
    (.ofInterval ⟨offset, offset + dataLength⟩)
    (fun position => by rw [QuicIntervalSet.addOptimizedForAppend_eq, QuicIntervalSet.mem_add])
    (fun position => by
      rw [QuicIntervalSet.mem_ofInterval, and_iff_left_of_imp (unacked position)])
    (QuicIntervalSet.mem_ofInterval.mpr ⟨Nat.le_refl _, by dsimp only; omega⟩)
    (offset + dataLength)
  have length : (QuicIntervalSet.ofInterval
      (⟨offset, offset + dataLength⟩ : QuicInterval Nat)).count = dataLength := by
    rw [QuicIntervalSet.count_ofInterval]
    exact Nat.add_sub_cancel_left offset dataLength
  rw [length] at marked
  exact marked

theorem exists_newlyAcked {acked : QuicIntervalSet Nat} {interval : QuicInterval Nat}
    (nonempty : interval.min < interval.max) (notAll : ¬ acked.containsInterval interval = true) :
    ∃ spanning, ((QuicIntervalSet.ofInterval interval).difference acked).spanningInterval =
        some spanning ∧
      spanning.min ∈ (QuicIntervalSet.ofInterval interval).difference acked := by
  rw [QuicIntervalSet.containsInterval_iff nonempty] at notAll
  push Not at notAll
  obtain ⟨position, low, high, unacked⟩ := notAll
  exact QuicIntervalSet.exists_spanningInterval (QuicIntervalSet.mem_difference.mpr
    ⟨QuicIntervalSet.mem_ofInterval.mpr ⟨low, high⟩, unacked⟩)

/-- An acknowledgement of bytes that were sent never fails. -/
theorem Keeps.onStreamDataAcked (keeps : Keeps content buffer) {offset dataLength : Nat}
    (sent : offset + dataLength ≤ buffer.streamBytesWritten) :
    ∃ newlyAcked after, buffer.onStreamDataAcked offset dataLength = (true, newlyAcked, after) ∧
      Keeps content after ∧ Acknowledged offset dataLength newlyAcked buffer after := by
  have pendingUnacked : ∀ position ∈ buffer.pendingRetransmissions, position ∉ buffer.bytesAcked :=
    fun position isPending => (keeps.pending position isPending).2
  unfold QuicStreamSendBuffer.onStreamDataAcked
  dsimp only
  split
  · next nothing =>
      exact ⟨0, buffer, rfl, keeps, acknowledged_nothing (by omega) pendingUnacked⟩
  · next nonzero =>
      have nonempty : offset < offset + dataLength := by omega
      split
      · next shortcut =>
          obtain ⟨enough, after, freed, isKept, acknowledged⟩ := keeps.acknowledgeAll nonzero sent
            fun position inside => unacked_of_allNewlyAcked shortcut inside.1 inside.2
          rw [if_neg (Nat.not_lt.mpr enough), freed]
          exact ⟨dataLength, after, rfl, isKept, acknowledged⟩
      · split
        · next already =>
            exact ⟨0, buffer, rfl, keeps, acknowledged_nothing
              ((QuicIntervalSet.containsInterval_iff nonempty).mp already) pendingUnacked⟩
        · next notAll =>
            obtain ⟨spanning, isSpanning, first⟩ := exists_newlyAcked nonempty notAll
            obtain ⟨enough, after, freed, isKept, acknowledged⟩ := @Keeps.markAcked content buffer
              keeps offset dataLength spanning.min sent
              (buffer.bytesAcked.add ⟨offset, offset + dataLength⟩) _
              (fun position => QuicIntervalSet.mem_add)
              (fun position => by
                rw [QuicIntervalSet.mem_difference, QuicIntervalSet.mem_ofInterval])
              first spanning.max
            rw [QuicIntervalSet.count] at enough freed acknowledged
            rw [if_neg (Nat.not_lt.mpr enough), isSpanning]
            dsimp only
            rw [freed]
            exact ⟨_, after, rfl, isKept, acknowledged⟩

/-! ## Losses -/

theorem mem_foldl_add {intervals : List (QuicInterval Nat)} {set : QuicIntervalSet Nat}
    {position : Nat} :
    position ∈ intervals.foldl QuicIntervalSet.add set ↔
      position ∈ set ∨ Covers intervals position := by
  induction intervals generalizing set with
  | nil => simp
  | cons interval rest ih =>
      rw [List.foldl_cons, ih, QuicIntervalSet.mem_add, covers_cons, or_assoc]

theorem mem_pending_lost {offset dataLength position : Nat} :
    position ∈ (buffer.onStreamDataLost offset dataLength).pendingRetransmissions ↔
      position ∈ buffer.pendingRetransmissions ∨
        ((offset ≤ position ∧ position < offset + dataLength) ∧ position ∉ buffer.bytesAcked) := by
  unfold onStreamDataLost
  split
  · next nothing =>
      refine (or_iff_left_of_imp fun impossible => ?_).symm
      omega
  · dsimp only
    rw [mem_foldl_add]
    refine or_congr_right (Iff.trans QuicIntervalSet.mem_difference ?_)
    rw [QuicIntervalSet.mem_ofInterval]

theorem mem_pending_retransmitted {offset dataLength position : Nat} :
    position ∈ (buffer.onStreamDataRetransmitted offset dataLength).pendingRetransmissions ↔
      position ∈ buffer.pendingRetransmissions ∧
        ¬ (offset ≤ position ∧ position < offset + dataLength) := by
  unfold onStreamDataRetransmitted
  split
  · next nothing =>
      refine (and_iff_left_of_imp fun _ impossible => ?_).symm
      omega
  · exact QuicIntervalSet.mem_differenceInterval

theorem onStreamDataLost_eq (offset dataLength : Nat) :
    buffer.onStreamDataLost offset dataLength = { buffer with
      pendingRetransmissions :=
        (buffer.onStreamDataLost offset dataLength).pendingRetransmissions } := by
  unfold onStreamDataLost
  split <;> rfl

theorem onStreamDataRetransmitted_eq (offset dataLength : Nat) :
    buffer.onStreamDataRetransmitted offset dataLength = { buffer with
      pendingRetransmissions :=
        (buffer.onStreamDataRetransmitted offset dataLength).pendingRetransmissions } := by
  unfold onStreamDataRetransmitted
  split <;> rfl

theorem Keeps.onStreamDataLost (keeps : Keeps content buffer) {offset dataLength : Nat}
    (sent : offset + dataLength ≤ buffer.streamBytesWritten) :
    Keeps content (buffer.onStreamDataLost offset dataLength) := by
  rw [onStreamDataLost_eq]
  refine ⟨keeps.stored, keeps.acked_lt, keeps.written_le, fun position isPending => ?_,
    keeps.outstanding⟩
  rcases mem_pending_lost.mp isPending with before | ⟨inside, unacked⟩
  · exact keeps.pending position before
  · exact ⟨by dsimp only; omega, unacked⟩

theorem Keeps.onStreamDataRetransmitted (keeps : Keeps content buffer) {offset dataLength : Nat} :
    Keeps content (buffer.onStreamDataRetransmitted offset dataLength) := by
  rw [onStreamDataRetransmitted_eq]
  exact ⟨keeps.stored, keeps.acked_lt, keeps.written_le,
    fun position isPending => keeps.pending position (mem_pending_retransmitted.mp isPending).1,
    keeps.outstanding⟩

theorem nextPendingRetransmission_pending
    (pending : buffer.hasPendingRetransmission = true) :
    0 < buffer.nextPendingRetransmission.length ∧
      ∀ position, buffer.nextPendingRetransmission.offset ≤ position →
        position < buffer.nextPendingRetransmission.offset +
          buffer.nextPendingRetransmission.length →
        position ∈ buffer.pendingRetransmissions := by
  have notEmpty : buffer.pendingRetransmissions.intervals ≠ [] := by
    intro nothing
    rw [hasPendingRetransmission, QuicIntervalSet.isEmpty, nothing] at pending
    cases pending
  obtain ⟨first, rest, shape⟩ := List.exists_cons_of_ne_nil notEmpty
  have isFirst : first ∈ buffer.pendingRetransmissions.intervals := shape ▸ List.mem_cons_self
  have nonempty := buffer.pendingRetransmissions.valid.nonempty first isFirst
  rw [QuicStreamSendBuffer.nextPendingRetransmission, shape, List.head?_cons]
  dsimp only
  refine ⟨by omega, fun position low high => ⟨first, isFirst, low, by omega⟩⟩

end QuicStreamSendBuffer

end Ns3Quic.Stream
