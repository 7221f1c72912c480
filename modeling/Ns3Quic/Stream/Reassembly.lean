import Ns3Quic.Lib.Run
import Ns3Quic.Stream.BufferReading

/-!
# A stream is put together in order

The frames of a stream arrive in any order, more than once and overlapping.  In
every run of the buffer the reader gets the bytes of the content one after the
other, and at each time exactly as many as have arrived without a gap.
-/

namespace Ns3Quic.Stream

open TransitionSystem

namespace QuicStreamSequencerBuffer

inductive Event where
  | streamData (startingOffset : Nat) (data : List UInt8) (result : StreamDataResult)
  | readv (lengths : List Nat) (bytes : List UInt8)
  | markConsumed (bytesConsumed : Nat) (consumed : Bool)
  | flushBufferedFrames (bytesFlushed : Nat)
  | clear
  | releaseWholeBuffer

/-- One call.  Its frame carries a part of the content; after too many intervals
the connection is closed and there are no more calls. -/
inductive Step (content : Nat → UInt8) :
    QuicStreamSequencerBuffer → Event → QuicStreamSequencerBuffer → Prop where
  | streamData {buffer after startingOffset data result} :
      Agrees content startingOffset data →
      startingOffset + data.length ≤ Session.kMaxStreamLength →
      buffer.onStreamData startingOffset data = .ok (result, after) →
      result.error ≠ .tooManyStreamDataIntervals →
      Step content buffer (.streamData startingOffset data result) after
  | readv {buffer after lengths bytes} :
      buffer.readv lengths = .ok (bytes, after) →
      Step content buffer (.readv lengths bytes) after
  | markConsumed {buffer after bytesConsumed consumed} :
      buffer.markConsumed bytesConsumed = .ok (consumed, after) →
      Step content buffer (.markConsumed bytesConsumed consumed) after
  | flushBufferedFrames {buffer} :
      Step content buffer (.flushBufferedFrames buffer.flushBufferedFrames.1)
        buffer.flushBufferedFrames.2
  | clear {buffer} : Step content buffer .clear buffer.clear
  | releaseWholeBuffer {buffer} :
      Step content buffer .releaseWholeBuffer buffer.releaseWholeBuffer

/-! ## What has been passed over and what is held -/

variable {content : Nat → UInt8} {buffer after : QuicStreamSequencerBuffer}

def Event.passes : Event → Nat
  | .readv _ bytes => bytes.length
  | .markConsumed bytesConsumed consumed => if consumed then bytesConsumed else 0
  | .flushBufferedFrames bytesFlushed => bytesFlushed
  | _ => 0

/-- The position of the reader after some calls. -/
def passed (events : List Event) : Nat := (events.map Event.passes).sum

def Event.keep (frames : List (QuicInterval Nat)) : Event → List (QuicInterval Nat)
  | .streamData startingOffset data result =>
      if result.error = .noError then frames ++ [frameInterval startingOffset data] else frames
  | .clear => []
  | .releaseWholeBuffer => []
  | _ => frames

/-- The frames that were taken, since the buffer was cleared last. -/
def taken (events : List Event) : List (QuicInterval Nat) := events.foldl Event.keep []

theorem passed_concat (events : List Event) (event : Event) :
    passed (events ++ [event]) = passed events + event.passes := by
  simp [passed]

theorem taken_concat (events : List Event) (event : Event) :
    taken (events ++ [event]) = event.keep (taken events) := by
  rw [taken, List.foldl_append]
  rfl

/-- The offsets of which the buffer knows after some calls. -/
def known (events : List Event) : QuicIntervalSet Nat :=
  (taken events).foldl .add (.ofInterval ⟨0, passed events⟩)

/-- The code with which a buffer of the given capacity answers a frame after some
calls. -/
def answer (maxCapacityBytes : Nat) (events : List Event) (startingOffset : Nat)
    (data : List UInt8) : QuicErrorCode :=
  if data = [] then .emptyStreamFrameNoFin
  else if passed events + maxCapacityBytes < startingOffset + data.length then .internalError
  else if kMaxNumDataIntervalsAllowed ≤
      ((known events).add (frameInterval startingOffset data)).size then
    .tooManyStreamDataIntervals
  else .noError

theorem mem_foldl_add {frames : List (QuicInterval Nat)} {set : QuicIntervalSet Nat}
    {offset : Nat} : offset ∈ frames.foldl .add set ↔ offset ∈ set ∨ Covers frames offset := by
  induction frames generalizing set with
  | nil => simp
  | cons frame rest ih =>
      rw [List.foldl_cons, ih, QuicIntervalSet.mem_add, covers_cons, or_assoc]

theorem mem_known {events : List Event} {offset : Nat} :
    offset ∈ known events ↔ offset < passed events ∨ Covers (taken events) offset := by
  rw [known, mem_foldl_add, QuicIntervalSet.mem_ofInterval]
  exact or_congr (and_iff_right (Nat.zero_le _)) Iff.rfl

structure Tracks (content : Nat → UInt8) (maxCapacityBytes : Nat) (events : List Event)
    (buffer : QuicStreamSequencerBuffer) : Prop where
  holds : Holds content buffer
  capacity : buffer.maxBufferCapacityBytes = maxCapacityBytes
  few : buffer.bytesReceived.size < kMaxNumDataIntervalsAllowed
  position : buffer.totalBytesRead = passed events
  received : ∀ offset, offset ∈ buffer.bytesReceived ↔
    offset < passed events ∨ Covers (taken events) offset

variable {maxCapacityBytes : Nat} {events : List Event} {event : Event}

theorem Tracks.bytesReceived (tracks : Tracks content maxCapacityBytes events buffer) :
    buffer.bytesReceived = known events :=
  QuicIntervalSet.ext_mem fun offset => by rw [tracks.received, mem_known]

theorem Tracks.unchanged (tracks : Tracks content maxCapacityBytes events buffer)
    (passes : event.passes = 0) (keeps : event.keep (taken events) = taken events) :
    Tracks content maxCapacityBytes (events ++ [event]) buffer := by
  refine ⟨tracks.holds, tracks.capacity, tracks.few, ?_, ?_⟩
  · rw [passed_concat, passes, tracks.position, Nat.add_zero]
  · rw [passed_concat, passes, taken_concat, keeps, Nat.add_zero]
    exact tracks.received

theorem Tracks.advanced (tracks : Tracks content maxCapacityBytes events buffer)
    (holds : Holds content after) (advanced : Advanced buffer after event.passes)
    (keeps : event.keep (taken events) = taken events) :
    Tracks content maxCapacityBytes (events ++ [event]) after := by
  have position : after.totalBytesRead = passed (events ++ [event]) := by
    rw [advanced.totalBytesRead, passed_concat, tracks.position]
  refine ⟨holds, advanced.capacity.trans tracks.capacity, advanced.bytesReceived ▸ tracks.few,
    position, fun offset => ?_⟩
  rw [taken_concat, keeps, advanced.bytesReceived, tracks.received, passed_concat]
  -- what is passed over was received
  constructor
  · rintro (before | covered)
    · exact .inl (by omega)
    · exact .inr covered
  · rintro (before | covered)
    · have received := holds.read offset (by rw [position, passed_concat]; exact before)
      rw [advanced.bytesReceived] at received
      exact (tracks.received offset).mp received
    · exact .inr covered

theorem Tracks.cleared (holds : Holds content after)
    (capacity : after.maxBufferCapacityBytes = maxCapacityBytes)
    (position : after.totalBytesRead = passed events)
    (left : after.bytesReceived = .ofInterval ⟨0, after.totalBytesRead⟩)
    (passes : event.passes = 0) (keeps : event.keep (taken events) = []) :
    Tracks content maxCapacityBytes (events ++ [event]) after := by
  refine ⟨holds, capacity, ?_, ?_, fun offset => ?_⟩
  · rw [left]
    exact (QuicIntervalSet.size_ofInterval_le _).trans_lt (by decide)
  · rw [passed_concat, passes, position, Nat.add_zero]
  · rw [left, QuicIntervalSet.mem_ofInterval, passed_concat, passes, taken_concat, keeps, position,
      or_iff_left (not_covers_nil _)]
    exact and_iff_right (Nat.zero_le _)

theorem Tracks.took {startingOffset : Nat} {data : List UInt8} {count : Nat}
    (tracks : Tracks content maxCapacityBytes events buffer) (holds : Holds content after)
    (took : Took buffer after (frameInterval startingOffset data)) :
    Tracks content maxCapacityBytes
      (events ++ [.streamData startingOffset data ⟨.noError, count, ""⟩]) after := by
  refine ⟨holds, took.capacity.trans tracks.capacity, ?_, ?_, fun offset => ?_⟩
  · rcases took.few with same | few
    · exact same ▸ tracks.few
    · exact few
  · rw [passed_concat, took.totalBytesRead, tracks.position]
    rfl
  · rw [passed_concat, taken_concat, took.received, tracks.received, or_assoc]
    refine or_congr Iff.rfl ?_
    rw [Event.keep, if_pos rfl, covers_append, covers_cons, or_iff_left (not_covers_nil _)]

theorem Tracks.step (tracks : Tracks content maxCapacityBytes events buffer)
    (step : Step content buffer event after) :
    Tracks content maxCapacityBytes (events ++ [event]) after := by
  have holds := tracks.holds
  cases step with
  | @streamData _ startingOffset data result agrees short performed fewIntervals =>
      rcases onStreamData_spec holds agrees short with
        ⟨-, refused⟩ | ⟨-, -, refused⟩ | ⟨-, -, -, last, tooMany⟩ |
        ⟨-, -, count, last, took, lastHolds, added⟩
      · obtain ⟨rfl, rfl⟩ := Prod.mk.inj (Except.ok.inj (performed.symm.trans refused))
        exact tracks.unchanged rfl rfl
      · obtain ⟨rfl, rfl⟩ := Prod.mk.inj (Except.ok.inj (performed.symm.trans refused))
        exact tracks.unchanged rfl rfl
      · obtain ⟨rfl, -⟩ := Prod.mk.inj (Except.ok.inj (performed.symm.trans tooMany))
        exact absurd rfl fewIntervals
      · obtain ⟨rfl, rfl⟩ := Prod.mk.inj (Except.ok.inj (performed.symm.trans took))
        exact tracks.took lastHolds added
  | @readv _ lengths bytes performed =>
      obtain ⟨last, read, lastHolds, advanced⟩ := holds.readv lengths
      obtain ⟨rfl, rfl⟩ := Prod.mk.inj (Except.ok.inj (performed.symm.trans read))
      refine tracks.advanced lastHolds ?_ rfl
      rw [Event.passes, length_slice]
      exact advanced
  | @markConsumed _ bytesConsumed consumed performed =>
      rcases holds.markConsumed bytesConsumed with
        ⟨-, refused⟩ | ⟨-, last, done, lastHolds, advanced⟩
      · obtain ⟨rfl, rfl⟩ := Prod.mk.inj (Except.ok.inj (performed.symm.trans refused))
        exact tracks.unchanged rfl rfl
      · obtain ⟨rfl, rfl⟩ := Prod.mk.inj (Except.ok.inj (performed.symm.trans done))
        exact tracks.advanced lastHolds advanced rfl
  | flushBufferedFrames =>
      obtain ⟨flushed, position, capacity, received⟩ := holds.flushBufferedFrames
      have moved : passed (events ++ [.flushBufferedFrames buffer.flushBufferedFrames.1]) =
          buffer.flushBufferedFrames.2.totalBytesRead := by
        rw [passed_concat, position, tracks.position]
        rfl
      refine ⟨flushed, capacity.trans tracks.capacity, ?_, moved.symm, fun offset => ?_⟩
      · exact (QuicIntervalSet.size_ofInterval_le _).trans_lt (by decide)
      · rw [received, ← position, moved, taken_concat]
        -- every frame taken ends where the flush has led to
        refine (or_iff_left_of_imp fun covered => ?_).symm
        exact lt_nextExpectedByte ((tracks.received offset).mpr (.inr covered))
  | clear =>
      exact Tracks.cleared (holds.shape.clear_holds holds.totalBytesRead_le) tracks.capacity
        tracks.position rfl rfl rfl
  | releaseWholeBuffer =>
      exact Tracks.cleared holds.releaseWholeBuffer tracks.capacity tracks.position rfl rfl rfl

theorem Tracks.of_run (someRoom : 0 < maxCapacityBytes) (fits : maxCapacityBytes ≤ 2 ^ 62)
    {onDemand : Bool}
    (run : Run (Step content) (new maxCapacityBytes onDemand) events buffer) :
    Tracks content maxCapacityBytes events buffer := by
  induction run with
  | start =>
      refine ⟨new_holds someRoom fits onDemand, rfl, ?_, rfl, fun offset => ?_⟩
      · exact (QuicIntervalSet.size_ofInterval_le _).trans_lt (by decide)
      · show offset ∈ QuicIntervalSet.ofInterval ⟨0, 0⟩ ↔ _
        simp [passed, taken]
  | snoc _ step ih => exact ih.step step

/-! ## What the calls answer -/

theorem Tracks.readable (tracks : Tracks content maxCapacityBytes events buffer) :
    (∀ distance < buffer.readableBytes, Covers (taken events) (passed events + distance)) ∧
      ¬ Covers (taken events) (passed events + buffer.readableBytes) := by
  have holds := tracks.holds
  refine ⟨fun distance short => ?_, fun covered => ?_⟩
  · have received := holds.readable_received short
    rw [tracks.position, tracks.received] at received
    exact received.resolve_left (Nat.not_lt.mpr (Nat.le_add_right _ _))
  · have received := (tracks.received _).mpr (.inr covered)
    rw [← tracks.position, readableBytes,
      Nat.add_sub_cancel' holds.totalBytesRead_le_firstMissingByte] at received
    exact firstMissingByte_spec.2 received

theorem Tracks.readv (tracks : Tracks content maxCapacityBytes events buffer)
    (lengths : List Nat) :
    ∃ after, buffer.readv lengths =
      .ok (slice content (passed events) (min lengths.sum buffer.readableBytes), after) := by
  obtain ⟨last, read, -⟩ := tracks.holds.readv lengths
  rw [tracks.position] at read
  exact ⟨last, read⟩

theorem Tracks.markConsumed (tracks : Tracks content maxCapacityBytes events buffer)
    (bytesConsumed : Nat) :
    ∃ after, buffer.markConsumed bytesConsumed =
      .ok (decide (bytesConsumed ≤ buffer.readableBytes), after) := by
  rcases tracks.holds.markConsumed bytesConsumed with
    ⟨tooMany, refused⟩ | ⟨readable, last, done, -⟩
  · rw [decide_eq_false (Nat.not_le.mpr tooMany)]
    exact ⟨buffer, refused⟩
  · rw [decide_eq_true readable]
    exact ⟨last, done⟩

theorem Tracks.numBytesBuffered (tracks : Tracks content maxCapacityBytes events buffer) :
    buffer.numBytesBuffered =
      ((offsets (taken events)).filter fun offset => passed events ≤ offset).card := by
  rw [tracks.holds.buffered]
  congr 1
  ext offset
  rw [mem_unread, Finset.mem_filter, mem_offsets, tracks.received, tracks.position]
  constructor
  · rintro ⟨before | covered, notRead⟩
    · exact absurd before (Nat.not_lt.mpr notRead)
    · exact ⟨covered, notRead⟩
  · exact fun both => ⟨.inr both.1, both.2⟩

theorem Tracks.onStreamData (tracks : Tracks content maxCapacityBytes events buffer)
    {startingOffset : Nat} {data : List UInt8} (agrees : Agrees content startingOffset data)
    (short : startingOffset + data.length ≤ Session.kMaxStreamLength) :
    ∃ result after, buffer.onStreamData startingOffset data = .ok (result, after) ∧
      result.error = answer maxCapacityBytes events startingOffset data := by
  unfold answer
  rw [← tracks.position, ← tracks.capacity, ← tracks.bytesReceived]
  rcases onStreamData_spec tracks.holds agrees short with
    ⟨empty, refused⟩ | ⟨nonempty, beyond, refused⟩ | ⟨nonempty, inRange, many, last, tooMany⟩ |
    ⟨nonempty, inRange, count, last, took, -, added⟩
  · refine ⟨_, _, refused, ?_⟩
    rw [if_pos empty]
  · refine ⟨_, _, refused, ?_⟩
    rw [if_neg nonempty, if_pos beyond]
  · refine ⟨_, _, tooMany, ?_⟩
    rw [if_neg nonempty, if_neg (Nat.not_lt.mpr inRange), if_pos many]
    rfl
  · refine ⟨_, _, took, ?_⟩
    rw [if_neg nonempty, if_neg (Nat.not_lt.mpr inRange), if_neg]
    rw [← added.bytesReceived, Nat.not_le]
    rcases added.few with same | few
    · exact same ▸ tracks.few
    · exact few

/-- In every run of the buffer over frames of one stream, whatever their order,
their overlaps and their repetitions and whatever is done in between, no call
reaches an invalid state.  A read hands out the bytes of the stream that follow
those passed over so far, as many as fit and have been received without a gap;
as many can be marked as consumed, and no more.  A frame is answered with the code
that the calls so far determine. -/
theorem reads_follow_stream (someRoom : 0 < maxCapacityBytes)
    (fits : maxCapacityBytes ≤ 2 ^ 62) {onDemand : Bool}
    (run : Run (Step content) (new maxCapacityBytes onDemand) events buffer) :
    (∃ readable,
      (∀ distance < readable, Covers (taken events) (passed events + distance)) ∧
      ¬ Covers (taken events) (passed events + readable) ∧
      buffer.readableBytes = readable ∧
      (∀ lengths, ∃ after, buffer.readv lengths =
        .ok (slice content (passed events) (min lengths.sum readable), after)) ∧
      ∀ bytesConsumed, ∃ after, buffer.markConsumed bytesConsumed =
        .ok (decide (bytesConsumed ≤ readable), after)) ∧
    buffer.numBytesBuffered =
      ((offsets (taken events)).filter fun offset => passed events ≤ offset).card ∧
    ∀ startingOffset data, Agrees content startingOffset data →
      startingOffset + data.length ≤ Session.kMaxStreamLength →
      ∃ result after, buffer.onStreamData startingOffset data = .ok (result, after) ∧
        result.error = answer maxCapacityBytes events startingOffset data := by
  have tracks := Tracks.of_run someRoom fits run
  exact ⟨⟨buffer.readableBytes, tracks.readable.1, tracks.readable.2, rfl, tracks.readv,
      tracks.markConsumed⟩,
    tracks.numBytesBuffered, fun _ _ agrees short => tracks.onStreamData agrees short⟩

def leaves {Result : Type} :
    Except BufferFault (Result × QuicStreamSequencerBuffer) → QuicStreamSequencerBuffer
  | .ok (_, after) => after
  | .error _ => new 0 false

def overlappingFrames : QuicStreamSequencerBuffer :=
  leaves ((leaves ((new 5 false).onStreamData 2 [2, 3])).onStreamData 0 [0, 1, 2])

/-- After a read a third frame, behind a gap, is written to the start of the ring. -/
def wrappedFrame : QuicStreamSequencerBuffer :=
  leaves ((leaves (overlappingFrames.readv [1, 2])).onStreamData 5 [5, 6])

theorem reads_follow_stream_wrapped :
    Run (Step UInt8.ofNat) (new 5 false)
      [.streamData 2 [2, 3] ⟨.noError, 2, ""⟩, .streamData 0 [0, 1, 2] ⟨.noError, 2, ""⟩,
        .readv [1, 2] [0, 1, 2], .streamData 5 [5, 6] ⟨.noError, 2, ""⟩] wrappedFrame ∧
    wrappedFrame.readableBytes = 1 ∧ ∃ after, wrappedFrame.readv [4] = .ok ([3], after) := by
  have first : (new 5 false).onStreamData 2 [2, 3] = .ok (⟨.noError, 2, ""⟩,
    leaves ((new 5 false).onStreamData 2 [2, 3])) := rfl
  have second : (leaves ((new 5 false).onStreamData 2 [2, 3])).onStreamData 0 [0, 1, 2] =
    .ok (⟨.noError, 2, ""⟩, overlappingFrames) := rfl
  have read : overlappingFrames.readv [1, 2] =
    .ok ([0, 1, 2], leaves (overlappingFrames.readv [1, 2])) := rfl
  have third : (leaves (overlappingFrames.readv [1, 2])).onStreamData 5 [5, 6] =
    .ok (⟨.noError, 2, ""⟩, wrappedFrame) := rfl
  have run := Run.cons
    (Step.streamData (agrees_slice UInt8.ofNat 2 2) (by decide) first (by decide))
    (.cons (.streamData (agrees_slice _ 0 3) (by decide) second (by decide))
      (.cons (.readv read)
        (.cons (.streamData (agrees_slice _ 5 2) (by decide) third (by decide)) .start)))
  obtain ⟨⟨readable, -, -, same, reads, -⟩, -⟩ := reads_follow_stream (by decide) (by decide) run
  obtain rfl : 1 = readable := same
  exact ⟨run, rfl, reads [4]⟩

end QuicStreamSequencerBuffer

end Ns3Quic.Stream
