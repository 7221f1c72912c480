import Ns3Quic.Stream.QuicIntervalDeque

/-!
# The buffer from which a stream is sent

`QuicStreamSendBuffer` keeps the bytes of a stream in slices from the time they
are written by the application until the peer has acknowledged them.  A slice of
which all bytes are acknowledged is emptied; empty slices at the front are
removed.  The lost bytes that are to be sent again are kept as a set of
intervals.

Reports of `QUIC_BUG` are left out where the call goes on; `current_end_offset_`
is only read by such reports.
-/

namespace Ns3Quic.Stream

structure BufferedSlice where
  /-- Empty once it has been reset. -/
  slice : List UInt8
  offset : Nat
  deriving DecidableEq, Repr

def BufferedSlice.interval (buffered : BufferedSlice) : QuicInterval Nat :=
  ⟨buffered.offset, buffered.offset + buffered.slice.length⟩

structure QuicStreamSendBuffer where
  intervalDeque : QuicIntervalDeque BufferedSlice
  streamOffset : Nat
  streamBytesWritten : Nat
  streamBytesOutstanding : Nat
  bytesAcked : QuicIntervalSet Nat
  pendingRetransmissions : QuicIntervalSet Nat

structure StreamPendingRetransmission where
  offset : Nat
  length : Nat
  deriving DecidableEq, Repr

namespace QuicStreamSendBuffer

def new : QuicStreamSendBuffer := ⟨.empty, 0, 0, 0, ∅, ∅⟩

def saveMemSlice (buffer : QuicStreamSendBuffer) (slice : List UInt8) : QuicStreamSendBuffer :=
  if slice.isEmpty then buffer
  else
    { buffer with
      intervalDeque :=
        buffer.intervalDeque.pushBack BufferedSlice.interval ⟨slice, buffer.streamOffset⟩
      streamOffset := buffer.streamOffset + slice.length }

def onStreamDataConsumed (buffer : QuicStreamSendBuffer) (bytesConsumed : Nat) :
    QuicStreamSendBuffer :=
  { buffer with
    streamBytesWritten := buffer.streamBytesWritten + bytesConsumed
    streamBytesOutstanding := buffer.streamBytesOutstanding + bytesConsumed }

/-! ## Writing to packets -/

/-- The loop of `WriteStreamData` over the slices from an index on, for a writer
with room for `room` bytes: the bytes written, whether all were, and the queue. -/
def writeLoop : List BufferedSlice → Nat → Nat → Nat → Nat → QuicIntervalDeque BufferedSlice →
    List UInt8 × Bool × QuicIntervalDeque BufferedSlice
  | [], _, _, dataLength, _, deque => ([], dataLength = 0, deque)
  | buffered :: rest, index, offset, dataLength, room, deque =>
      if dataLength = 0 || offset < buffered.offset then ([], dataLength = 0, deque)
      else
        let sliceOffset := offset - buffered.offset
        let copyLength := min dataLength (buffered.slice.length - sliceOffset)
        if room < copyLength then ([], false, deque)
        else
          let (bytes, done, deque) := writeLoop rest (index + 1) (offset + copyLength)
            (dataLength - copyLength) (room - copyLength) (deque.moveTo (index + 1))
          ((buffered.slice.drop sliceOffset).take copyLength ++ bytes, done, deque)

/-- `WriteStreamData`: the bytes written and whether these are all; `none` if the
queue is accessed outside its bounds. -/
def writeStreamData (buffer : QuicStreamSendBuffer) (offset dataLength room : Nat) :
    Option (List UInt8 × Bool × QuicStreamSendBuffer) :=
  (buffer.intervalDeque.dataAt BufferedSlice.interval offset).map fun (index, deque) =>
    let (bytes, done, deque) :=
      writeLoop (deque.container.drop index) index offset dataLength room deque
    (bytes, done, { buffer with intervalDeque := deque })

/-! ## Acknowledgements -/

/-- The loop of `FreeMemSlices`: empty the slices up to the end whose bytes are all
acknowledged, and count the slices that are visited. -/
def freeLoop (bytesAcked : QuicIntervalSet Nat) (end_ : Nat) :
    List BufferedSlice → List BufferedSlice × Nat
  | [] => ([], 0)
  | buffered :: rest =>
      if end_ ≤ buffered.offset then (buffered :: rest, 0)
      else
        let (slices, visited) := freeLoop bytesAcked end_ rest
        let emptied :=
          if !buffered.slice.isEmpty && bytesAcked.containsInterval buffered.interval then
            { buffered with slice := [] }
          else buffered
        (emptied :: slices, visited + 1)

/-- The queue after an iterator has gone over some items, one after the other. -/
def moveOver (deque : QuicIntervalDeque BufferedSlice) (index : Nat) :
    Nat → QuicIntervalDeque BufferedSlice
  | 0 => deque
  | visited + 1 => moveOver (deque.moveTo (index + 1)) (index + 1) visited

/-- Where `FreeMemSlices` starts, and the queue after the search. -/
def firstToFree (deque : QuicIntervalDeque BufferedSlice) (start : Nat) :
    Nat × QuicIntervalDeque BufferedSlice :=
  if deque.container.head?.any fun buffered => buffered.interval.contains start then (0, deque)
  else
    (deque.container.findIdx fun buffered =>
        !decide (buffered.offset + buffered.slice.length < start),
      deque.moveToEnd)

def freeMemSlices (buffer : QuicStreamSendBuffer) (start end_ : Nat) :
    Bool × QuicStreamSendBuffer :=
  if !buffer.intervalDeque.container.head?.any fun buffered => !buffered.slice.isEmpty then
    (false, buffer)
  else
    let (index, deque) := firstToFree buffer.intervalDeque start
    if !deque.container[index]?.any fun buffered => !buffered.slice.isEmpty then
      (false, { buffer with intervalDeque := deque })
    else
      let (slices, visited) := freeLoop buffer.bytesAcked end_ (deque.container.drop index)
      (true,
        { buffer with
          intervalDeque :=
            { moveOver deque index visited with
              container := deque.container.take index ++ slices } })

/-- The loop of `CleanUpBufferedSlices`. -/
def popEmpty : List BufferedSlice → QuicIntervalDeque BufferedSlice →
    QuicIntervalDeque BufferedSlice
  | [], deque => deque
  | buffered :: rest, deque =>
      if buffered.slice.isEmpty then popEmpty rest deque.popFront else deque

def cleanUpBufferedSlices (buffer : QuicStreamSendBuffer) : QuicStreamSendBuffer :=
  { buffer with intervalDeque := popEmpty buffer.intervalDeque.container buffer.intervalDeque }

/-- The end of both paths of `OnStreamDataAcked`. -/
def freeAndCleanUp (buffer : QuicStreamSendBuffer) (start end_ : Nat) :
    Bool × QuicStreamSendBuffer :=
  match buffer.freeMemSlices start end_ with
  | (false, buffer) => (false, buffer)
  | (true, buffer) => (true, buffer.cleanUpBufferedSlices)

/-- The condition of the shortcut in `OnStreamDataAcked`. -/
def allNewlyAcked (buffer : QuicStreamSendBuffer) (interval : QuicInterval Nat) : Bool :=
  match buffer.bytesAcked.intervals.getLast? with
  | none => true
  | some last => last.max ≤ interval.min || buffer.bytesAcked.isDisjoint interval

def markAcked (buffer : QuicStreamSendBuffer) (interval : QuicInterval Nat) (newlyAcked : Nat)
    (bytesAcked : QuicIntervalSet Nat) : QuicStreamSendBuffer :=
  { buffer with
    streamBytesOutstanding := buffer.streamBytesOutstanding - newlyAcked
    bytesAcked
    pendingRetransmissions := buffer.pendingRetransmissions.differenceInterval interval }

/-- `OnStreamDataAcked`: whether the acknowledgement is valid, the number of bytes
that are newly acknowledged, and the buffer. -/
def onStreamDataAcked (buffer : QuicStreamSendBuffer) (offset dataLength : Nat) :
    Bool × Nat × QuicStreamSendBuffer :=
  let interval : QuicInterval Nat := ⟨offset, offset + dataLength⟩
  if dataLength = 0 then (true, 0, buffer)
  else if buffer.allNewlyAcked interval then
    if buffer.streamBytesOutstanding < dataLength then (false, 0, buffer)
    else
      let (valid, buffer) := (buffer.markAcked interval dataLength
        (buffer.bytesAcked.addOptimizedForAppend interval)).freeAndCleanUp offset
        (offset + dataLength)
      (valid, dataLength, buffer)
  else if buffer.bytesAcked.containsInterval interval then (true, 0, buffer)
  else
    let newlyAcked := (QuicIntervalSet.ofInterval interval).difference buffer.bytesAcked
    let newlyAckedLength := totalLength newlyAcked.intervals
    if buffer.streamBytesOutstanding < newlyAckedLength then (false, newlyAckedLength, buffer)
    else
      let buffer := buffer.markAcked interval newlyAckedLength (buffer.bytesAcked.add interval)
      match newlyAcked.spanningInterval with
      | none => (true, newlyAckedLength, buffer)
      | some spanning =>
          let (valid, buffer) := buffer.freeAndCleanUp spanning.min spanning.max
          (valid, newlyAckedLength, buffer)

/-! ## Losses -/

def onStreamDataLost (buffer : QuicStreamSendBuffer) (offset dataLength : Nat) :
    QuicStreamSendBuffer :=
  if dataLength = 0 then buffer
  else
    let bytesLost :=
      (QuicIntervalSet.ofInterval ⟨offset, offset + dataLength⟩).difference buffer.bytesAcked
    { buffer with
      pendingRetransmissions :=
        bytesLost.intervals.foldl QuicIntervalSet.add buffer.pendingRetransmissions }

def onStreamDataRetransmitted (buffer : QuicStreamSendBuffer) (offset dataLength : Nat) :
    QuicStreamSendBuffer :=
  if dataLength = 0 then buffer
  else
    { buffer with
      pendingRetransmissions :=
        buffer.pendingRetransmissions.differenceInterval ⟨offset, offset + dataLength⟩ }

def hasPendingRetransmission (buffer : QuicStreamSendBuffer) : Bool :=
  !buffer.pendingRetransmissions.isEmpty

/-- `NextPendingRetransmission`; zero bytes if there are none. -/
def nextPendingRetransmission (buffer : QuicStreamSendBuffer) : StreamPendingRetransmission :=
  match buffer.pendingRetransmissions.intervals.head? with
  | none => ⟨0, 0⟩
  | some pending => ⟨pending.min, pending.max - pending.min⟩

end QuicStreamSendBuffer

end Ns3Quic.Stream
