import Ns3Quic.Lib.Run
import Mathlib.Algebra.Ring.Nat

/-!
# Writing to a stream

`Ns3TransportStream::Write` hands its bytes to `QuicStream::WriteMemSlices`,
which saves all of them in the send buffer or none.  What the session makes of
buffered data, and whether it closes the stream while it sends, is an argument
of the model.  The length of a stream is taken to stay below `2 ^ 64`.
-/

namespace Ns3Quic.Session

open TransitionSystem

inductive StreamError where
  | lengthOverflow
  | readUnidirectional
  /-- The input of `Write` was consumed in part. -/
  | internalError
  deriving DecidableEq

structure QuicStream where
  /-- Every byte saved in `send_buffer_`, also if it has been sent;
  `stream_offset()` is their number. -/
  saved : List UInt8
  /-- `stream_bytes_written()`. -/
  bytesWritten : Nat
  written_le : bytesWritten ≤ saved.length
  finBuffered : Bool
  finSent : Bool
  writeSideClosed : Bool
  /-- Whether `type_` is `READ_UNIDIRECTIONAL`. -/
  readUnidirectional : Bool
  bufferedDataThreshold : Nat
  /-- The calls of `OnUnrecoverableError`. -/
  errors : List StreamError
  deriving DecidableEq

structure QuicConsumedData where
  bytesConsumed : Nat
  finConsumed : Bool
  deriving DecidableEq

/-- What the session answers when buffered data is to be sent. -/
structure SessionAnswer where
  shouldYield : Bool
  /-- The smaller of the windows of the stream and of the connection. -/
  sendWindow : Nat
  consumed : QuicConsumedData
  /-- A write error closes the write side. -/
  writeError : Bool
  deriving DecidableEq

def kMaxStreamLength : Nat := 2 ^ 62 - 1

namespace QuicStream

def create (bufferedDataThreshold : Nat) : QuicStream where
  saved := []
  bytesWritten := 0
  written_le := le_refl 0
  finBuffered := false
  finSent := false
  writeSideClosed := false
  readUnidirectional := false
  bufferedDataThreshold := bufferedDataThreshold
  errors := []

def bufferedDataBytes (stream : QuicStream) : Nat := stream.saved.length - stream.bytesWritten

def hasBufferedData (stream : QuicStream) : Bool :=
  decide (stream.bytesWritten < stream.saved.length)

def canWriteNewData (stream : QuicStream) : Bool :=
  decide (stream.bufferedDataBytes < stream.bufferedDataThreshold)

/-- The connection is closed, and with it the write side. -/
def onUnrecoverableError (stream : QuicStream) (error : StreamError) : QuicStream :=
  { stream with errors := stream.errors ++ [error], writeSideClosed := true }

/-- `SaveMemSliceSpan`, which saves the whole span. -/
def saveMemSliceSpan (stream : QuicStream) (span : List (List UInt8)) : QuicStream :=
  { stream with
    saved := stream.saved ++ span.flatten
    written_le := by
      rw [List.length_append]
      exact le_trans stream.written_le (Nat.le_add_right _ _) }

/-- The session consumes no more than is buffered. -/
def onStreamDataConsumed (stream : QuicStream) (bytes : Nat) : QuicStream :=
  { stream with
    bytesWritten := stream.bytesWritten + min bytes stream.bufferedDataBytes
    written_le := by
      have written := stream.written_le
      unfold bufferedDataBytes
      omega }

def writeBufferedData (stream : QuicStream) (answer : SessionAnswer) : QuicStream :=
  if answer.shouldYield then
    stream
  else
    let finWithZeroData := stream.finBuffered && stream.bufferedDataBytes == 0
    if answer.sendWindow = 0 ∧ !finWithZeroData then
      stream
    else
      -- the FIN is not sent unless all the data is
      let fin := stream.finBuffered && decide (stream.bufferedDataBytes ≤ answer.sendWindow)
      let writeLength := min stream.bufferedDataBytes answer.sendWindow
      let consumed := min answer.consumed.bytesConsumed writeLength
      let stream := stream.onStreamDataConsumed consumed
      if answer.writeError then
        { stream with writeSideClosed := true }
      else if consumed = writeLength ∧ fin ∧ answer.consumed.finConsumed then
        { stream with finSent := true, writeSideClosed := true }
      else
        stream

def writeMemSlices (stream : QuicStream) (span : List (List UInt8)) (fin : Bool)
    (answer : SessionAnswer) : QuicConsumedData × QuicStream :=
  if span.isEmpty && !fin then
    (⟨0, false⟩, stream)
  else if stream.finBuffered then
    (⟨0, false⟩, stream)
  else if stream.writeSideClosed then
    (⟨0, false⟩,
      if stream.readUnidirectional then stream.onUnrecoverableError .readUnidirectional
      else stream)
  else
    let hadBufferedData := stream.hasBufferedData
    let flush (consumed : QuicConsumedData) (stream : QuicStream) :=
      let stream := { stream with finBuffered := consumed.finConsumed }
      (consumed,
        if !hadBufferedData && (stream.hasBufferedData || stream.finBuffered) then
          stream.writeBufferedData answer
        else
          stream)
    if stream.canWriteNewData || span.isEmpty then
      let consumed := ⟨span.flatten.length, fin⟩
      let stream := stream.saveMemSliceSpan span
      if kMaxStreamLength < stream.saved.length then
        (consumed, stream.onUnrecoverableError .lengthOverflow)
      else
        flush consumed stream
    else
      flush ⟨0, false⟩ stream

def canWrite (stream : QuicStream) : Bool := stream.canWriteNewData && !stream.writeSideClosed

/-- `Ns3TransportStream::Write` with a pointer that is not null. -/
def write (stream : QuicStream) (data : List UInt8) (fin : Bool) (answer : SessionAnswer) :
    Bool × QuicStream :=
  if !stream.canWrite then
    (false, stream)
  else
    let (consumed, stream) := stream.writeMemSlices [data] fin answer
    if consumed.bytesConsumed = data.length then
      (true, stream)
    else if consumed.bytesConsumed = 0 then
      (false, stream)
    else
      (false, stream.onUnrecoverableError .internalError)

/-! ## All or nothing -/

variable {stream : QuicStream} {data : List UInt8} {fin : Bool} {answer : SessionAnswer}

theorem saved_saveMemSliceSpan (stream : QuicStream) (data : List UInt8) :
    (stream.saveMemSliceSpan [data]).saved = stream.saved ++ data := by
  simp [saveMemSliceSpan]

theorem writeBufferedData_frame (stream : QuicStream) (answer : SessionAnswer) :
    (stream.writeBufferedData answer).saved = stream.saved ∧
      (stream.writeBufferedData answer).finBuffered = stream.finBuffered ∧
      (stream.writeBufferedData answer).errors = stream.errors := by
  unfold writeBufferedData
  split
  next => exact ⟨rfl, rfl, rfl⟩
  next =>
    dsimp only
    split
    next => exact ⟨rfl, rfl, rfl⟩
    next =>
      split
      next => exact ⟨rfl, rfl, rfl⟩
      next => split <;> exact ⟨rfl, rfl, rfl⟩

/-- A stream takes new data unless it is closed, full, or at its end. -/
def accepts (stream : QuicStream) : Bool := stream.canWrite && !stream.finBuffered

structure Appended (stream : QuicStream) (data : List UInt8) (fin : Bool) (next : QuicStream) :
    Prop where
  saved : next.saved = stream.saved ++ data
  within : stream.saved.length + data.length ≤ kMaxStreamLength →
    next.finBuffered = fin ∧ next.errors = stream.errors

theorem writeMemSlices_of_accepts (accepts : stream.accepts = true) (data : List UInt8)
    (fin : Bool) (answer : SessionAnswer) :
    (stream.writeMemSlices [data] fin answer).1 = ⟨data.length, fin⟩ ∧
      Appended stream data fin (stream.writeMemSlices [data] fin answer).2 := by
  simp only [QuicStream.accepts, canWrite, Bool.and_eq_true, Bool.not_eq_true'] at accepts
  obtain ⟨⟨below, isOpen⟩, unfinished⟩ := accepts
  have length : [data].flatten.length = data.length := by simp
  have saved := stream.saved_saveMemSliceSpan data
  unfold writeMemSlices
  simp only [List.isEmpty_cons, Bool.false_and, unfinished, isOpen, below, Bool.true_or,
    Bool.false_eq_true, if_false, if_true]
  split
  next tooLong =>
    refine ⟨by rw [length], saved, fun fits => ?_⟩
    rw [saved, List.length_append] at tooLong
    omega
  next =>
    refine ⟨by rw [length], ?_⟩
    dsimp only
    split
    next =>
      obtain ⟨sameSaved, finBuffered, errors⟩ := writeBufferedData_frame
        { stream.saveMemSliceSpan [data] with finBuffered := fin } answer
      exact ⟨sameSaved.trans saved, fun _ => ⟨finBuffered, errors⟩⟩
    next => exact ⟨saved, fun _ => ⟨rfl, rfl⟩⟩

theorem write_of_accepts (accepts : stream.accepts = true) (data : List UInt8)
    (fin : Bool) (answer : SessionAnswer) :
    (stream.write data fin answer).1 = true ∧
      Appended stream data fin (stream.write data fin answer).2 := by
  obtain ⟨consumed, appended⟩ := writeMemSlices_of_accepts accepts data fin answer
  have writable : stream.canWrite = true := (Bool.and_eq_true_iff.mp accepts).1
  unfold write
  rw [writable, Bool.not_true, if_neg Bool.false_ne_true]
  dsimp only
  rw [consumed, if_pos rfl]
  exact ⟨rfl, appended⟩

theorem write_of_refuses (refuses : stream.accepts = false) (nonempty : data ≠ [])
    (fin : Bool) (answer : SessionAnswer) : stream.write data fin answer = (false, stream) := by
  unfold write
  split
  next => rfl
  next writable =>
    have finished : stream.finBuffered = true := by
      simp only [QuicStream.accepts] at refuses
      simp_all
    have length : 0 ≠ data.length := fun zero => nonempty (List.length_eq_zero_iff.mp zero.symm)
    unfold writeMemSlices
    simp only [List.isEmpty_cons, Bool.false_and, Bool.false_eq_true, if_false, finished, if_true,
      if_neg length]

end QuicStream

/-! ## The bandwidth channel -/

/-- `kContent`, after `ContentInit`. -/
def kContent (v : UInt8) : List UInt8 := List.replicate 1500 v

def kWritePackets : Nat := 6

/-- `kWriteDelta`, in microseconds. -/
def kWriteDelta : Nat := 50000

structure BandwidthWriteChannel where
  stream : QuicStream
  writeBytes : UInt32
  /-- The deadline of `alarm_`, if it is set. -/
  alarm : Option Nat
  deriving DecidableEq

/-- The calls of a channel, and what happens to its stream between them.  The
answers are those of the session to the writes of one call. -/
inductive ChannelEvent where
  | startFillData (now : Nat) (answers : Nat → SessionAnswer)
  | onTimeout (now : Nat) (answers : Nat → SessionAnswer)
  | onCanWrite (answers : Nat → SessionAnswer)
  /-- The session sends buffered data. -/
  | writeBufferedData (answer : SessionAnswer)
  | closeWriteSide

namespace BandwidthWriteChannel

def create (stream : QuicStream) : BandwidthWriteChannel := ⟨stream, 0, none⟩

def writePackets (content : List UInt8) (answers : Nat → SessionAnswer) :
    Nat → BandwidthWriteChannel → BandwidthWriteChannel
  | 0, channel => channel
  | rounds + 1, channel =>
      match channel.stream.write content false (answers rounds) with
      | (false, stream) => { channel with stream := stream }
      | (true, stream) =>
          writePackets content answers rounds
            { channel with stream := stream, writeBytes := channel.writeBytes + 1500 }

def writeData (channel : BandwidthWriteChannel) (v : UInt8) (answers : Nat → SessionAnswer) :
    BandwidthWriteChannel :=
  writePackets (kContent v) answers kWritePackets channel

/-- `v` is the character of `ContentInit`. -/
def perform (v : UInt8) (channel : BandwidthWriteChannel) : ChannelEvent → BandwidthWriteChannel
  | .startFillData now answers =>
      { channel.writeData v answers with alarm := some (now + kWriteDelta) }
  | .onTimeout now answers =>
      { channel.writeData v answers with alarm := some (now + kWriteDelta) }
  | .onCanWrite answers => channel.writeData v answers
  | .writeBufferedData answer =>
      { channel with stream := channel.stream.writeBufferedData answer }
  | .closeWriteSide =>
      { channel with stream := { channel.stream with writeSideClosed := true } }

def Step (v : UInt8) (channel : BandwidthWriteChannel) (event : ChannelEvent)
    (next : BandwidthWriteChannel) : Prop :=
  next = channel.perform v event

structure Counts (first : List UInt8) (channel : BandwidthWriteChannel) : Prop where
  appended : first.length ≤ channel.stream.saved.length
  counted : channel.writeBytes.toNat = (channel.stream.saved.length - first.length) % 2 ^ 32

variable {first : List UInt8} {channel : BandwidthWriteChannel}

theorem counts_create (stream : QuicStream) : Counts stream.saved (create stream) where
  appended := le_refl _
  counted := by simp [create]

theorem Counts.writePackets (counts : Counts first channel) {content : List UInt8}
    (length : content.length = 1500) (answers : Nat → SessionAnswer) (rounds : Nat) :
    Counts first (channel.writePackets content answers rounds) := by
  induction rounds generalizing channel with
  | zero => exact counts
  | succ rounds inductionHypothesis =>
      rw [BandwidthWriteChannel.writePackets]
      cases accepts : channel.stream.accepts with
      | false =>
          have nonempty : content ≠ [] := by
            rintro rfl
            cases length
          rw [QuicStream.write_of_refuses accepts nonempty]
          exact counts
      | true =>
          obtain ⟨success, appended⟩ :=
            QuicStream.write_of_accepts accepts content false (answers rounds)
          generalize channel.stream.write content false (answers rounds) = result at *
          obtain ⟨result, stream⟩ := result
          dsimp only at success appended
          subst success
          have saved := congrArg List.length appended.saved
          rw [List.length_append, length] at saved
          obtain ⟨before, counted⟩ := counts
          apply inductionHypothesis
          constructor
          · dsimp only
            omega
          · dsimp only
            rw [UInt32.toNat_add, counted, saved]
            have step : UInt32.toNat 1500 = 1500 := rfl
            omega

theorem Counts.perform (counts : Counts first channel) (v : UInt8) (event : ChannelEvent) :
    Counts first (channel.perform v event) := by
  have written (answers : Nat → SessionAnswer) : Counts first (channel.writeData v answers) :=
    counts.writePackets List.length_replicate answers kWritePackets
  cases event with
  | startFillData now answers => exact ⟨(written answers).appended, (written answers).counted⟩
  | onTimeout now answers => exact ⟨(written answers).appended, (written answers).counted⟩
  | onCanWrite answers => exact written answers
  | writeBufferedData answer =>
      obtain ⟨saved, _, _⟩ := channel.stream.writeBufferedData_frame answer
      obtain ⟨appended, counted⟩ := counts
      rw [← saved] at appended counted
      exact ⟨appended, counted⟩
  | closeWriteSide => exact ⟨counts.appended, counts.counted⟩

end BandwidthWriteChannel

/-- A write of at least one byte appends all of it and its FIN, and says so, or
leaves the stream as it is; it never consumes a part.  So the counter of a
bandwidth channel is the number of bytes appended, modulo `2 ^ 32`. -/
theorem write_all_or_nothing (stream : QuicStream) {data : List UInt8} (nonempty : data ≠ [])
    (fin : Bool) (answer : SessionAnswer)
    (fits : stream.saved.length + data.length ≤ kMaxStreamLength) :
    ((stream.write data fin answer).1 = true ↔
      (stream.write data fin answer).2.saved = stream.saved ++ data ∧
        (fin = true → (stream.write data fin answer).2.finBuffered = true)) ∧
    ((stream.write data fin answer).1 = false → (stream.write data fin answer).2 = stream) ∧
    (stream.write data fin answer).2.errors = stream.errors ∧
    ∀ (v : UInt8) (events : List ChannelEvent) (last : BandwidthWriteChannel),
      Run (BandwidthWriteChannel.Step v) (.create stream) events last →
      last.writeBytes.toNat = (last.stream.saved.length - stream.saved.length) % 2 ^ 32 := by
  have counted : ∀ (v : UInt8) (events : List ChannelEvent) (last : BandwidthWriteChannel),
      Run (BandwidthWriteChannel.Step v) (.create stream) events last →
      last.writeBytes.toNat = (last.stream.saved.length - stream.saved.length) % 2 ^ 32 := by
    intro v events last run
    refine (run.invariant (BandwidthWriteChannel.Counts stream.saved)
      (BandwidthWriteChannel.counts_create stream) ?_).counted
    rintro channel event next counts rfl
    exact counts.perform v event
  cases accepts : stream.accepts with
  | false =>
      rw [QuicStream.write_of_refuses accepts nonempty]
      refine ⟨iff_of_false Bool.false_ne_true ?_, fun _ => rfl, rfl, counted⟩
      rintro ⟨unchanged, _⟩
      exact nonempty (List.self_eq_append_right.mp unchanged)
  | true =>
      obtain ⟨success, saved, within⟩ := QuicStream.write_of_accepts accepts data fin answer
      obtain ⟨finBuffered, errors⟩ := within fits
      refine ⟨iff_of_true success ⟨saved, fun isFin => finBuffered.trans isFin⟩, ?_, errors,
        counted⟩
      rw [success]
      exact fun impossible => nomatch impossible

def sampleAnswer : SessionAnswer := ⟨false, 65536, ⟨65536, true⟩, false⟩

/-- Three bytes and the FIN. -/
theorem write_all_or_nothing_three :
    ((QuicStream.create 8192).write [1, 2, 3] true sampleAnswer).2.saved = [1, 2, 3] ∧
      ((QuicStream.create 8192).write [1, 2, 3] true sampleAnswer).2.finBuffered = true := by
  obtain ⟨saved, finBuffered⟩ := (write_all_or_nothing (.create 8192)
    (List.cons_ne_nil 1 [2, 3]) true sampleAnswer (by decide)).1.mp (by decide)
  exact ⟨saved, finBuffered rfl⟩

end Ns3Quic.Session
