import Ns3Quic.Lib.Run
import Ns3Quic.Stream.BufferReading
import Ns3Quic.Stream.SendBufferInvariant

/-!
# A stream from end to end

The send buffer of a stream is connected with the receive buffer of the peer by a
network that loses, repeats and reorders packets.  `QuicStream` writes new bytes
and lost ones to frames, and the send buffer learns which frames were
acknowledged and which are taken for lost, rightly or not.

No byte is forgotten on the way: every byte that was sent is acknowledged, waits
to be sent again or is in flight, and what is acknowledged has been received.

The end of the stream and flow control are left out: a frame that the receiver
does not take closes the connection, so that the run ends there.
-/

namespace Ns3Quic.Stream

open TransitionSystem

structure QuicStreamFrame where
  offset : Nat
  data : List UInt8
  deriving DecidableEq, Repr

def QuicStreamFrame.Carries (frame : QuicStreamFrame) (position : Nat) : Prop :=
  frame.offset ≤ position ∧ position < frame.offset + frame.data.length

def Carried (frames : List QuicStreamFrame) (position : Nat) : Prop :=
  ∃ frame ∈ frames, frame.Carries position

theorem carried_append {front back : List QuicStreamFrame} {position : Nat} :
    Carried (front ++ back) position ↔ Carried front position ∨ Carried back position := by
  simp only [Carried, List.mem_append, or_and_right, exists_or]

theorem Carried.erase {frames : List QuicStreamFrame} {position : Nat}
    (carried : Carried frames position) (frame : QuicStreamFrame) :
    Carried (frames.erase frame) position ∨ frame.Carries position := by
  obtain ⟨carrying, membership, carries⟩ := carried
  by_cases same : carrying = frame
  · exact .inr (same ▸ carries)
  · exact .inl ⟨carrying, (List.mem_erase_of_ne same).mpr membership, carries⟩

/-! ## Frames of a stream -/

def framesOf (content : Nat → UInt8) : Nat → List Nat → List QuicStreamFrame
  | _, [] => []
  | offset, part :: parts =>
      ⟨offset, slice content offset part⟩ :: framesOf content (offset + part) parts

theorem framesOf_spec {content : Nat → UInt8} {offset : Nat} {parts : List Nat}
    (positive : ∀ part ∈ parts, 0 < part) :
    ∀ frame ∈ framesOf content offset parts, Agrees content frame.offset frame.data ∧
      0 < frame.data.length ∧ frame.offset + frame.data.length ≤ offset + parts.sum := by
  induction parts generalizing offset with
  | nil => exact fun _ membership => absurd membership List.not_mem_nil
  | cons part parts ih =>
      obtain ⟨first, others⟩ := List.forall_mem_cons.mp positive
      refine List.forall_mem_cons.mpr ⟨⟨agrees_slice _ _ _, ?_, ?_⟩, fun frame membership => ?_⟩
      · rw [length_slice]
        exact first
      · rw [List.sum_cons, length_slice]
        exact Nat.add_le_add_left (Nat.le_add_right _ _) offset
      · rw [List.sum_cons, ← Nat.add_assoc]
        exact ih others frame membership

theorem carried_framesOf {content : Nat → UInt8} {offset position : Nat} {parts : List Nat}
    (low : offset ≤ position) (high : position < offset + parts.sum) :
    Carried (framesOf content offset parts) position := by
  induction parts generalizing offset with
  | nil =>
      rw [List.sum_nil] at high
      omega
  | cons part parts ih =>
      rw [List.sum_cons] at high
      rcases Nat.lt_or_ge position (offset + part) with here | further
      · refine ⟨_, List.mem_cons_self, low, ?_⟩
        rw [length_slice]
        exact here
      · obtain ⟨frame, membership, carries⟩ := ih further (by omega)
        exact ⟨frame, List.mem_cons_of_mem _ membership, carries⟩

namespace QuicStreamSendBuffer

variable {content : Nat → UInt8} {buffer : QuicStreamSendBuffer}

/-- What `WritevData` makes of the bytes from an offset on when it writes frames
with the given numbers of bytes; `none` if bytes are missing. -/
def writevData (buffer : QuicStreamSendBuffer) (offset : Nat) :
    List Nat → Option (List QuicStreamFrame × QuicStreamSendBuffer)
  | [] => some ([], buffer)
  | part :: parts =>
      match buffer.writeStreamData offset part part with
      | some (bytes, true, buffer) =>
          (buffer.writevData (offset + part) parts).map fun (frames, buffer) =>
            (⟨offset, bytes⟩ :: frames, buffer)
      | _ => none

/-- `WriteBufferedData`, of which as many bytes are consumed as the parts have. -/
def writeBufferedData (buffer : QuicStreamSendBuffer) (parts : List Nat) :
    Option (List QuicStreamFrame × QuicStreamSendBuffer) :=
  (buffer.writevData buffer.streamBytesWritten parts).map fun (frames, buffer) =>
    (frames, buffer.onStreamDataConsumed parts.sum)

/-- One round of `WritePendingRetransmission` or `RetransmitStreamData`. -/
def retransmit (buffer : QuicStreamSendBuffer) (offset : Nat) (parts : List Nat) :
    Option (List QuicStreamFrame × QuicStreamSendBuffer) :=
  (buffer.writevData offset parts).map fun (frames, buffer) =>
    (frames, buffer.onStreamDataRetransmitted offset parts.sum)

theorem Keeps.writevData (keeps : Keeps content buffer) {offset : Nat} {parts : List Nat}
    (positive : ∀ part ∈ parts, 0 < part) (saved : offset + parts.sum ≤ buffer.streamOffset)
    (unacked : ∀ position, offset ≤ position → position < offset + parts.sum →
      position ∉ buffer.bytesAcked) :
    ∃ deque, buffer.writevData offset parts =
        some (framesOf content offset parts, { buffer with intervalDeque := deque }) ∧
      Keeps content { buffer with intervalDeque := deque } := by
  induction parts generalizing buffer offset with
  | nil => exact ⟨buffer.intervalDeque, rfl, keeps⟩
  | cons part parts ih =>
      rw [List.sum_cons] at saved unacked
      obtain ⟨deque, written, kept⟩ := @Keeps.writeStreamData content buffer keeps offset part part
        (positive part List.mem_cons_self) (by omega)
        (fun position low high => unacked position low (by omega)) (Nat.le_refl _)
      obtain ⟨last, rest, lastKept⟩ := @ih { buffer with intervalDeque := deque } kept
        (offset + part)
        (fun other membership => positive other (List.mem_cons_of_mem _ membership))
        (by rw [Nat.add_assoc]; exact saved)
        (fun position low high => unacked position (by omega) (by omega))
      refine ⟨last, ?_, lastKept⟩
      rw [QuicStreamSendBuffer.writevData, written]
      dsimp only
      rw [rest]
      rfl

theorem Keeps.writeBufferedData (keeps : Keeps content buffer) {parts : List Nat}
    (positive : ∀ part ∈ parts, 0 < part)
    (saved : buffer.streamBytesWritten + parts.sum ≤ buffer.streamOffset) :
    ∃ deque, buffer.writeBufferedData parts =
        some (framesOf content buffer.streamBytesWritten parts,
          ({ buffer with intervalDeque := deque } : QuicStreamSendBuffer).onStreamDataConsumed
            parts.sum) ∧
      Keeps content (({ buffer with intervalDeque := deque } :
        QuicStreamSendBuffer).onStreamDataConsumed parts.sum) := by
  obtain ⟨deque, written, kept⟩ := keeps.writevData positive saved fun position low _ acked =>
    absurd (keeps.acked_lt position acked) (Nat.not_lt.mpr low)
  refine ⟨deque, ?_, kept.onStreamDataConsumed saved⟩
  rw [QuicStreamSendBuffer.writeBufferedData, written]
  rfl

theorem Keeps.retransmit (keeps : Keeps content buffer) {offset : Nat} {parts : List Nat}
    (positive : ∀ part ∈ parts, 0 < part) (saved : offset + parts.sum ≤ buffer.streamOffset)
    (unacked : ∀ position, offset ≤ position → position < offset + parts.sum →
      position ∉ buffer.bytesAcked) :
    ∃ deque, buffer.retransmit offset parts =
        some (framesOf content offset parts,
          ({ buffer with intervalDeque := deque } : QuicStreamSendBuffer).onStreamDataRetransmitted
            offset parts.sum) ∧
      Keeps content (({ buffer with intervalDeque := deque } :
        QuicStreamSendBuffer).onStreamDataRetransmitted offset parts.sum) := by
  obtain ⟨deque, written, kept⟩ := keeps.writevData positive saved unacked
  refine ⟨deque, ?_, kept.onStreamDataRetransmitted⟩
  rw [QuicStreamSendBuffer.retransmit, written]
  rfl

end QuicStreamSendBuffer

/-! ## The system -/

structure Transfer where
  sender : QuicStreamSendBuffer
  receiver : QuicStreamSequencerBuffer
  /-- Every frame that was written to a packet. -/
  sent : List QuicStreamFrame
  /-- The frames in packets that are neither acknowledged nor taken for lost. -/
  inFlight : List QuicStreamFrame
  /-- The frames that the receiver has taken. -/
  delivered : List QuicStreamFrame
  /-- What the application of the receiver has read. -/
  read : List UInt8

inductive TransferEvent where
  /-- The application writes some more bytes. -/
  | saveMemSlice (length : Nat)
  | writeBufferedData (parts : List Nat)
  | writePendingRetransmission (parts : List Nat)
  /-- A part of a frame that is not acknowledged is sent again before it is lost. -/
  | retransmitStreamData (frame : QuicStreamFrame) (interval : QuicInterval Nat) (parts : List Nat)
  /-- A packet arrives, perhaps not for the first time. -/
  | onStreamFrame (frame : QuicStreamFrame)
  | onStreamFrameAcked (frame : QuicStreamFrame)
  | onStreamFrameLost (frame : QuicStreamFrame)
  | readv (lengths : List Nat)

inductive TransferFault where
  /-- Bytes that are to be sent are not in the buffer. -/
  | missingData
  /-- `Trying to ack unsent data.` -/
  | unsentAcked
  | receiver (fault : BufferFault)
  /-- The frame is not taken and the connection is closed. -/
  | refused (error : QuicErrorCode)

namespace Transfer

open QuicStreamSendBuffer QuicStreamSequencerBuffer

def new (maxCapacityBytes : Nat) (onDemand : Bool) : Transfer :=
  ⟨.new, .new maxCapacityBytes onDemand, [], [], [], []⟩

def unackedParts (state : Transfer) (frame : QuicStreamFrame) : QuicIntervalSet Nat :=
  (QuicIntervalSet.ofInterval ⟨frame.offset, frame.offset + frame.data.length⟩).difference
    state.sender.bytesAcked

/-- When an event can happen.  An application that writes more than a stream can
have closes the connection, only frames that were sent arrive, only those that
were taken are acknowledged, and any that was sent may be taken for lost. -/
def Allowed (state : Transfer) : TransferEvent → Prop
  | .saveMemSlice length => state.sender.streamOffset + length ≤ Session.kMaxStreamLength
  | .writeBufferedData parts => (∀ part ∈ parts, 0 < part) ∧
      state.sender.streamBytesWritten + parts.sum ≤ state.sender.streamOffset
  | .writePendingRetransmission parts => (∀ part ∈ parts, 0 < part) ∧
      state.sender.hasPendingRetransmission = true ∧
      parts.sum ≤ state.sender.nextPendingRetransmission.length
  | .retransmitStreamData frame interval parts => (∀ part ∈ parts, 0 < part) ∧
      frame ∈ state.sent ∧ interval ∈ (state.unackedParts frame).intervals ∧
      parts.sum ≤ interval.max - interval.min
  | .onStreamFrame frame => frame ∈ state.sent
  | .onStreamFrameAcked frame => frame ∈ state.delivered
  | .onStreamFrameLost frame => frame ∈ state.sent
  | .readv _ => True

instance (state : Transfer) (event : TransferEvent) : Decidable (state.Allowed event) := by
  cases event <;> dsimp only [Allowed] <;> infer_instance

def send (state : Transfer) :
    Option (List QuicStreamFrame × QuicStreamSendBuffer) → Except TransferFault Transfer
  | none => .error .missingData
  | some (frames, sender) =>
      .ok { state with
        sender
        sent := state.sent ++ frames
        inFlight := state.inFlight ++ frames }

def perform (content : Nat → UInt8) (state : Transfer) :
    TransferEvent → Except TransferFault Transfer
  | .saveMemSlice length =>
      .ok { state with
        sender := state.sender.saveMemSlice (slice content state.sender.streamOffset length) }
  | .writeBufferedData parts => state.send (state.sender.writeBufferedData parts)
  | .writePendingRetransmission parts =>
      state.send (state.sender.retransmit state.sender.nextPendingRetransmission.offset parts)
  | .retransmitStreamData _ interval parts =>
      state.send (state.sender.retransmit interval.min parts)
  | .onStreamFrame frame =>
      match state.receiver.onStreamData frame.offset frame.data with
      | .error fault => .error (.receiver fault)
      | .ok (result, receiver) =>
          if result.error = .noError then
            .ok { state with receiver, delivered := state.delivered ++ [frame] }
          else .error (.refused result.error)
  | .onStreamFrameAcked frame =>
      match state.sender.onStreamDataAcked frame.offset frame.data.length with
      | (false, _, _) => .error .unsentAcked
      | (true, _, sender) => .ok { state with sender, inFlight := state.inFlight.erase frame }
  | .onStreamFrameLost frame =>
      .ok { state with
        sender := state.sender.onStreamDataLost frame.offset frame.data.length
        inFlight := state.inFlight.erase frame }
  | .readv lengths =>
      match state.receiver.readv lengths with
      | .error fault => .error (.receiver fault)
      | .ok (bytes, receiver) => .ok { state with receiver, read := state.read ++ bytes }

/-! ## What every step keeps -/

variable {content : Nat → UInt8} {state next : Transfer}

structure Consistent (content : Nat → UInt8) (state : Transfer) : Prop where
  keeps : Keeps content state.sender
  holds : Holds content state.receiver
  bounded : state.sender.streamOffset ≤ Session.kMaxStreamLength
  sent : ∀ frame ∈ state.sent, Agrees content frame.offset frame.data ∧
    0 < frame.data.length ∧
    frame.offset + frame.data.length ≤ state.sender.streamBytesWritten
  delivered : ∀ frame ∈ state.delivered, frame ∈ state.sent ∧
    ∀ position, frame.Carries position → position ∈ state.receiver.bytesReceived
  received_lt : ∀ position ∈ state.receiver.bytesReceived,
    position < state.sender.streamBytesWritten
  acked_received : ∀ position ∈ state.sender.bytesAcked, position ∈ state.receiver.bytesReceived
  /-- No byte is forgotten. -/
  retained : ∀ position < state.sender.streamBytesWritten,
    position ∈ state.sender.bytesAcked ∨ position ∈ state.sender.pendingRetransmissions ∨
      Carried state.inFlight position
  read : state.read = slice content 0 state.receiver.totalBytesRead

theorem new_consistent {maxCapacityBytes : Nat} (someRoom : 0 < maxCapacityBytes)
    (fits : maxCapacityBytes ≤ 2 ^ 62) (onDemand : Bool) :
    Consistent content (new maxCapacityBytes onDemand) where
  keeps := new_keeps content
  holds := new_holds someRoom fits onDemand
  bounded := Nat.zero_le _
  sent := fun _ membership => absurd membership List.not_mem_nil
  delivered := fun _ membership => absurd membership List.not_mem_nil
  received_lt := fun position membership =>
    absurd (QuicIntervalSet.mem_ofInterval.mp membership).2 (Nat.not_lt_zero position)
  acked_received := fun position membership =>
    absurd membership (QuicIntervalSet.notMem_empty position)
  retained := fun position below => absurd below (Nat.not_lt_zero position)
  read := rfl

theorem Consistent.send (consistent : Consistent content state) {sender : QuicStreamSendBuffer}
    {offset : Nat} {parts : List Nat} (positive : ∀ part ∈ parts, 0 < part)
    (keeps : Keeps content sender)
    (streamOffset : sender.streamOffset = state.sender.streamOffset)
    (acked : sender.bytesAcked = state.sender.bytesAcked)
    (more : state.sender.streamBytesWritten ≤ sender.streamBytesWritten)
    (inside : offset + parts.sum ≤ sender.streamBytesWritten)
    (covered : ∀ position < sender.streamBytesWritten,
      position < state.sender.streamBytesWritten ∨
        (offset ≤ position ∧ position < offset + parts.sum))
    (pending : ∀ position ∈ state.sender.pendingRetransmissions,
      position ∈ sender.pendingRetransmissions ∨
        (offset ≤ position ∧ position < offset + parts.sum)) :
    ∃ next, state.send (some (framesOf content offset parts, sender)) = .ok next ∧
      Consistent content next := by
  refine ⟨_, rfl, keeps, consistent.holds, ?_, ?_, ?_, ?_, ?_, ?_, consistent.read⟩
  · exact streamOffset ▸ consistent.bounded
  · intro frame membership
    rcases List.mem_append.mp membership with before | isNew
    · obtain ⟨agrees, nonempty, atMost⟩ := consistent.sent frame before
      exact ⟨agrees, nonempty, atMost.trans more⟩
    · obtain ⟨agrees, nonempty, atMost⟩ := framesOf_spec positive frame isNew
      exact ⟨agrees, nonempty, atMost.trans inside⟩
  · exact fun frame membership => ⟨List.mem_append_left _ (consistent.delivered frame membership).1,
      (consistent.delivered frame membership).2⟩
  · exact fun position received => (consistent.received_lt position received).trans_le more
  · exact fun position isAcked => consistent.acked_received position (acked ▸ isAcked)
  · intro position below
    have here : (offset ≤ position ∧ position < offset + parts.sum) →
        Carried (state.inFlight ++ framesOf content offset parts) position := fun isHere =>
      carried_append.mpr (.inr (carried_framesOf isHere.1 isHere.2))
    dsimp only at below ⊢
    rcases covered position below with before | isHere
    · rcases consistent.retained position before with isAcked | isPending | carried
      · exact .inl (acked ▸ isAcked)
      · rcases pending position isPending with still | isHere
        · exact .inr (.inl still)
        · exact .inr (.inr (here isHere))
      · exact .inr (.inr (carried_append.mpr (.inl carried)))
    · exact .inr (.inr (here isHere))

theorem Consistent.retransmit (consistent : Consistent content state) {offset : Nat}
    {parts : List Nat} (positive : ∀ part ∈ parts, 0 < part)
    (unacked : ∀ position, offset ≤ position → position < offset + parts.sum →
      position < state.sender.streamBytesWritten ∧ position ∉ state.sender.bytesAcked)
    (nothing : parts.sum = 0 → offset ≤ state.sender.streamBytesWritten) :
    ∃ next, state.send (state.sender.retransmit offset parts) = .ok next ∧
      Consistent content next := by
  have written := consistent.keeps.written_le
  have inside : offset + parts.sum ≤ state.sender.streamBytesWritten := by
    rcases Nat.eq_zero_or_pos parts.sum with empty | carried
    · have atMost := nothing empty
      omega
    · have last := (unacked (offset + parts.sum - 1) (by omega) (by omega)).1
      omega
  obtain ⟨deque, sent, keeps⟩ := consistent.keeps.retransmit positive (inside.trans written)
    fun position low high => (unacked position low high).2
  rw [sent]
  have same := @onStreamDataRetransmitted_eq
    ({ state.sender with intervalDeque := deque } : QuicStreamSendBuffer) offset parts.sum
  refine consistent.send positive keeps (by rw [same]) (by rw [same]) (by rw [same])
    (by rw [same]; exact inside) (fun position below => .inl (by rw [same] at below; exact below))
    fun position isPending => ?_
  by_cases isHere : offset ≤ position ∧ position < offset + parts.sum
  · exact .inr isHere
  · exact .inl (mem_pending_retransmitted.mpr ⟨isPending, isHere⟩)

theorem Consistent.saveMemSlice (consistent : Consistent content state) {length : Nat}
    (short : state.sender.streamOffset + length ≤ Session.kMaxStreamLength) :
    Consistent content { state with
      sender := state.sender.saveMemSlice (slice content state.sender.streamOffset length) } := by
  obtain ⟨deque, saved, keeps⟩ := @Keeps.saveMemSlice content state.sender consistent.keeps length
  rw [saved]
  exact ⟨keeps, consistent.holds, short, consistent.sent, consistent.delivered,
    consistent.received_lt, consistent.acked_received, consistent.retained, consistent.read⟩

theorem Consistent.writeBufferedData (consistent : Consistent content state) {parts : List Nat}
    (positive : ∀ part ∈ parts, 0 < part)
    (saved : state.sender.streamBytesWritten + parts.sum ≤ state.sender.streamOffset) :
    ∃ next, state.send (state.sender.writeBufferedData parts) = .ok next ∧
      Consistent content next := by
  obtain ⟨deque, written, keeps⟩ := consistent.keeps.writeBufferedData positive saved
  rw [written]
  refine consistent.send positive keeps rfl rfl (Nat.le_add_right _ _) (Nat.le_refl _)
    (fun position below => ?_) fun position isPending => .inl isPending
  rcases Nat.lt_or_ge position state.sender.streamBytesWritten with before | isNew
  · exact .inl before
  · exact .inr ⟨isNew, below⟩

/-- Why the receiver does not take a frame: there is no room for it, or there would
be too many intervals. -/
def Overfull (receiver : QuicStreamSequencerBuffer) (frame : QuicStreamFrame) : Prop :=
  receiver.totalBytesRead + receiver.maxBufferCapacityBytes <
      frame.offset + frame.data.length ∨
    kMaxNumDataIntervalsAllowed ≤
      (receiver.bytesReceived.add (frameInterval frame.offset frame.data)).size

theorem Consistent.onStreamFrame (consistent : Consistent content state) {frame : QuicStreamFrame}
    (isSent : frame ∈ state.sent) :
    (∃ next, perform content state (.onStreamFrame frame) = .ok next ∧ Consistent content next) ∨
      ∃ error, perform content state (.onStreamFrame frame) = .error (.refused error) ∧
        Overfull state.receiver frame := by
  obtain ⟨agrees, nonempty, atMost⟩ := consistent.sent frame isSent
  have short := (atMost.trans consistent.keeps.written_le).trans consistent.bounded
  rw [perform]
  rcases onStreamData_spec consistent.holds agrees short with
    ⟨empty, -⟩ | ⟨-, beyond, refused⟩ | ⟨-, -, many, last, refused⟩ |
    ⟨-, -, count, last, took, holds, added⟩
  · rw [empty, List.length_nil] at nonempty
    exact absurd nonempty (lt_irrefl 0)
  · rw [refused]
    exact .inr ⟨_, rfl, .inl beyond⟩
  · rw [refused]
    exact .inr ⟨_, rfl, .inr many⟩
  · rw [took]
    refine .inl ⟨_, if_pos rfl, consistent.keeps, holds, consistent.bounded, consistent.sent,
      ?_, ?_, ?_, consistent.retained, ?_⟩
    · intro other membership
      rcases List.mem_append.mp membership with before | isNew
      · obtain ⟨wasSent, received⟩ := consistent.delivered other before
        exact ⟨wasSent, fun position carries =>
          (added.received position).mpr (.inl (received position carries))⟩
      · rw [List.mem_singleton.mp isNew]
        exact ⟨isSent, fun position carries => (added.received position).mpr (.inr carries)⟩
    · intro position received
      rcases (added.received position).mp received with before | isNew
      · exact consistent.received_lt position before
      · exact isNew.2.trans_le atMost
    · exact fun position acked =>
        (added.received position).mpr (.inl (consistent.acked_received position acked))
    · exact added.totalBytesRead ▸ consistent.read

theorem Consistent.onStreamFrameAcked (consistent : Consistent content state)
    {frame : QuicStreamFrame} (isDelivered : frame ∈ state.delivered) :
    ∃ next, perform content state (.onStreamFrameAcked frame) = .ok next ∧
      Consistent content next := by
  obtain ⟨isSent, received⟩ := consistent.delivered frame isDelivered
  obtain ⟨newlyAcked, sender, acked, keeps, acknowledged⟩ :=
    consistent.keeps.onStreamDataAcked (consistent.sent frame isSent).2.2
  rw [perform, acked]
  refine ⟨_, rfl, keeps, consistent.holds, ?_, ?_, consistent.delivered, ?_, ?_, ?_,
    consistent.read⟩
  · exact acknowledged.streamOffset ▸ consistent.bounded
  · exact acknowledged.written ▸ consistent.sent
  · exact acknowledged.written ▸ consistent.received_lt
  · intro position isAcked
    rcases (acknowledged.mem_acked position).mp isAcked with before | carries
    · exact consistent.acked_received position before
    · exact received position carries
  · intro position below
    dsimp only at below ⊢
    rw [acknowledged.written] at below
    rw [acknowledged.mem_acked, acknowledged.mem_pending]
    by_cases carries : frame.Carries position
    · exact .inl (.inr carries)
    · rcases consistent.retained position below with before | isPending | carried
      · exact .inl (.inl before)
      · exact .inr (.inl ⟨isPending, carries⟩)
      · exact .inr (.inr ((carried.erase frame).resolve_right carries))

theorem Consistent.onStreamFrameLost (consistent : Consistent content state)
    {frame : QuicStreamFrame} (isSent : frame ∈ state.sent) :
    ∃ next, perform content state (.onStreamFrameLost frame) = .ok next ∧
      Consistent content next := by
  have atMost := (consistent.sent frame isSent).2.2
  have keeps := consistent.keeps.onStreamDataLost atMost
  have same := @onStreamDataLost_eq state.sender frame.offset frame.data.length
  rw [perform]
  refine ⟨_, rfl, keeps, consistent.holds, ?_, ?_, consistent.delivered, ?_, ?_, ?_,
    consistent.read⟩
  · rw [same]
    exact consistent.bounded
  · rw [same]
    exact consistent.sent
  · rw [same]
    exact consistent.received_lt
  · rw [same]
    exact consistent.acked_received
  · intro position below
    rw [same] at below
    dsimp only at below ⊢
    rw [mem_pending_lost, congrArg bytesAcked same]
    by_cases isAcked : position ∈ state.sender.bytesAcked
    · exact .inl isAcked
    · rcases consistent.retained position below with before | isPending | carried
      · exact absurd before isAcked
      · exact .inr (.inl (.inl isPending))
      · rcases carried.erase frame with still | carries
        · exact .inr (.inr still)
        · exact .inr (.inl (.inr ⟨carries, isAcked⟩))

theorem Consistent.readv (consistent : Consistent content state) (lengths : List Nat) :
    ∃ next, perform content state (.readv lengths) = .ok next ∧ Consistent content next := by
  obtain ⟨last, read, holds, advanced⟩ := consistent.holds.readv lengths
  rw [perform, read]
  refine ⟨_, rfl, consistent.keeps, holds, consistent.bounded, consistent.sent,
    advanced.bytesReceived ▸ consistent.delivered, advanced.bytesReceived ▸ consistent.received_lt,
    advanced.bytesReceived ▸ consistent.acked_received, consistent.retained, ?_⟩
  dsimp only
  rw [consistent.read, advanced.totalBytesRead, ← slice_append, Nat.zero_add]

/-- Every event that can happen goes well, unless the receiver is overfull. -/
theorem Consistent.progress (consistent : Consistent content state) {event : TransferEvent}
    (allowed : state.Allowed event) :
    (∃ next, state.perform content event = .ok next ∧ Consistent content next) ∨
      ∃ frame error, event = .onStreamFrame frame ∧
        state.perform content event = .error (.refused error) ∧ Overfull state.receiver frame := by
  cases event with
  | saveMemSlice length => exact .inl ⟨_, rfl, consistent.saveMemSlice allowed⟩
  | writeBufferedData parts => exact .inl (consistent.writeBufferedData allowed.1 allowed.2)
  | writePendingRetransmission parts =>
      obtain ⟨positive, isPending, atMost⟩ := allowed
      obtain ⟨length, pending⟩ := nextPendingRetransmission_pending isPending
      refine .inl (consistent.retransmit positive (fun position low high => ?_) fun _ => ?_)
      · exact consistent.keeps.pending position (pending position low (by omega))
      · exact Nat.le_of_lt
          (consistent.keeps.pending _ (pending _ (Nat.le_refl _) (by omega))).1
  | retransmitStreamData frame interval parts =>
      obtain ⟨positive, isSent, isPart, atMost⟩ := allowed
      have nonempty := (state.unackedParts frame).valid.nonempty interval isPart
      have unacked : ∀ position, interval.min ≤ position → position < interval.max →
          position < state.sender.streamBytesWritten ∧ position ∉ state.sender.bytesAcked := by
        intro position low high
        have inPart : position ∈ state.unackedParts frame := ⟨interval, isPart, low, high⟩
        obtain ⟨inFrame, isUnacked⟩ := QuicIntervalSet.mem_difference.mp inPart
        have inside := (QuicIntervalSet.mem_ofInterval.mp inFrame).2
        exact ⟨inside.trans_le (consistent.sent frame isSent).2.2, isUnacked⟩
      refine .inl (consistent.retransmit positive (fun position low high => ?_) fun _ => ?_)
      · exact unacked position low (by omega)
      · exact Nat.le_of_lt (unacked interval.min (Nat.le_refl _) nonempty).1
  | onStreamFrame frame =>
      rcases consistent.onStreamFrame allowed with taken | ⟨error, refused, overfull⟩
      · exact .inl taken
      · exact .inr ⟨frame, error, rfl, refused, overfull⟩
  | onStreamFrameAcked frame => exact .inl (consistent.onStreamFrameAcked allowed)
  | onStreamFrameLost frame => exact .inl (consistent.onStreamFrameLost allowed)
  | readv lengths => exact .inl (consistent.readv lengths)

theorem Consistent.of_run {maxCapacityBytes : Nat} (someRoom : 0 < maxCapacityBytes)
    (fits : maxCapacityBytes ≤ 2 ^ 62) {onDemand : Bool} {events : List TransferEvent}
    (run : Run (Guarded Allowed (perform content)) (new maxCapacityBytes onDemand) events state) :
    Consistent content state := by
  refine run.invariant (Consistent content) (new_consistent someRoom fits onDemand) ?_
  rintro before event after consistent ⟨allowed, performed⟩
  rcases consistent.progress allowed with ⟨next, isNext, kept⟩ | ⟨_, _, _, refused, _⟩
  · rw [Except.ok.inj (performed.symm.trans isNext)]
    exact kept
  · cases performed.symm.trans refused

/-! ## What is read in the end -/

theorem Consistent.totalBytesRead_le (consistent : Consistent content state) :
    state.receiver.totalBytesRead ≤ state.sender.streamBytesWritten := by
  by_contra further
  have received := consistent.holds.read state.sender.streamBytesWritten (by omega)
  exact absurd (consistent.received_lt _ received) (lt_irrefl _)

/-- If nothing is pending or in flight then everything that was sent is acknowledged. -/
theorem Consistent.nothing_outstanding (consistent : Consistent content state)
    (nothingPending : state.sender.hasPendingRetransmission = false)
    (nothingInFlight : state.inFlight = []) : state.sender.streamBytesOutstanding = 0 := by
  have all : state.sender.bytesAcked =
      QuicIntervalSet.ofInterval ⟨0, state.sender.streamBytesWritten⟩ := by
    refine QuicIntervalSet.ext_mem fun position => ?_
    rw [QuicIntervalSet.mem_ofInterval, and_iff_right (Nat.zero_le _)]
    refine ⟨consistent.keeps.acked_lt position, fun below => ?_⟩
    rcases consistent.retained position below with acked | isPending | carried
    · exact acked
    · rw [hasPendingRetransmission, Bool.not_eq_false'] at nothingPending
      exact absurd isPending (QuicIntervalSet.isEmpty_iff.mp nothingPending position)
    · rw [nothingInFlight] at carried
      obtain ⟨frame, impossible, -⟩ := carried
      exact absurd impossible List.not_mem_nil
  have balance := consistent.keeps.outstanding
  rw [all, QuicIntervalSet.count_ofInterval] at balance
  dsimp only at balance
  omega

theorem Consistent.readableBytes (consistent : Consistent content state)
    (settled : state.sender.streamBytesOutstanding = 0) :
    state.receiver.readableBytes =
      state.sender.streamBytesWritten - state.receiver.totalBytesRead := by
  have balance := consistent.keeps.outstanding
  rw [settled, Nat.zero_add] at balance
  have last : state.receiver.firstMissingByte = state.sender.streamBytesWritten := by
    rcases Nat.lt_trichotomy state.receiver.firstMissingByte state.sender.streamBytesWritten with
      before | same | behind
    · have acked := QuicIntervalSet.mem_of_count_eq consistent.keeps.acked_lt balance before
      exact absurd (consistent.acked_received _ acked) firstMissingByte_spec.2
    · exact same
    · have received := firstMissingByte_spec.1 _ behind
      exact absurd (consistent.received_lt _ received) (lt_irrefl _)
  rw [QuicStreamSequencerBuffer.readableBytes, last]

/-- In every run, whatever the network loses, repeats and reorders and whatever is
taken for lost without being so, the reader gets the bytes of the stream from its
beginning on.  No event fails unless the receiver is overfull: bytes to be sent
are always in the buffer and every acknowledgement is valid.  Every byte that was
sent is acknowledged, waits to be sent again or is in flight.  So when nothing is
left to wait for, the reader can read all that was sent. -/
theorem transfer_delivers_stream {maxCapacityBytes : Nat} (someRoom : 0 < maxCapacityBytes)
    (fits : maxCapacityBytes ≤ 2 ^ 62) {onDemand : Bool} {events : List TransferEvent}
    (run : Run (Guarded Allowed (perform content)) (new maxCapacityBytes onDemand) events state) :
    (state.read = slice content 0 state.receiver.totalBytesRead ∧
      state.receiver.totalBytesRead ≤ state.sender.streamBytesWritten) ∧
    (∀ event, state.Allowed event → (∃ next, state.perform content event = .ok next) ∨
      ∃ frame error, event = .onStreamFrame frame ∧
        state.perform content event = .error (.refused error) ∧ Overfull state.receiver frame) ∧
    (∀ position < state.sender.streamBytesWritten, position ∈ state.sender.bytesAcked ∨
      position ∈ state.sender.pendingRetransmissions ∨ Carried state.inFlight position) ∧
    (state.sender.hasPendingRetransmission = false → state.inFlight = [] →
      state.sender.streamBytesOutstanding = 0) ∧
    (state.sender.streamBytesOutstanding = 0 → ∀ lengths,
      state.sender.streamBytesWritten - state.receiver.totalBytesRead ≤ lengths.sum →
      ∃ after, state.receiver.readv lengths = .ok (slice content state.receiver.totalBytesRead
        (state.sender.streamBytesWritten - state.receiver.totalBytesRead), after)) := by
  have consistent := Consistent.of_run someRoom fits run
  refine ⟨⟨consistent.read, consistent.totalBytesRead_le⟩, fun event allowed => ?_,
    consistent.retained, consistent.nothing_outstanding, fun settled lengths enough => ?_⟩
  · rcases consistent.progress allowed with ⟨next, performed, -⟩ | refused
    · exact .inl ⟨next, performed⟩
    · exact .inr refused
  · obtain ⟨after, read, -⟩ := consistent.holds.readv lengths
    rw [consistent.readableBytes settled, Nat.min_eq_right enough] at read
    exact ⟨after, read⟩

/-- The first frame is taken for lost while it is only late: it arrives, is sent
again, and both packets are acknowledged. -/
def lateFrame : List TransferEvent :=
  [.saveMemSlice 3, .writeBufferedData [2, 1], .onStreamFrame ⟨2, [2]⟩,
    .onStreamFrameAcked ⟨2, [2]⟩, .onStreamFrameLost ⟨0, [0, 1]⟩, .onStreamFrame ⟨0, [0, 1]⟩,
    .readv [1], .writePendingRetransmission [1], .onStreamFrameAcked ⟨0, [0, 1]⟩]

theorem transfer_delivers_stream_late_frame :
    ∃ last, Run (Guarded Allowed (perform UInt8.ofNat)) (new 5 false) lateFrame last ∧
      last.read = [0] ∧ last.inFlight = [⟨0, [0]⟩] ∧
      ∃ after, last.receiver.readv [4] = .ok ([1, 2], after) := by
  have executed : ((execute Allowed (perform UInt8.ofNat) lateFrame (new 5 false)).any fun last =>
      last.read = [0] && last.inFlight = [⟨0, [0]⟩] && last.sender.streamBytesOutstanding = 0 &&
        last.sender.streamBytesWritten = 3 && last.receiver.totalBytesRead = 1) = true := by
    decide +kernel
  obtain ⟨last, result, facts⟩ := (Option.any_eq_true _ _).mp executed
  simp only [Bool.and_eq_true, decide_eq_true_iff] at facts
  obtain ⟨⟨⟨⟨read, inFlight⟩, settled⟩, written⟩, total⟩ := facts
  have run := Run.of_execute lateFrame result
  obtain ⟨-, -, -, -, reads⟩ := transfer_delivers_stream (by decide) (by decide) run
  have all := reads settled [4] (by rw [written, total]; decide)
  rw [written, total] at all
  exact ⟨last, run, read, inFlight, all⟩

end Transfer

end Ns3Quic.Stream
