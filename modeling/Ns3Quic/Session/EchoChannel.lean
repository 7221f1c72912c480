import Ns3Quic.Session.TransportStream

/-!
# The echo channel

`EchoBidiChannel` reads what has arrived and writes it back, with the FIN,
whenever its stream has data.  The FIN ends the stream, so only the first data
is echoed.
-/

namespace Ns3Quic.Session

/-- The bytes that have arrived and were not read, and whether the FIN has
arrived. -/
structure QuicStreamSequencer where
  readable : List UInt8
  finReceived : Bool
  deriving DecidableEq

def QuicStreamSequencer.isClosed (sequencer : QuicStreamSequencer) : Bool :=
  sequencer.finReceived && sequencer.readable.isEmpty

structure EchoBidiChannel where
  stream : QuicStream
  sequencer : QuicStreamSequencer
  /-- `OnFinRead` was called. -/
  finRead : Bool
  deriving DecidableEq

/-- Bytes that become readable, with the FIN after them if `fin`; the answer is
that of the session if they are echoed. -/
structure Arrival where
  bytes : List UInt8
  fin : Bool
  answer : SessionAnswer
  deriving DecidableEq

namespace EchoBidiChannel

def create (stream : QuicStream) : EchoBidiChannel := ⟨stream, ⟨[], false⟩, false⟩

def read (channel : EchoBidiChannel) : List UInt8 × EchoBidiChannel :=
  let buffer := channel.sequencer.readable
  let sequencer := { channel.sequencer with readable := [] }
  (buffer, { channel with
    sequencer := sequencer
    finRead := channel.finRead || sequencer.isClosed })

/-- The result of the write is not looked at. -/
def onCanRead (channel : EchoBidiChannel) (answer : SessionAnswer) : EchoBidiChannel :=
  let (buffer, channel) := channel.read
  { channel with stream := (channel.stream.write buffer true answer).2 }

def onDataAvailable (channel : EchoBidiChannel) (answer : SessionAnswer) : EchoBidiChannel :=
  if channel.sequencer.isClosed then
    { channel with finRead := true }
  else if channel.sequencer.readable.length = 0 then
    channel
  else
    channel.onCanRead answer

def arrive (channel : EchoBidiChannel) (arrival : Arrival) : EchoBidiChannel :=
  onDataAvailable { channel with
    sequencer := {
      readable := channel.sequencer.readable ++ arrival.bytes
      finReceived := channel.sequencer.finReceived || arrival.fin } } arrival.answer

def afterArrivals (stream : QuicStream) (arrivals : List Arrival) : EchoBidiChannel :=
  arrivals.foldl arrive (create stream)

end EchoBidiChannel

def arrivedBytes (arrivals : List Arrival) : List UInt8 := (arrivals.map Arrival.bytes).flatten

def Arrival.hasData (arrival : Arrival) : Bool := !arrival.bytes.isEmpty

def firstChunk (arrivals : List Arrival) : List UInt8 :=
  ((arrivals.find? Arrival.hasData).map Arrival.bytes).getD []

theorem Arrival.hasData_eq_false_iff {arrival : Arrival} :
    arrival.hasData = false ↔ arrival.bytes = [] := by
  simp [Arrival.hasData]

theorem Arrival.hasData_iff {arrival : Arrival} :
    arrival.hasData = true ↔ arrival.bytes ≠ [] := by
  simp [Arrival.hasData]

theorem arrivedBytes_cons (arrival : Arrival) (rest : List Arrival) :
    arrivedBytes (arrival :: rest) = arrival.bytes ++ arrivedBytes rest := rfl

theorem firstChunk_cons_of_data {arrival : Arrival} (hasData : arrival.hasData = true)
    (rest : List Arrival) : firstChunk (arrival :: rest) = arrival.bytes := by
  simp [firstChunk, hasData]

theorem firstChunk_cons_of_empty {arrival : Arrival} (empty : arrival.hasData = false)
    (rest : List Arrival) : firstChunk (arrival :: rest) = firstChunk rest := by
  simp [firstChunk, empty]

theorem arrivedBytes_eq_nil_iff {arrivals : List Arrival} :
    arrivedBytes arrivals = [] ↔ arrivals.filter Arrival.hasData = [] := by
  simp [arrivedBytes, Arrival.hasData]

theorem firstChunk_eq_arrivedBytes_iff (arrivals : List Arrival) :
    firstChunk arrivals = arrivedBytes arrivals ↔
      (arrivals.filter Arrival.hasData).length ≤ 1 := by
  induction arrivals with
  | nil => exact iff_of_true rfl (Nat.zero_le 1)
  | cons arrival rest inductionHypothesis =>
      rw [arrivedBytes_cons]
      cases hasData : arrival.hasData with
      | false =>
          rw [firstChunk_cons_of_empty hasData, Arrival.hasData_eq_false_iff.mp hasData,
            List.nil_append, List.filter_cons_of_neg (by simp [hasData])]
          exact inductionHypothesis
      | true =>
          rw [firstChunk_cons_of_data hasData, List.self_eq_append_right,
            arrivedBytes_eq_nil_iff, List.filter_cons_of_pos hasData, List.length_cons,
            ← List.length_eq_zero_iff]
          omega

/-! ## What is echoed -/

namespace EchoBidiChannel

variable {channel : EchoBidiChannel} {arrival : Arrival}

theorem arrive_of_empty (idle : channel.sequencer.readable = [])
    (empty : arrival.hasData = false) :
    (channel.arrive arrival).stream = channel.stream ∧
      (channel.arrive arrival).sequencer.readable = [] := by
  rw [Arrival.hasData_eq_false_iff] at empty
  unfold arrive onDataAvailable
  rw [idle, empty, List.append_nil]
  dsimp only
  split
  next => exact ⟨rfl, rfl⟩
  next =>
    rw [if_pos List.length_nil]
    exact ⟨rfl, rfl⟩

theorem arrive_of_data (idle : channel.sequencer.readable = [])
    (hasData : arrival.hasData = true) :
    (channel.arrive arrival).stream =
        (channel.stream.write arrival.bytes true arrival.answer).2 ∧
      (channel.arrive arrival).sequencer.readable = [] := by
  have nonempty := Arrival.hasData_iff.mp hasData
  unfold arrive onDataAvailable
  rw [idle, List.nil_append]
  rw [if_neg (by simp [QuicStreamSequencer.isClosed, nonempty]), if_neg (by simpa using nonempty)]
  exact ⟨rfl, rfl⟩

theorem arrivals_after_fin (idle : channel.sequencer.readable = [])
    (finished : channel.stream.finBuffered = true) (arrivals : List Arrival) :
    (arrivals.foldl arrive channel).stream = channel.stream := by
  induction arrivals generalizing channel with
  | nil => rfl
  | cons arrival rest inductionHypothesis =>
      have unchanged : (channel.arrive arrival).stream = channel.stream ∧
          (channel.arrive arrival).sequencer.readable = [] := by
        cases hasData : arrival.hasData with
        | false => exact arrive_of_empty idle hasData
        | true =>
            obtain ⟨written, readAll⟩ := arrive_of_data idle hasData
            have refuses : channel.stream.accepts = false := by
              simp [QuicStream.accepts, finished]
            rw [QuicStream.write_of_refuses refuses (Arrival.hasData_iff.mp hasData)] at written
            exact ⟨written, readAll⟩
      obtain ⟨same, readAll⟩ := unchanged
      rw [List.foldl_cons, inductionHypothesis readAll (same ▸ finished), same]

theorem echoes_firstChunk (idle : channel.sequencer.readable = [])
    (accepts : channel.stream.accepts = true) (arrivals : List Arrival)
    (fits : channel.stream.saved.length + (arrivedBytes arrivals).length ≤ kMaxStreamLength) :
    (arrivals.foldl arrive channel).stream.saved =
        channel.stream.saved ++ firstChunk arrivals ∧
      ((arrivals.foldl arrive channel).stream.finBuffered = true ↔
        arrivedBytes arrivals ≠ []) := by
  induction arrivals generalizing channel with
  | nil =>
      have unfinished : channel.stream.finBuffered = false := by
        simp only [QuicStream.accepts, Bool.and_eq_true, Bool.not_eq_true'] at accepts
        exact accepts.2
      simp [firstChunk, arrivedBytes, unfinished]
  | cons arrival rest inductionHypothesis =>
      rw [arrivedBytes_cons, List.length_append] at fits
      rw [arrivedBytes_cons]
      cases hasData : arrival.hasData with
      | false =>
          obtain ⟨same, readAll⟩ := arrive_of_empty idle hasData
          have later := inductionHypothesis readAll (by rw [same]; exact accepts)
            (by rw [same]; omega)
          rw [same] at later
          rw [firstChunk_cons_of_empty hasData, Arrival.hasData_eq_false_iff.mp hasData,
            List.nil_append]
          exact later
      | true =>
          obtain ⟨written, readAll⟩ := arrive_of_data idle hasData
          have nonempty := Arrival.hasData_iff.mp hasData
          obtain ⟨_, saved, within⟩ :=
            QuicStream.write_of_accepts accepts arrival.bytes true arrival.answer
          obtain ⟨finished, _⟩ := within (by omega)
          rw [← written] at saved finished
          rw [List.foldl_cons, arrivals_after_fin readAll finished,
            firstChunk_cons_of_data hasData]
          exact ⟨saved, iff_of_true finished (by simp [nonempty])⟩

/-- What a client sends is echoed as a whole, with the FIN, exactly if no more
than one notification brings data; and two ways of splitting it are echoed
alike exactly if they begin with the same notification. -/
theorem echo_exact_iff (stream : QuicStream) (accepts : stream.accepts = true)
    (arrivals : List Arrival)
    (fits : stream.saved.length + (arrivedBytes arrivals).length ≤ kMaxStreamLength) :
    ((afterArrivals stream arrivals).stream.saved = stream.saved ++ arrivedBytes arrivals ∧
        (arrivedBytes arrivals ≠ [] →
          (afterArrivals stream arrivals).stream.finBuffered = true) ↔
      (arrivals.filter Arrival.hasData).length ≤ 1) ∧
    ∀ others : List Arrival, arrivedBytes others = arrivedBytes arrivals →
      ((afterArrivals stream others).stream.saved = (afterArrivals stream arrivals).stream.saved ↔
        firstChunk others = firstChunk arrivals) := by
  obtain ⟨saved, finished⟩ := @echoes_firstChunk (create stream) rfl accepts arrivals fits
  constructor
  · rw [← firstChunk_eq_arrivedBytes_iff, afterArrivals, saved, finished]
    constructor
    · rintro ⟨same, _⟩
      exact List.append_cancel_left same
    · intro same
      exact ⟨by rw [same]; rfl, id⟩
  · intro others sameData
    have othersSaved := (@echoes_firstChunk (create stream) rfl accepts others
      (sameData ▸ fits)).1
    rw [afterArrivals, afterArrivals, saved, othersSaved]
    exact List.append_right_inj _

/-- A message in one piece. -/
theorem echo_exact_single :
    (afterArrivals (.create 8192) [⟨[104, 105], true, sampleAnswer⟩]).stream.saved = [104, 105] ∧
      (afterArrivals (.create 8192)
        [⟨[104, 105], true, sampleAnswer⟩]).stream.finBuffered = true := by
  obtain ⟨saved, finished⟩ := (echo_exact_iff (.create 8192) (by decide)
    [⟨[104, 105], true, sampleAnswer⟩] (by decide)).1.mpr (by decide)
  exact ⟨saved, finished (by decide)⟩

/-- The second of two pieces is not echoed. -/
theorem second_piece_not_echoed :
    (afterArrivals (.create 8192) [⟨[104], false, sampleAnswer⟩,
        ⟨[105], true, sampleAnswer⟩]).stream.saved = [104] ∧
      (afterArrivals (.create 8192) [⟨[104], false, sampleAnswer⟩,
        ⟨[105], true, sampleAnswer⟩]).stream.finBuffered = true := by
  decide

end EchoBidiChannel

end Ns3Quic.Session
