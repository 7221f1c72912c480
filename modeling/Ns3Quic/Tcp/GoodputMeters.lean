import Ns3Quic.Tcp.TcpSink

/-!
# Two goodput meters

The QUIC server and the TCP sink sample the goodput in code of their own.  The
QUIC meter remembers the time of the first packet and samples at the time of
the last receipt, the TCP meter takes an unset sampling time for the first
packet and samples at the current time.  `Agree` relates the two meters
between arrivals, and every arrival keeps it.
-/

namespace Ns3Quic.Tcp

open Trace

structure Arrival where
  now : Nat
  seq : Int
  owd : Int
  len : Nat
  deriving DecidableEq

def quicMeter (interval : Nat) (trace : Ns3QuicServerTrace) (arrivals : List Arrival) :
    Ns3QuicServerTrace :=
  arrivals.foldl (fun trace arrival =>
    trace.onOwd interval arrival.now arrival.seq arrival.owd arrival.len) trace

/-- The sink of a TCP flow after reads that deliver one packet each. -/
def tcpMeter (interval : Nat) (sink : TcpSink) (arrivals : List Arrival) : TcpSink :=
  arrivals.foldl (fun sink arrival => sink.handleRead interval arrival.now [arrival.len]) sink

/-- The two meters have sampled the same, and stand at the same sample. -/
structure Agree (trace : Ns3QuicServerTrace) (sink : TcpSink) : Prop where
  owdOpen : trace.owdOpen = true
  goodputOpen : trace.goodputOpen = true
  traced : sink.trace = true
  bytes : trace.readBytes = sink.rxBytes
  rateBytes : trace.lastRateBytes = sink.lastRxBytes
  ordered : sink.lastRxBytes ≤ sink.rxBytes
  rateTime : trace.lastRateTime = sink.lastCountRateTime
  unset : trace.firstPacketTime = 0 ↔ sink.lastCountRateTime = 0
  log : trace.goodputLog = sink.goodputLog

variable {trace : Ns3QuicServerTrace} {sink : TcpSink}

theorem agree_create {e : UInt8} (owd : (e &&& enableOwd != 0) = true)
    (goodput : (e &&& enableGoodput != 0) = true) (totalBytes : Int) :
    Agree (.create e) (.create true totalBytes) :=
  ⟨owd, goodput, rfl, rfl, rfl, Nat.le_refl _, rfl, Iff.rfl, rfl⟩

theorem Agree.countLost (agree : Agree trace sink) (seq : Int) :
    Agree (trace.countLost seq) sink := by
  unfold Ns3QuicServerTrace.countLost
  split
  next => exact { agree with }
  next => exact agree

theorem Agree.reportStop (agree : Agree trace sink) (now : Nat) :
    Agree trace (sink.reportStop now) := by
  unfold TcpSink.reportStop
  split
  next => exact { agree with }
  next => exact agree

theorem Agree.receipt (agree : Agree trace sink) (owdLog : List OwdLine) (now : Nat) :
    Agree { trace with owdLog := owdLog, receiptTime := now } sink :=
  { agree with }

theorem Agree.count (agree : Agree trace sink) (len : Nat) :
    Agree { trace with readBytes := trace.readBytes + len }
      { sink with rxBytes := sink.rxBytes + len } :=
  { agree with
    bytes := by
      dsimp only
      rw [agree.bytes, Int.natCast_add]
    ordered := Nat.le_add_right_of_le agree.ordered }

theorem Agree.firstPacket (agree : Agree trace sink) (now : Nat) :
    Agree
      (if trace.firstPacketTime = 0 then
        { trace with firstPacketTime := now, lastRateTime := now } else trace)
      (if sink.lastCountRateTime = 0 then { sink with lastCountRateTime := now } else sink) := by
  by_cases first : trace.firstPacketTime = 0
  · rw [if_pos first, if_pos (agree.unset.mp first)]
    exact { agree with rateTime := rfl, unset := Iff.rfl }
  · rw [if_neg first, if_neg (agree.unset.not.mp first)]
    exact agree

/-- A QUIC meter whose last receipt is now samples when the TCP meter does. -/
theorem Agree.sample (agree : Agree trace sink) {interval now : Nat} (positive : 0 < now)
    (receipt : trace.receiptTime = now) (set : trace.firstPacketTime ≠ 0) :
    Agree (trace.logGoodput interval)
      (if sink.lastCountRateTime + interval ≤ now then
        { sink with
          goodputLog := sink.goodputLog ++
            [⟨now, ((sink.rxBytes - sink.lastRxBytes : Nat) : Int),
              now - sink.lastCountRateTime⟩]
          lastRxBytes := sink.rxBytes
          lastCountRateTime := now }
      else sink) := by
  unfold Ns3QuicServerTrace.logGoodput
  rw [receipt, agree.rateTime]
  by_cases due : sink.lastCountRateTime + interval ≤ now
  · rw [if_pos ⟨agree.goodputOpen, due⟩, if_pos due]
    refine { agree with
      rateBytes := agree.bytes
      ordered := Nat.le_refl _
      rateTime := rfl
      unset := iff_of_false set (Nat.ne_of_gt positive)
      log := ?_ }
    dsimp only
    rw [agree.log, agree.bytes, agree.rateBytes, Int.ofNat_sub agree.ordered]
  · rw [if_neg (fun both => due both.2), if_neg due]
    exact agree

theorem Agree.logArrival (agree : Agree trace sink) (interval : Nat) {now : Nat}
    (positive : 0 < now) (seq owd : Int) (len : Nat) :
    Agree (trace.logArrival interval now seq owd len)
      ({ sink with rxBytes := sink.rxBytes + len }.countRate interval now) := by
  unfold Ns3QuicServerTrace.logArrival TcpSink.countRate
  rw [if_pos (by simp [agree.owdOpen])]
  have counted := (agree.count len).firstPacket now
  dsimp only at counted ⊢
  by_cases first : trace.firstPacketTime = 0
  · rw [if_pos first] at counted ⊢
    rw [if_pos agree.owdOpen]
    exact (counted.receipt _ now).sample positive rfl (Nat.ne_of_gt positive)
  · rw [if_neg first] at counted ⊢
    rw [if_pos agree.owdOpen]
    exact (counted.receipt _ now).sample positive rfl first

theorem Agree.arrival (agree : Agree trace sink) (interval : Nat) {arrival : Arrival}
    (positive : 0 < arrival.now) :
    Agree (trace.onOwd interval arrival.now arrival.seq arrival.owd arrival.len)
      (sink.handleRead interval arrival.now [arrival.len]) := by
  have sampled := (agree.logArrival interval positive arrival.seq arrival.owd
    arrival.len).countLost arrival.seq
  unfold TcpSink.handleRead
  dsimp only
  rw [TcpSink.receive_singleton, if_pos agree.traced]
  exact sampled.reportStop arrival.now

theorem Agree.run (agree : Agree trace sink) (interval : Nat) (arrivals : List Arrival)
    (positive : ∀ arrival ∈ arrivals, 0 < arrival.now) :
    Agree (quicMeter interval trace arrivals) (tcpMeter interval sink arrivals) := by
  induction arrivals generalizing trace sink with
  | nil => exact agree
  | cons arrival rest inductionHypothesis =>
      apply inductionHypothesis (agree.arrival interval (positive arrival List.mem_cons_self))
      intro other membership
      exact positive other (List.mem_cons_of_mem _ membership)

/-- Whatever the sampling interval, a QUIC trace with delay and goodput logging
and a TCP sink take the same samples of the same arrivals. -/
theorem goodput_samples_agree {e : UInt8} (owd : (e &&& enableOwd != 0) = true)
    (goodput : (e &&& enableGoodput != 0) = true) (totalBytes : Int) (interval : Nat)
    (arrivals : List Arrival) (positive : ∀ arrival ∈ arrivals, 0 < arrival.now) :
    (quicMeter interval (.create e) arrivals).goodputLog =
      (tcpMeter interval (.create true totalBytes) arrivals).goodputLog :=
  ((agree_create owd goodput totalBytes).run interval arrivals positive).log

/-- Three packets, the last one a second after the first. -/
theorem goodput_samples_agree_second :
    (quicMeter 1000 (.create 3) [⟨1, 1, 0, 100⟩, ⟨2, 2, 0, 200⟩, ⟨1001, 3, 0, 300⟩]).goodputLog =
        [⟨1001, 600, 1000⟩] ∧
      (quicMeter 1000 (.create 3) [⟨1, 1, 0, 100⟩, ⟨2, 2, 0, 200⟩,
          ⟨1001, 3, 0, 300⟩]).goodputLog =
        (tcpMeter 1000 (.create true 0) [⟨1, 1, 0, 100⟩, ⟨2, 2, 0, 200⟩,
          ⟨1001, 3, 0, 300⟩]).goodputLog :=
  ⟨by decide, goodput_samples_agree (by decide) (by decide) 0 1000 _ (by decide)⟩

end Ns3Quic.Tcp
