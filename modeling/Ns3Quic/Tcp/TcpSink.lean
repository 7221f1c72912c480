import Ns3Quic.Trace.ServerTrace

/-!
# The TCP sink

`TcpSink` counts the bytes that a TCP socket delivers, samples the goodput at
most once per `kRateCountGap`, and reports the end of the session when the
registered number of bytes has arrived.  Times are in nanoseconds, and zero is
an unset time.  Byte counters are taken to be large enough for what is
received.
-/

namespace Ns3Quic.Tcp

open Trace

structure SessionStop where
  bytes : Nat
  stop : Nat
  deriving DecidableEq

structure TcpSink where
  /-- Whether `m_trace` is not null. -/
  trace : Bool
  lastCountRateTime : Nat
  lastRxBytes : Nat
  rxBytes : Nat
  totalBytes : Int
  /-- What `m_trace->OnGoodput` was called with: the rate is that of `bytes`
  within `delta`. -/
  goodputLog : List GoodputLine
  sessionStops : List SessionStop
  deriving DecidableEq

namespace TcpSink

/-- The constructor; `totalBytes` is what `GetBulkBytes` returns, or zero if
the bandwidth utility is off. -/
def create (logRate : Bool) (totalBytes : Int) : TcpSink where
  trace := logRate
  lastCountRateTime := 0
  lastRxBytes := 0
  rxBytes := 0
  totalBytes := totalBytes
  goodputLog := []
  sessionStops := []

/-- The loop over `RecvFrom`; the packets are given by their sizes.  An empty
packet ends the loop. -/
def receive (rxBytes : Nat) : List Nat → Nat
  | [] => rxBytes
  | size :: rest => if size = 0 then rxBytes else receive (rxBytes + size) rest

def countRate (sink : TcpSink) (rateCountGap now : Nat) : TcpSink :=
  let sink :=
    if sink.lastCountRateTime = 0 then { sink with lastCountRateTime := now } else sink
  if sink.lastCountRateTime + rateCountGap ≤ now then
    { sink with
      goodputLog := sink.goodputLog ++
        [⟨now, ((sink.rxBytes - sink.lastRxBytes : Nat) : Int), now - sink.lastCountRateTime⟩]
      lastRxBytes := sink.rxBytes
      lastCountRateTime := now }
  else
    sink

def reportStop (sink : TcpSink) (now : Nat) : TcpSink :=
  if 0 < sink.totalBytes ∧ sink.totalBytes = sink.rxBytes then
    -- the parameter of `OnSessionStop` has 32 bits
    { sink with sessionStops := sink.sessionStops ++ [⟨sink.rxBytes % 2 ^ 32, now⟩] }
  else
    sink

/-- `rateCountGap` is `kRateCountGap`. -/
def handleRead (sink : TcpSink) (rateCountGap now : Nat) (packets : List Nat) : TcpSink :=
  let sink := { sink with rxBytes := receive sink.rxBytes packets }
  let sink := if sink.trace then sink.countRate rateCountGap now else sink
  sink.reportStop now

@[simp]
theorem receive_singleton (rxBytes size : Nat) : receive rxBytes [size] = rxBytes + size := by
  unfold receive
  split
  next empty => rw [empty, Nat.add_zero]
  next => rfl

end TcpSink

end Ns3Quic.Tcp
