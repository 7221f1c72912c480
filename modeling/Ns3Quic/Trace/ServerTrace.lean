import Mathlib.Algebra.Ring.Int.Defs
import Mathlib.Algebra.Ring.Nat

/-!
# The trace of one flow at the server

`Ns3QuicServerTrace` logs the one-way delay of every packet, samples the
goodput, and counts the packets missing between the sequence numbers it sees.
The files are opened by the constructor; opening is taken to succeed.  Times
are in nanoseconds, and zero is an unset time.  The sequence numbers, delays,
lengths and counters, `int` and `int64_t` in the source, are unbounded.
-/

namespace Ns3Quic.Trace

/-- `E_QS_OWD`, `E_QS_GOODPUT` and `E_QS_LOST`. -/
def enableOwd : UInt8 := 0x01

def enableGoodput : UInt8 := 0x02

def enableLost : UInt8 := 0x04

structure OwdLine where
  now : Nat
  seq : Int
  owd : Int
  len : Int
  deriving DecidableEq

/-- A line of the goodput log: `bytes` were received within `delta`. -/
structure GoodputLine where
  time : Nat
  bytes : Int
  delta : Nat
  deriving DecidableEq

structure Ns3QuicServerTrace where
  owdOpen : Bool
  goodputOpen : Bool
  lostOpen : Bool
  lastSeq : Int
  largestSeq : Int
  lostPackets : Int
  lastRateBytes : Int
  lastRateTime : Nat
  readBytes : Int
  firstPacketTime : Nat
  receiptTime : Nat
  owdLog : List OwdLine
  goodputLog : List GoodputLine
  deriving DecidableEq

namespace Ns3QuicServerTrace

def create (e : UInt8) : Ns3QuicServerTrace where
  owdOpen := e &&& enableOwd != 0
  goodputOpen := e &&& enableGoodput != 0
  lostOpen := e &&& enableLost != 0
  lastSeq := 0
  largestSeq := 0
  lostPackets := 0
  lastRateBytes := 0
  lastRateTime := 0
  readBytes := 0
  firstPacketTime := 0
  receiptTime := 0
  owdLog := []
  goodputLog := []

/-- `LogGoodput(false)`; `goodputInterval` is `g_goodputInterval`. -/
def logGoodput (trace : Ns3QuicServerTrace) (goodputInterval : Nat) : Ns3QuicServerTrace :=
  if trace.goodputOpen ∧ trace.lastRateTime + goodputInterval ≤ trace.receiptTime then
    { trace with
      goodputLog := trace.goodputLog ++
        [⟨trace.receiptTime, trace.readBytes - trace.lastRateBytes,
          trace.receiptTime - trace.lastRateTime⟩]
      lastRateBytes := trace.readBytes
      lastRateTime := trace.receiptTime }
  else
    trace

/-- `LogGoodput(true)`, which the destructor calls.  The time since the last sample
need not be a whole interval. -/
def logGoodputDtor (trace : Ns3QuicServerTrace) : Ns3QuicServerTrace :=
  if trace.goodputOpen ∧ trace.lastRateTime < trace.receiptTime then
    { trace with
      goodputLog := trace.goodputLog ++
        [⟨trace.receiptTime, trace.readBytes - trace.lastRateBytes,
          trace.receiptTime - trace.lastRateTime⟩] }
  else
    trace

/-- The first part of `OnOwd`: the delay and the goodput. -/
def logArrival (trace : Ns3QuicServerTrace) (goodputInterval now : Nat) (seq owd len : Int) :
    Ns3QuicServerTrace :=
  if trace.owdOpen || trace.goodputOpen then
    let trace :=
      if trace.firstPacketTime = 0 then
        { trace with firstPacketTime := now, lastRateTime := now }
      else
        trace
    let trace := { trace with readBytes := trace.readBytes + len }
    let trace :=
      if trace.owdOpen then
        { trace with owdLog := trace.owdLog ++ [⟨now, seq, owd, len⟩], receiptTime := now }
      else
        trace
    trace.logGoodput goodputInterval
  else
    trace

/-- The second part of `OnOwd`: the missing packets.  A packet that repeats the
last number takes one off the count. -/
def countLost (trace : Ns3QuicServerTrace) (seq : Int) : Ns3QuicServerTrace :=
  if trace.lostOpen then
    { trace with
      lostPackets :=
        if trace.lastSeq - 1 < seq then
          trace.lostPackets + (seq - trace.lastSeq - 1)
        else
          trace.lostPackets
      lastSeq := if trace.lastSeq < seq then seq else trace.lastSeq
      largestSeq := if trace.largestSeq < seq then seq else trace.largestSeq }
  else
    trace

def onOwd (trace : Ns3QuicServerTrace) (goodputInterval now : Nat) (seq owd len : Int) :
    Ns3QuicServerTrace :=
  (trace.logArrival goodputInterval now seq owd len).countLost seq

theorem logArrival_frame (trace : Ns3QuicServerTrace) (goodputInterval now : Nat)
    (seq owd len : Int) :
    (trace.logArrival goodputInterval now seq owd len).lostOpen = trace.lostOpen ∧
      (trace.logArrival goodputInterval now seq owd len).lastSeq = trace.lastSeq ∧
      (trace.logArrival goodputInterval now seq owd len).largestSeq = trace.largestSeq ∧
      (trace.logArrival goodputInterval now seq owd len).lostPackets = trace.lostPackets := by
  have goodput (other : Ns3QuicServerTrace) :
      (other.logGoodput goodputInterval).lostOpen = other.lostOpen ∧
        (other.logGoodput goodputInterval).lastSeq = other.lastSeq ∧
        (other.logGoodput goodputInterval).largestSeq = other.largestSeq ∧
        (other.logGoodput goodputInterval).lostPackets = other.lostPackets := by
    unfold logGoodput
    split <;> exact ⟨rfl, rfl, rfl, rfl⟩
  unfold logArrival
  split
  next =>
    dsimp only
    obtain ⟨lostOpen, lastSeq, largestSeq, lostPackets⟩ := goodput _
    rw [lostOpen, lastSeq, largestSeq, lostPackets]
    split <;> split <;> exact ⟨rfl, rfl, rfl, rfl⟩
  next => exact ⟨rfl, rfl, rfl, rfl⟩

/-- The loss counters after `received` packets in order, the last numbered
`last`. -/
structure CountsLoss (trace : Ns3QuicServerTrace) (last received : Nat) : Prop where
  lostOpen : trace.lostOpen = true
  lastSeq : trace.lastSeq = last
  largestSeq : trace.largestSeq = last
  lostPackets : trace.lostPackets + received = last

theorem countsLoss_create {e : UInt8} (enabled : (e &&& enableLost != 0) = true) :
    (create e).CountsLoss 0 0 :=
  ⟨enabled, rfl, rfl, rfl⟩

theorem CountsLoss.onOwd {trace : Ns3QuicServerTrace} {last received seq : Nat}
    (counts : trace.CountsLoss last received) (later : last < seq)
    (goodputInterval now : Nat) (owd len : Int) :
    (trace.onOwd goodputInterval now seq owd len).CountsLoss seq (received + 1) := by
  obtain ⟨lostOpen, lastSeq, largestSeq, lostPackets⟩ := counts
  obtain ⟨sameOpen, sameLast, sameLargest, sameLost⟩ :=
    trace.logArrival_frame goodputInterval now seq owd len
  unfold Ns3QuicServerTrace.onOwd countLost
  rw [if_pos (sameOpen.trans lostOpen), sameLast, sameLargest, sameLost, lastSeq, largestSeq]
  refine ⟨sameOpen.trans lostOpen, if_pos (by omega), if_pos (by omega), ?_⟩
  dsimp only
  rw [if_pos (by omega)]
  omega

end Ns3QuicServerTrace

end Ns3Quic.Trace
