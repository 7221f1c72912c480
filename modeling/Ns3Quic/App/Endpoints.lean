import Ns3Quic.App.Tag
import Ns3Quic.Trace.Dispatcher

/-!
# The client and the server application

`QuicClientApp` numbers and tags the packets that its QUIC client sends, up to
a total number of bytes.  `QuicServerApp` reads the tag of every packet it
receives and reports it to the dispatcher of its traces.  What the QUIC stacks
make of the packets is not modelled, and neither are the callbacks of the
client that log its window and its rate.
-/

namespace Ns3Quic.App

open CongestionControl Trace

inductive AppFault where
  /-- The tag does not fit into the buffer it asked for. -/
  | tagOverflow
  /-- The tag of a packet ends early. -/
  | tagTruncated
  /-- A packet is copied into a buffer that is too small for it. -/
  | bufferOverflow
  deriving DecidableEq

structure Datagram where
  tag : List UInt8
  size : Nat
  deriving DecidableEq

def Datagram.sequence (datagram : Datagram) : Option Nat :=
  (Ns3QuicTag.deserialize datagram.tag).map Ns3QuicTag.seq

structure QuicClientApp where
  hasSocket : Bool
  /-- `m_impl && m_impl->m_quicClient`. -/
  hasQuicClient : Bool
  seq : Nat
  currentTxBytes : Nat
  deriving DecidableEq

namespace QuicClientApp

def maxTxBytes : Nat := 1500000000

def create : QuicClientApp := ⟨true, true, 1, 0⟩

/-- The client after the call, and the packet handed to the socket. -/
def sendToNetwork (client : QuicClientApp) (sendTime sz : Nat) :
    Except AppFault (QuicClientApp × Option Datagram) :=
  if client.hasSocket && client.hasQuicClient then
    match (⟨client.seq, sendTime⟩ : Ns3QuicTag).serialize with
    | none => .error .tagOverflow
    | some tag =>
        let client := { client with
          seq := addU64 client.seq 1
          currentTxBytes := addU64 client.currentTxBytes sz }
        if client.currentTxBytes < maxTxBytes then
          .ok (client, some ⟨tag, sz⟩)
        else
          .ok (client, none)
  else
    .ok (client, none)

end QuicClientApp

def toInt32 (number : Nat) : Int :=
  if number % 2 ^ 32 < 2 ^ 31 then (number % 2 ^ 32 : Nat) else (number % 2 ^ 32 : Nat) - 2 ^ 32

theorem toInt32_of_lt {number : Nat} (small : number < 2 ^ 31) : toInt32 number = number := by
  have unchanged : number % 2 ^ 32 = number := Nat.mod_eq_of_lt (lt_trans small (by decide))
  unfold toInt32
  rw [unchanged, if_pos small]

structure QuicServerApp where
  running : Bool
  bindAddress : InetSocketAddress
  trace : Option Ns3QuicServerTraceDispatcher

namespace QuicServerApp

/-- The size of `buffer` in `RecvPacket`. -/
def bufferSize : Nat := 2000

/-- `owd`, from the time of arrival in nanoseconds and the send time in
milliseconds. -/
def oneWayDelay (now sentTime : Nat) : Int :=
  if sentTime ≤ now / 1000000 then toInt32 (now / 1000000 - sentTime) else 0

def recvPacket (server : QuicServerApp) (goodputInterval now : Nat) (peer : InetSocketAddress)
    (datagram : Datagram) : Except AppFault QuicServerApp :=
  if !server.running then
    .ok server
  else
    match Ns3QuicTag.deserialize datagram.tag with
    | none => .error .tagTruncated
    | some tag =>
        if bufferSize < datagram.size then
          .error .bufferOverflow
        else
          .ok { server with
            trace := server.trace.map fun dispatcher =>
              dispatcher.onOwd goodputInterval now peer server.bindAddress (toInt32 tag.seq)
                (oneWayDelay now tag.time) (toInt32 datagram.size) }

theorem recvPacket_of_running {server : QuicServerApp} (running : server.running = true)
    {datagram : Datagram} {tag : Ns3QuicTag}
    (tagged : Ns3QuicTag.deserialize datagram.tag = some tag) (goodputInterval now : Nat)
    (peer : InetSocketAddress) :
    server.recvPacket goodputInterval now peer datagram =
      if bufferSize < datagram.size then
        .error .bufferOverflow
      else
        .ok { server with
          trace := server.trace.map fun dispatcher =>
            dispatcher.onOwd goodputInterval now peer server.bindAddress (toInt32 tag.seq)
              (oneWayDelay now tag.time) (toInt32 datagram.size) } := by
  unfold recvPacket
  rw [if_neg (by simp [running]), tagged]

end QuicServerApp

end Ns3Quic.App
