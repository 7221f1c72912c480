import Ns3Quic.App.Endpoints
import Ns3Quic.Lib.Fold
import Mathlib.Logic.Function.Basic

/-!
# Servers that share a dispatcher

The experiment gives all its servers one dispatcher, and every server shuts it
down when it stops.  The traces of all flows are deleted then, and what the
other servers receive later is recorded nowhere.
-/

namespace Ns3Quic.App

open Trace TransitionSystem LoopRules

/-- A server; `traced` says that `m_trace` is not null. -/
structure SharingServer where
  running : Bool
  traced : Bool
  bindAddress : InetSocketAddress
  deriving DecidableEq

structure ServerGroup (count : Nat) where
  dispatcher : Ns3QuicServerTraceDispatcher
  servers : Fin count → SharingServer

inductive GroupAction (count : Nat) where
  | recvPacket (server : Fin count) (now : Nat) (peer : InetSocketAddress) (datagram : Datagram)
  | stopApplication (server : Fin count)
  deriving DecidableEq

namespace ServerGroup

variable {count : Nat}

def start (dispatcher : Ns3QuicServerTraceDispatcher) (addresses : Fin count → InetSocketAddress) :
    ServerGroup count where
  dispatcher := dispatcher
  servers := fun server => ⟨true, true, addresses server⟩

def server (group : ServerGroup count) (index : Fin count) : QuicServerApp where
  running := (group.servers index).running
  bindAddress := (group.servers index).bindAddress
  trace := if (group.servers index).traced then some group.dispatcher else none

def stopApplication (group : ServerGroup count) (index : Fin count) : ServerGroup count where
  dispatcher :=
    if (group.servers index).traced then group.dispatcher.shutdown else group.dispatcher
  servers := Function.update group.servers index
    { group.servers index with running := false, traced := false }

def perform (goodputInterval : Nat) (group : ServerGroup count) :
    GroupAction count → Except AppFault (ServerGroup count)
  | .recvPacket index now peer datagram => do
      let server ← (group.server index).recvPacket goodputInterval now peer datagram
      pure { group with dispatcher := server.trace.getD group.dispatcher }
  | .stopApplication index => .ok (group.stopApplication index)

def Step (goodputInterval : Nat) (group : ServerGroup count) (action : GroupAction count)
    (next : ServerGroup count) : Prop :=
  group.perform goodputInterval action = .ok next

end ServerGroup

/-- Everything but the stopping of the other servers. -/
def GroupAction.concerns {count : Nat} (index : Fin count) : GroupAction count → Bool
  | .recvPacket _ _ _ _ => true
  | .stopApplication other => other == index

/-! ## Recording -/

section Recording

variable {dispatcher : Ns3QuicServerTraceDispatcher} {addrPair : Ns3QuicAddressPair}

theorem record?_eq_some_iff {trace : Ns3QuicServerTrace} :
    dispatcher.record? addrPair = some trace ↔
      ∃ pointer, dispatcher.find? addrPair = some pointer ∧
        ∃ name, dispatcher.traces[pointer]? = some (name, trace) := by
  simp [Ns3QuicServerTraceDispatcher.record?, Option.bind_eq_some_iff]

theorem record?_of_traceDb_leaf (empty : dispatcher.traceDb = .leaf) :
    dispatcher.record? addrPair = none := by
  unfold Ns3QuicServerTraceDispatcher.record? Ns3QuicServerTraceDispatcher.find?
  rw [empty]
  rfl

variable {goodputInterval now : Nat} {client server : InetSocketAddress} {seq owd len : Int}

theorem traceDb_onOwd :
    (dispatcher.onOwd goodputInterval now client server seq owd len).traceDb =
      dispatcher.traceDb := by
  unfold Ns3QuicServerTraceDispatcher.onOwd
  dsimp only
  split <;> rfl

theorem record?_onOwd {trace : Ns3QuicServerTrace}
    (recorded : dispatcher.record? (.ofAddresses client server) = some trace) :
    (dispatcher.onOwd goodputInterval now client server seq owd len).record?
        (.ofAddresses client server) =
      some (trace.onOwd goodputInterval now seq owd len) := by
  obtain ⟨pointer, found, name, entry⟩ := record?_eq_some_iff.mp recorded
  refine record?_eq_some_iff.mpr ⟨pointer, ?_, name, ?_⟩
  · unfold Ns3QuicServerTraceDispatcher.find?
    rw [traceDb_onOwd]
    exact found
  · unfold Ns3QuicServerTraceDispatcher.onOwd
    dsimp only [Ns3QuicServerTraceDispatcher.find?] at found ⊢
    rw [found]
    simp [entry]

theorem isSome_record?_onOwd (recorded : (dispatcher.record? addrPair).isSome) :
    ((dispatcher.onOwd goodputInterval now client server seq owd len).record?
      addrPair).isSome := by
  obtain ⟨trace, some⟩ := Option.isSome_iff_exists.mp recorded
  obtain ⟨pointer, found, name, entry⟩ := record?_eq_some_iff.mp some
  have length : (dispatcher.onOwd goodputInterval now client server seq owd len).traces.length =
      dispatcher.traces.length := by
    unfold Ns3QuicServerTraceDispatcher.onOwd
    dsimp only
    split
    next => rfl
    next => exact List.length_modify ..
  obtain ⟨inside, _⟩ := List.getElem?_eq_some_iff.mp entry
  rw [← length] at inside
  rw [Option.isSome_iff_exists]
  refine ⟨_, record?_eq_some_iff.mpr ⟨pointer, ?_, _, List.getElem?_eq_getElem inside⟩⟩
  unfold Ns3QuicServerTraceDispatcher.find?
  rw [traceDb_onOwd]
  exact found

end Recording

/-! ## Runs -/

namespace ServerGroup

variable {count : Nat} {goodputInterval : Nat} {group next : ServerGroup count}

def reported (group : ServerGroup count) (goodputInterval : Nat) (index : Fin count) (now : Nat)
    (peer : InetSocketAddress) (datagram : Datagram) (tag : Ns3QuicTag) :
    Ns3QuicServerTraceDispatcher :=
  group.dispatcher.onOwd goodputInterval now peer (group.servers index).bindAddress
    (toInt32 tag.seq) (QuicServerApp.oneWayDelay now tag.time) (toInt32 datagram.size)

/-- A packet is reported by a running server that has the dispatcher, and by no
other. -/
theorem step_recvPacket {index : Fin count} {now : Nat} {peer : InetSocketAddress}
    {datagram : Datagram}
    (received : group.Step goodputInterval (.recvPacket index now peer datagram) next) :
    next.servers = group.servers ∧
      ((group.servers index).running = true ∧ (group.servers index).traced = true ∧
          (∃ tag, Ns3QuicTag.deserialize datagram.tag = some tag ∧
            next.dispatcher = group.reported goodputInterval index now peer datagram tag) ∨
        ¬((group.servers index).running = true ∧ (group.servers index).traced = true) ∧
          next.dispatcher = group.dispatcher) := by
  obtain ⟨after, result, rfl⟩ : ∃ after,
      (group.server index).recvPacket goodputInterval now peer datagram = .ok after ∧
        next = { group with dispatcher := after.trace.getD group.dispatcher } := by
    obtain ⟨after, result, collected⟩ := bind_eq_ok.mp received
    exact ⟨after, result, (Except.ok.inj collected).symm⟩
  refine ⟨rfl, ?_⟩
  unfold QuicServerApp.recvPacket at result
  split at result
  next stopped =>
    right
    have idle : ¬(group.servers index).running = true := by simpa [server] using stopped
    refine ⟨fun both => idle both.1, ?_⟩
    rw [← Except.ok.inj result]
    dsimp only [server]
    split <;> rfl
  next runs =>
    have running : (group.servers index).running = true := by simpa [server] using runs
    split at result
    next => cases result
    next tag tagged =>
      obtain ⟨_, rfl⟩ := check_eq_ok.mp result
      cases traced : (group.servers index).traced with
      | true =>
          left
          refine ⟨running, rfl, tag, tagged, ?_⟩
          simp [server, traced, reported]
      | false =>
          right
          exact ⟨(fun both => nomatch both.2), by simp [server, traced]⟩

/-- As long as no server stops, all have the dispatcher and every monitored flow
has its trace; once a server has stopped, the map is empty. -/
theorem shared_invariant {dispatcher : Ns3QuicServerTraceDispatcher}
    {addresses : Fin count → InetSocketAddress} {before : List (GroupAction count)}
    (run : Run (Step goodputInterval) (start dispatcher addresses) before group) :
    (∀ other, .stopApplication other ∉ before) ∧
        group.servers = (start dispatcher addresses).servers ∧
        (∀ addrPair, (dispatcher.record? addrPair).isSome →
          (group.dispatcher.record? addrPair).isSome) ∨
      (∃ other, .stopApplication other ∈ before) ∧ group.dispatcher.traceDb = .leaf := by
  induction run with
  | start => exact .inl ⟨fun _ => List.not_mem_nil, rfl, fun _ => id⟩
  | @snoc before action middle last run taken inductionHypothesis =>
      cases action with
      | recvPacket index now peer datagram =>
          obtain ⟨servers, effect⟩ := step_recvPacket taken
          rcases inductionHypothesis with ⟨unstopped, fresh, kept⟩ | ⟨⟨other, stopped⟩, empty⟩
          · left
            refine ⟨by simpa using unstopped, servers.trans fresh, fun addrPair monitored => ?_⟩
            rcases effect with ⟨_, _, _, _, result⟩ | ⟨_, result⟩
            · rw [result]
              exact isSome_record?_onOwd (kept addrPair monitored)
            · rw [result]
              exact kept addrPair monitored
          · right
            refine ⟨⟨other, List.mem_append_left _ stopped⟩, ?_⟩
            rcases effect with ⟨_, _, _, _, result⟩ | ⟨_, result⟩
            · rw [result]
              exact traceDb_onOwd.trans empty
            · rw [result]
              exact empty
      | stopApplication index =>
          right
          refine ⟨⟨index, by simp⟩, ?_⟩
          have result : last = middle.stopApplication index := (Except.ok.inj taken).symm
          rw [result, ServerGroup.stopApplication]
          dsimp only
          rcases inductionHypothesis with ⟨_, fresh, _⟩ | ⟨_, empty⟩
          · rw [fresh, if_pos (show ((start dispatcher addresses).servers index).traced = true
              from rfl)]
            rfl
          · split
            next => rfl
            next => exact empty

/-- A packet of a monitored flow is recorded by a running server, as if no other
server had been stopped, exactly if no server has been stopped. -/
theorem recorded_iff_unstopped {dispatcher : Ns3QuicServerTraceDispatcher}
    {addresses : Fin count → InetSocketAddress} {before : List (GroupAction count)}
    {index : Fin count} {now : Nat} {peer : InetSocketAddress} {datagram : Datagram}
    (run : Run (Step goodputInterval) (start dispatcher addresses) before group)
    (running : (group.servers index).running = true)
    (monitored : (dispatcher.record? (.ofAddresses peer (addresses index))).isSome)
    (received : group.Step goodputInterval (.recvPacket index now peer datagram) next) :
    (∃ tag trace reference, Ns3QuicTag.deserialize datagram.tag = some tag ∧
      group.dispatcher.record? (.ofAddresses peer (addresses index)) = some trace ∧
      next.dispatcher.record? (.ofAddresses peer (addresses index)) =
        some (trace.onOwd goodputInterval now (toInt32 tag.seq)
          (QuicServerApp.oneWayDelay now tag.time) (toInt32 datagram.size)) ∧
      Run (Step goodputInterval) (start dispatcher addresses)
        (before.filter (GroupAction.concerns index) ++ [.recvPacket index now peer datagram])
        reference ∧
      reference.dispatcher.record? (.ofAddresses peer (addresses index)) =
        next.dispatcher.record? (.ofAddresses peer (addresses index))) ↔
    ∀ other, .stopApplication other ∉ before := by
  constructor
  · rintro ⟨tag, trace, reference, _, recorded, _⟩ other stopped
    rcases shared_invariant run with ⟨unstopped, _⟩ | ⟨_, empty⟩
    · exact unstopped other stopped
    · rw [record?_of_traceDb_leaf empty] at recorded
      cases recorded
  · intro unstopped
    rcases shared_invariant run with ⟨_, fresh, kept⟩ | ⟨⟨other, stopped⟩, _⟩
    · obtain ⟨trace, recorded⟩ := Option.isSome_iff_exists.mp (kept _ monitored)
      have own : (group.servers index).bindAddress = addresses index := by rw [fresh]; rfl
      have traced : (group.servers index).traced = true := by rw [fresh]; rfl
      have everything : before.filter (GroupAction.concerns index) = before := by
        rw [List.filter_eq_self]
        intro action membership
        cases action with
        | recvPacket _ _ _ _ => rfl
        | stopApplication other => exact absurd membership (unstopped other)
      obtain ⟨_, ⟨_, _, tag, tagged, result⟩ | ⟨impossible, _⟩⟩ := step_recvPacket received
      · refine ⟨tag, trace, next, tagged, recorded, ?_, ?_, rfl⟩
        · rw [result, reported, own]
          exact record?_onOwd recorded
        · rw [everything]
          exact .snoc run received
      · exact absurd ⟨running, traced⟩ impossible
    · exact absurd stopped (unstopped other)

def sampleServers : Fin 2 → InetSocketAddress :=
  fun server => ⟨0x0A000002, if server = 0 then 1234 else 1235⟩

def sampleDispatcher : Ns3QuicServerTraceDispatcher :=
  (performAll (Ns3QuicServerTraceDispatcher.perform 1000000000) (.create 7)
    [.addMonitorAddressPair ⟨0x0A000001, 0x0A000002, 1000, 1234⟩,
      .addMonitorAddressPair ⟨0x0A000001, 0x0A000002, 1001, 1235⟩]).1

def samplePacket (number : UInt8) : Datagram := ⟨[number, 5], 100⟩

/-- The first packet of the second flow, with both servers running. -/
theorem recorded_while_running :
    ∃ next, (start sampleDispatcher sampleServers).Step 1000000000
        (.recvPacket 1 6000000 ⟨0x0A000001, 1001⟩ (samplePacket 1)) next ∧
      next.dispatcher.record? ⟨0x0A000001, 0x0A000002, 1001, 1235⟩ =
        some ((Ns3QuicServerTrace.create 7).onOwd 1000000000 6000000 1 1 100) := by
  have received : (start sampleDispatcher sampleServers).Step 1000000000
      (.recvPacket 1 6000000 ⟨0x0A000001, 1001⟩ (samplePacket 1)) _ := rfl
  obtain ⟨tag, trace, _, tagged, before, recorded, _⟩ :=
    (recorded_iff_unstopped .start rfl (by decide) received).mpr fun _ => List.not_mem_nil
  obtain rfl : ⟨1, 5⟩ = tag := Option.some.inj tagged
  obtain rfl : Ns3QuicServerTrace.create 7 = trace := Option.some.inj before
  exact ⟨_, received, recorded⟩

/-- The first server stops, and a packet of the second flow, whose server is
still running, is recorded nowhere. -/
theorem stopped_server_ends_recording :
    ∃ group next, Run (Step 1000000000) (start sampleDispatcher sampleServers)
        [.stopApplication 0] group ∧
      (group.servers 1).running = true ∧
      group.Step 1000000000 (.recvPacket 1 6000000 ⟨0x0A000001, 1001⟩ (samplePacket 1)) next ∧
      sampleDispatcher.record? ⟨0x0A000001, 0x0A000002, 1001, 1235⟩ = some (.create 7) ∧
      next.dispatcher.record? ⟨0x0A000001, 0x0A000002, 1001, 1235⟩ = none ∧
      next.dispatcher.traces.map Prod.snd = [.create 7, .create 7] :=
  ⟨_, _, .snoc .start rfl, rfl, rfl, by decide, by decide, by decide⟩

end ServerGroup

end Ns3Quic.App
