import Ns3Quic.App.Endpoints
import Ns3Quic.Lib.Fold
import Ns3Quic.Lib.LossyChannel

/-!
# Loss statistics from end to end

A client sends tagged packets through a path that may drop packets but neither
reorders nor duplicates them, to a server whose dispatcher monitors the flow.
The loss counter of the flow's trace is then the number of packets dropped up
to the largest number seen, as long as no packet is larger than the buffer it
is copied into.
-/

namespace Ns3Quic.App

open CongestionControl Trace LossyChannel LoopRules TransitionSystem RedBlack

structure Flow where
  client : InetSocketAddress
  server : InetSocketAddress
  /-- `g_goodputInterval`, which the traces share. -/
  goodputInterval : Nat

def Flow.addrPair (flow : Flow) : Ns3QuicAddressPair := .ofAddresses flow.client flow.server

structure EndToEnd where
  client : QuicClientApp
  channel : Channel Datagram
  server : QuicServerApp

inductive EndToEndAction where
  | sendToNetwork (sendTime sz : Nat)
  | deliver (now : Nat)
  | drop (index : Nat)
  /-- The socket and the QUIC client of the client application come and go. -/
  | setClient (hasSocket hasQuicClient : Bool)
  /-- A call of the dispatcher on behalf of other flows. -/
  | dispatcherCall (call : DispatcherCall)

namespace EndToEnd

def create (e : UInt8) (flow : Flow) (monitored : List Ns3QuicAddressPair) : EndToEnd where
  client := .create
  channel := .empty
  server := ⟨true, flow.server,
    some (performAll (Ns3QuicServerTraceDispatcher.perform flow.goodputInterval) (.create e)
      (monitored.map .addMonitorAddressPair)).1⟩

def perform (flow : Flow) (state : EndToEnd) : EndToEndAction → Except AppFault EndToEnd
  | .sendToNetwork sendTime sz => do
      let (client, packet) ← state.client.sendToNetwork sendTime sz
      pure { state with
        client := client
        channel := packet.elim state.channel state.channel.send }
  | .deliver now =>
      match state.channel.inFlight with
      | [] => .ok state
      | datagram :: _ => do
          let server ←
            state.server.recvPacket flow.goodputInterval now flow.client datagram
          pure { state with server := server, channel := state.channel.deliver }
  | .drop index => .ok { state with channel := state.channel.drop index }
  | .setClient hasSocket hasQuicClient =>
      .ok { state with
        client := { state.client with
          hasSocket := hasSocket, hasQuicClient := hasQuicClient } }
  | .dispatcherCall call =>
      .ok { state with
        server := { state.server with
          trace := state.server.trace.map fun dispatcher =>
            (dispatcher.perform flow.goodputInterval call).1 } }

def Foreign (flow : Flow) : DispatcherCall → Prop
  | .addMonitorAddressPair _ => True
  | .onOwd _ client server _ _ _ => Ns3QuicAddressPair.ofAddresses client server ≠ flow.addrPair

/-- Fewer than `2 ^ 31` packets, sent from the first millisecond on. -/
def Enabled (flow : Flow) (flows : Ns3QuicAddressPair → Prop) (state : EndToEnd) :
    EndToEndAction → Prop
  | .sendToNetwork sendTime sz =>
      state.client.seq < 2 ^ 31 ∧ 1 ≤ sendTime ∧ sendTime < 2 ^ 63 ∧ sz < 2 ^ 32
  | .dispatcherCall call => flows call.addrPair ∧ Foreign flow call
  | .deliver _ | .drop _ | .setClient _ _ => True

def FitsBuffer (state : EndToEnd) : EndToEndAction → Prop
  | .deliver _ => ∀ datagram ∈ state.channel.inFlight.head?,
      datagram.size ≤ QuicServerApp.bufferSize
  | _ => True

def Step (flow : Flow) (flows : Ns3QuicAddressPair → Prop) :
    EndToEnd → EndToEndAction → EndToEnd → Prop :=
  Guarded (Enabled flow flows) (perform flow)

instance (flow : Flow) (call : DispatcherCall) : Decidable (Foreign flow call) :=
  match call with
  | .addMonitorAddressPair _ => inferInstanceAs (Decidable True)
  | .onOwd _ _ _ _ _ _ => inferInstanceAs (Decidable (_ ≠ _))

instance (flow : Flow) (flows : Ns3QuicAddressPair → Prop) [DecidablePred flows]
    (state : EndToEnd) (action : EndToEndAction) : Decidable (Enabled flow flows state action) :=
  match action with
  | .sendToNetwork _ _ => inferInstanceAs (Decidable (_ ∧ _ ∧ _ ∧ _))
  | .dispatcherCall _ => inferInstanceAs (Decidable (_ ∧ Foreign flow _))
  | .deliver _ | .drop _ | .setClient _ _ => inferInstanceAs (Decidable True)

end EndToEnd

/-! ## The client -/

def Datagram.number (datagram : Datagram) : Nat := datagram.sequence.getD 0

/-- The packets handed to the socket are numbered from one without a gap.
Numbers run ahead of the packets once the client has reached its limit. -/
structure NumbersPackets (client : QuicClientApp) (handed : List Datagram) : Prop where
  sequences : handed.map Datagram.sequence = (List.range' 1 handed.length).map some
  next : client.currentTxBytes < QuicClientApp.maxTxBytes → client.seq = handed.length + 1
  ahead : handed.length < client.seq
  limit : client.seq ≤ 2 ^ 31
  bytes : client.currentTxBytes ≤ (client.seq - 1) * 2 ^ 32

theorem NumbersPackets.create : NumbersPackets QuicClientApp.create [] where
  sequences := rfl
  next := fun _ => rfl
  ahead := by decide
  limit := by decide
  bytes := by decide

theorem NumbersPackets.numbered {client : QuicClientApp} {channel : Channel Datagram}
    (numbers : NumbersPackets client channel.handed) : channel.Numbered Datagram.number := by
  have sequences := congrArg (List.map fun sequence => Option.getD sequence 0) numbers.sequences
  rw [List.map_map, List.map_map] at sequences
  have identity : (fun sequence : Option Nat => sequence.getD 0) ∘ some = id := rfl
  rw [identity, List.map_id] at sequences
  exact sequences

theorem NumbersPackets.carried {client : QuicClientApp} {handed : List Datagram}
    (numbers : NumbersPackets client handed) {datagram : Datagram}
    (membership : datagram ∈ handed) : ∃ number, datagram.sequence = some number := by
  have carried : datagram.sequence ∈ (List.range' 1 handed.length).map some := by
    rw [← numbers.sequences]
    exact List.mem_map_of_mem membership
  obtain ⟨number, _, sequence⟩ := List.mem_map.mp carried
  exact ⟨number, sequence.symm⟩

section Sending

variable {client next : QuicClientApp} {handed : List Datagram} {sz : Nat}

theorem NumbersPackets.bytes_after (numbers : NumbersPackets client handed)
    (sizeFits : sz < 2 ^ 32) : client.currentTxBytes + sz ≤ client.seq * 2 ^ 32 := by
  have positive := numbers.ahead
  have before := numbers.bytes
  omega

theorem NumbersPackets.handOver (numbers : NumbersPackets client handed)
    (few : client.seq < 2 ^ 31) (sizeFits : sz < 2 ^ 32) {packet : Datagram}
    (carried : packet.sequence = some client.seq) (seq : next.seq = client.seq + 1)
    (bytes : next.currentTxBytes = client.currentTxBytes + sz)
    (below : next.currentTxBytes < QuicClientApp.maxTxBytes) :
    NumbersPackets next (handed ++ [packet]) := by
  have here : client.seq = handed.length + 1 := numbers.next (by omega)
  have most := numbers.bytes_after sizeFits
  constructor
  case sequences =>
    have last : packet.sequence = some (1 + handed.length) := by rw [carried, here, Nat.add_comm]
    rw [List.map_append, numbers.sequences, List.length_append, List.length_singleton,
      List.range'_1_concat, List.map_append]
    simp [last]
  case next => simp [seq, here]
  case ahead => simp [seq, here]
  case limit => omega
  case bytes =>
    rw [bytes, seq, Nat.add_sub_cancel]
    exact most

theorem NumbersPackets.withhold (numbers : NumbersPackets client handed)
    (few : client.seq < 2 ^ 31) (sizeFits : sz < 2 ^ 32) (seq : next.seq = client.seq + 1)
    (bytes : next.currentTxBytes = client.currentTxBytes + sz)
    (reached : ¬ next.currentTxBytes < QuicClientApp.maxTxBytes) : NumbersPackets next handed where
  sequences := numbers.sequences
  next := fun below => absurd below reached
  ahead := by
    rw [seq]
    exact Nat.lt_succ_of_lt numbers.ahead
  limit := by omega
  bytes := by
    rw [bytes, seq, Nat.add_sub_cancel]
    exact numbers.bytes_after sizeFits

end Sending

theorem NumbersPackets.sendToNetwork {client : QuicClientApp} {handed : List Datagram}
    (numbers : NumbersPackets client handed) {sendTime sz : Nat}
    (few : client.seq < 2 ^ 31) (started : 1 ≤ sendTime) (timeFits : sendTime < 2 ^ 63)
    (sizeFits : sz < 2 ^ 32) :
    ∃ next packet, client.sendToNetwork sendTime sz = .ok (next, packet) ∧
      NumbersPackets next (handed ++ packet.toList) := by
  have seqPositive : 0 < client.seq := Nat.zero_lt_of_lt numbers.ahead
  obtain ⟨tag, serialized, deserialized⟩ :=
    deserialize_serialize ⟨client.seq, sendTime⟩ seqPositive started
      (lt_trans few (by decide)) timeFits
  have counted : addU64 client.seq 1 = client.seq + 1 := addU64_of_lt (by omega)
  have most := numbers.bytes_after sizeFits
  have summed : addU64 client.currentTxBytes sz = client.currentTxBytes + sz :=
    addU64_of_lt (by omega)
  unfold QuicClientApp.sendToNetwork
  split
  next =>
    rw [serialized]
    dsimp only
    split
    next below =>
      have carried : Datagram.sequence ⟨tag, sz⟩ = some client.seq := by
        rw [Datagram.sequence, deserialized, Option.map_some]
      exact ⟨_, _, rfl, numbers.handOver few sizeFits carried counted summed below⟩
    next reached =>
      refine ⟨_, _, rfl, ?_⟩
      rw [Option.toList_none, List.append_nil]
      exact numbers.withhold few sizeFits counted summed reached
  next =>
    refine ⟨_, _, rfl, ?_⟩
    rw [Option.toList_none, List.append_nil]
    exact numbers

/-! ## The server -/

section Server

variable {e : UInt8} {flows : Ns3QuicAddressPair → Prop} {flow : Flow}
  {server : QuicServerApp} {registry : Registry} {trace : Ns3QuicServerTrace}

/-- The server runs, and its dispatcher has the trace for the flow. -/
structure MonitorsFlow (e : UInt8) (flows : Ns3QuicAddressPair → Prop) (flow : Flow)
    (server : QuicServerApp) (registry : Registry) (trace : Ns3QuicServerTrace) : Prop where
  running : server.running = true
  bound : server.bindAddress = flow.server
  dispatcher : ∃ dispatcher, server.trace = some dispatcher ∧
    Ns3QuicServerTraceDispatcher.Simulates e flows dispatcher registry
  registered : registry flow.addrPair = some trace

theorem registered_of_added (e : UInt8) (goodputInterval : Nat) (registry : Registry)
    (monitored : List Ns3QuicAddressPair) (addrPair : Ns3QuicAddressPair)
    (fresh : ∀ pair trace, registry pair = some trace → trace = .create e)
    (added : addrPair ∈ monitored ∨ registry addrPair = some (.create e)) :
    (performAll (Registry.perform e goodputInterval) registry
      (monitored.map .addMonitorAddressPair)).1 addrPair = some (.create e) := by
  induction monitored generalizing registry with
  | nil =>
      rcases added with impossible | registered
      · cases impossible
      · exact registered
  | cons pair rest inductionHypothesis =>
      have created : (registry pair).getD (.create e) = .create e := by
        cases known : registry pair with
        | none => rfl
        | some trace => exact fresh pair trace known
      apply inductionHypothesis
      · intro other trace registered
        simp only [created, Function.update_apply] at registered
        split at registered
        next => exact (Option.some.inj registered).symm
        next => exact fresh other trace registered
      · simp only [created, Function.update_apply]
        split
        next => exact Or.inr rfl
        next different =>
          rcases added with inList | registered
          · exact Or.inl ((List.mem_cons.mp inList).resolve_left different)
          · exact Or.inr registered

theorem MonitorsFlow.dispatcherCall (order : StrictTotalOn Ns3QuicAddressPair.less flows)
    (monitors : MonitorsFlow e flows flow server registry trace) {call : DispatcherCall}
    (known : flows call.addrPair) (foreign : EndToEnd.Foreign flow call) :
    MonitorsFlow e flows flow
      { server with
        trace := server.trace.map fun dispatcher =>
          (dispatcher.perform flow.goodputInterval call).1 }
      (registry.perform e flow.goodputInterval call).1 trace := by
  obtain ⟨running, bound, ⟨dispatcher, installed, simulates⟩, registered⟩ := monitors
  refine ⟨running, bound, ⟨_, ?_, (simulates.perform order _ call known).2⟩, ?_⟩
  · dsimp only
    rw [installed, Option.map_some]
  · cases call with
    | addMonitorAddressPair addrPair =>
        simp only [Registry.perform, Function.update_apply]
        split
        next same => rw [← same, registered, Option.getD_some]
        next => exact registered
    | onOwd now client server seq owd len =>
        simp only [Registry.perform, Function.update_apply]
        rw [if_neg (Ne.symm foreign)]
        exact registered

theorem MonitorsFlow.recvPacket (order : StrictTotalOn Ns3QuicAddressPair.less flows)
    (member : flows flow.addrPair) (monitors : MonitorsFlow e flows flow server registry trace)
    (now : Nat) {datagram : Datagram} {tag : Ns3QuicTag}
    (tagged : Ns3QuicTag.deserialize datagram.tag = some tag)
    (fits : datagram.size ≤ QuicServerApp.bufferSize) :
    ∃ next nextRegistry,
      server.recvPacket flow.goodputInterval now flow.client datagram = .ok next ∧
      MonitorsFlow e flows flow next nextRegistry
        (trace.onOwd flow.goodputInterval now (toInt32 tag.seq)
          (QuicServerApp.oneWayDelay now tag.time) (toInt32 datagram.size)) := by
  obtain ⟨running, bound, ⟨dispatcher, installed, simulates⟩, registered⟩ := monitors
  obtain ⟨_, recorded⟩ := simulates.perform order flow.goodputInterval
    (.onOwd now flow.client flow.server (toInt32 tag.seq)
      (QuicServerApp.oneWayDelay now tag.time) (toInt32 datagram.size)) member
  have result := QuicServerApp.recvPacket_of_running running tagged flow.goodputInterval now
    flow.client
  rw [if_neg (Nat.not_lt.mpr fits), installed, bound, Option.map_some] at result
  refine ⟨_, _, result, running, rfl, ⟨_, rfl, recorded⟩, ?_⟩
  simp only [Registry.perform]
  rw [← Flow.addrPair, Function.update_self, registered, Option.map_some]

theorem MonitorsFlow.fits_of_recvPacket
    (monitors : MonitorsFlow e flows flow server registry trace) {now : Nat}
    {datagram : Datagram} {tag : Ns3QuicTag} {next : QuicServerApp}
    (tagged : Ns3QuicTag.deserialize datagram.tag = some tag)
    (result : server.recvPacket flow.goodputInterval now flow.client datagram = .ok next) :
    datagram.size ≤ QuicServerApp.bufferSize := by
  rw [QuicServerApp.recvPacket_of_running monitors.running tagged] at result
  by_contra tooLarge
  rw [if_pos (Nat.not_le.mp tooLarge)] at result
  cases result

end Server

/-! ## The whole path -/

namespace EndToEnd

section Path

variable {e : UInt8} {flows : Ns3QuicAddressPair → Prop} {flow : Flow}
  {state next : EndToEnd}

structure Consistent (e : UInt8) (flows : Ns3QuicAddressPair → Prop) (flow : Flow)
    (state : EndToEnd) : Prop where
  numbers : NumbersPackets state.client state.channel.handed
  counts : ∃ registry trace, MonitorsFlow e flows flow state.server registry trace ∧
    trace.CountsLoss (state.channel.lastReceived Datagram.number) state.channel.received.length

theorem consistent_create (order : StrictTotalOn Ns3QuicAddressPair.less flows)
    (lossTracing : (e &&& enableLost != 0) = true) {monitored : List Ns3QuicAddressPair}
    (known : ∀ addrPair ∈ monitored, flows addrPair) (member : flow.addrPair ∈ monitored) :
    Consistent e flows flow (create e flow monitored) where
  numbers := .create
  counts := by
    have calls : ∀ call ∈ monitored.map DispatcherCall.addMonitorAddressPair,
        flows call.addrPair := by
      intro call membership
      obtain ⟨addrPair, inList, rfl⟩ := List.mem_map.mp membership
      exact known addrPair inList
    obtain ⟨_, simulates⟩ :=
      (Ns3QuicServerTraceDispatcher.simulates_create e flows).performAll order
        flow.goodputInterval _ calls
    refine ⟨_, .create e, ⟨rfl, rfl, ⟨_, rfl, simulates⟩, ?_⟩,
      Ns3QuicServerTrace.countsLoss_create lossTracing⟩
    apply registered_of_added
    · intro pair trace impossible
      cases impossible
    · exact Or.inl member

/-- The first packet in flight carries its number, which is beyond every number
received. -/
theorem Consistent.head_tagged (consistent : Consistent e flows flow state)
    {datagram : Datagram} {rest : List Datagram}
    (shape : state.channel.inFlight = datagram :: rest) :
    ∃ tag, Ns3QuicTag.deserialize datagram.tag = some tag ∧ datagram.number = tag.seq ∧
      tag.seq < 2 ^ 31 ∧ state.channel.lastReceived Datagram.number < tag.seq := by
  have numbers := consistent.numbers
  have inFlight : datagram ∈ state.channel.inFlight := by simp [shape]
  have inHanded := state.channel.inOrder.subset (List.mem_append_right _ inFlight)
  obtain ⟨number, sequence⟩ := numbers.carried inHanded
  obtain ⟨tag, tagged, same⟩ := Option.map_eq_some_iff.mp sequence
  have numberEq : datagram.number = tag.seq := by
    rw [Datagram.number, sequence, Option.getD_some, same]
  have upper := (numbers.numbered.bounds inHanded).2
  have beyond := numbers.numbered.separated.2 datagram inFlight
  have ahead := numbers.ahead
  have limit := numbers.limit
  rw [numberEq] at upper beyond
  exact ⟨tag, tagged, numberEq, by omega, beyond⟩

theorem Consistent.deliver (order : StrictTotalOn Ns3QuicAddressPair.less flows)
    (member : flows flow.addrPair) (consistent : Consistent e flows flow state) (now : Nat)
    {datagram : Datagram} {rest : List Datagram}
    (shape : state.channel.inFlight = datagram :: rest)
    (fits : datagram.size ≤ QuicServerApp.bufferSize) :
    ∃ server, state.server.recvPacket flow.goodputInterval now flow.client datagram =
        .ok server ∧
      Consistent e flows flow
        { state with server := server, channel := state.channel.deliver } := by
  obtain ⟨tag, tagged, number, small, beyond⟩ := consistent.head_tagged shape
  obtain ⟨registry, trace, monitors, counts⟩ := consistent.counts
  obtain ⟨server, nextRegistry, received, nextMonitors⟩ :=
    monitors.recvPacket order member now tagged fits
  rw [toInt32_of_lt small] at nextMonitors
  refine ⟨server, received, ?_, nextRegistry, _, nextMonitors, ?_⟩
  · rw [Channel.handed_deliver]
    exact consistent.numbers
  · have arrived := Channel.received_deliver shape
    rw [Channel.lastReceived_concat arrived, number, arrived, List.length_append,
      List.length_singleton]
    exact counts.onOwd beyond _ _ _ _

/-- Every enabled action that meets the size of the buffer succeeds, and keeps
numbers and counters consistent. -/
theorem Consistent.perform (order : StrictTotalOn Ns3QuicAddressPair.less flows)
    (member : flows flow.addrPair) (consistent : Consistent e flows flow state)
    {action : EndToEndAction} (enabled : Enabled flow flows state action)
    (fits : state.FitsBuffer action) :
    ∃ next, state.perform flow action = .ok next ∧ Consistent e flows flow next := by
  cases action with
  | sendToNetwork sendTime sz =>
      obtain ⟨few, started, timeFits, sizeFits⟩ := enabled
      obtain ⟨client, packet, sent, numbers⟩ :=
        consistent.numbers.sendToNetwork few started timeFits sizeFits
      refine ⟨_, by rw [EndToEnd.perform, sent]; rfl, ?_⟩
      cases packet with
      | none =>
          rw [Option.toList_none, List.append_nil] at numbers
          exact ⟨numbers, consistent.counts⟩
      | some datagram => exact ⟨numbers, consistent.counts⟩
  | deliver now =>
      cases shape : state.channel.inFlight with
      | nil => exact ⟨state, by rw [EndToEnd.perform, shape], consistent⟩
      | cons datagram rest =>
          have small : datagram.size ≤ QuicServerApp.bufferSize :=
            fits datagram (by simp [shape])
          obtain ⟨server, received, after⟩ := consistent.deliver order member now shape small
          exact ⟨_, by rw [EndToEnd.perform, shape]; dsimp only; rw [received]; rfl, after⟩
  | drop index =>
      refine ⟨_, rfl, ?_, ?_⟩
      · rw [Channel.handed_drop]
        exact consistent.numbers
      · rw [Channel.received_drop, Channel.lastReceived, Channel.received_drop]
        exact consistent.counts
  | setClient hasSocket hasQuicClient =>
      exact ⟨_, rfl, { consistent.numbers with }, consistent.counts⟩
  | dispatcherCall call =>
      obtain ⟨registry, trace, monitors, counts⟩ := consistent.counts
      exact ⟨_, rfl, consistent.numbers, _, trace,
        monitors.dispatcherCall order enabled.1 enabled.2, counts⟩

theorem Consistent.fitsBuffer (consistent : Consistent e flows flow state)
    {action : EndToEndAction} (result : state.perform flow action = .ok next) :
    state.FitsBuffer action := by
  cases action with
  | deliver now =>
      intro datagram atHead
      cases shape : state.channel.inFlight with
      | nil => simp [shape] at atHead
      | cons first rest =>
          have same : first = datagram := by simpa [shape] using atHead
          obtain ⟨tag, tagged, _⟩ := consistent.head_tagged shape
          obtain ⟨registry, trace, monitors, _⟩ := consistent.counts
          rw [EndToEnd.perform, shape] at result
          obtain ⟨server, received, _⟩ := bind_eq_ok.mp result
          rw [← same]
          exact monitors.fits_of_recvPacket tagged received
  | sendToNetwork sendTime sz => trivial
  | drop index => trivial
  | setClient hasSocket hasQuicClient => trivial
  | dispatcherCall call => trivial

theorem Consistent.step (order : StrictTotalOn Ns3QuicAddressPair.less flows)
    (member : flows flow.addrPair) (consistent : Consistent e flows flow state)
    {action : EndToEndAction} (step : Step flow flows state action next) :
    Consistent e flows flow next := by
  obtain ⟨enabled, result⟩ := step
  obtain ⟨after, performed, holds⟩ :=
    consistent.perform order member enabled (consistent.fitsBuffer result)
  rw [result] at performed
  rw [Except.ok.inj performed]
  exact holds

theorem countP_dropped (numbers : NumbersPackets state.client state.channel.handed)
    {largest : Int} {last : Nat} (same : largest = last) :
    (state.channel.dropped.countP fun datagram =>
        datagram.sequence.any fun sequence => decide ((sequence : Int) ≤ largest)) =
      state.channel.dropped.countP fun datagram => decide (datagram.number ≤ last) := by
  apply List.countP_congr
  intro datagram membership
  have inHanded : datagram ∈ state.channel.handed :=
    state.channel.conserved.mem_iff.mpr (List.mem_append_right _ membership)
  obtain ⟨number, sequence⟩ := numbers.carried inHanded
  rw [Datagram.number, sequence, same]
  simp

end Path

/-- In every run over a path that drops but neither reorders nor duplicates,
the packets handed to the socket are numbered 1, 2, 3, and so on; the one trace
of the flow counts as lost the dropped packets up to the largest number it has
seen; and every action that meets the size of the buffer succeeds. -/
theorem loss_statistics_exact {e : UInt8} {flows : Ns3QuicAddressPair → Prop} {flow : Flow}
    {monitored : List Ns3QuicAddressPair} {actions : List EndToEndAction} {state : EndToEnd}
    (comparable : ∀ first second, flows first → flows second → first.Comparable second)
    (lossTracing : (e &&& enableLost != 0) = true)
    (known : ∀ addrPair ∈ monitored, flows addrPair) (member : flow.addrPair ∈ monitored)
    (run : Run (Step flow flows) (create e flow monitored) actions state) :
    state.channel.handed.map Datagram.sequence =
        (List.range' 1 state.channel.handed.length).map some ∧
    (∃ dispatcher trace, state.server.trace = some dispatcher ∧
      (∀ other, (flow.addrPair, other) ∈ dispatcher.traces ↔ other = trace) ∧
      trace.lostPackets = (state.channel.dropped.countP fun datagram =>
        datagram.sequence.any fun sequence =>
          decide ((sequence : Int) ≤ trace.largestSeq) : Nat) ∧
      trace.lostPackets + state.channel.received.length = trace.largestSeq) ∧
    ∀ action, Enabled flow flows state action → state.FitsBuffer action →
      ∃ next, state.perform flow action = .ok next := by
  have order := (Ns3QuicAddressPair.strictTotalOn_less_iff flows).mpr comparable
  have memberFlow := known _ member
  have consistent : Consistent e flows flow state :=
    run.invariant (Consistent e flows flow)
      (consistent_create order lossTracing known member)
      fun _ _ _ holds step => holds.step order memberFlow step
  refine ⟨consistent.numbers.sequences, ?_, ?_⟩
  · obtain ⟨registry, trace, monitors, counts⟩ := consistent.counts
    obtain ⟨dispatcher, installed, simulates⟩ := monitors.dispatcher
    have total := consistent.numbers.numbered.dropped_add_received
    have lost := counts.lostPackets
    refine ⟨dispatcher, trace, installed, ?_, ?_, ?_⟩
    · intro other
      rw [simulates.recorded, monitors.registered, Option.some.injEq, eq_comm]
    · rw [countP_dropped consistent.numbers counts.largestSeq]
      omega
    · rw [counts.largestSeq]
      exact lost
  · intro action enabled fits
    obtain ⟨next, performed, _⟩ := consistent.perform order memberFlow enabled fits
    exact ⟨next, performed⟩

def sampleFlow : Flow := ⟨⟨0x0A000001, 1000⟩, ⟨0x0A000002, 2000⟩, 1000000000⟩

/-- The second of three packets is dropped. -/
theorem loss_statistics_exact_gap :
    ∃ (state : EndToEnd) (dispatcher : Ns3QuicServerTraceDispatcher)
      (trace : Ns3QuicServerTrace),
      Run (Step sampleFlow (· = sampleFlow.addrPair)) (create 7 sampleFlow [sampleFlow.addrPair])
        [.sendToNetwork 1 1200, .sendToNetwork 2 1200, .sendToNetwork 3 1200, .drop 1,
          .deliver 5000000, .deliver 6000000] state ∧
      state.server.trace = some dispatcher ∧
      (sampleFlow.addrPair, trace) ∈ dispatcher.traces ∧
      state.channel.dropped.length = 1 ∧ state.channel.received.length = 2 ∧
      trace.lostPackets + state.channel.received.length = trace.largestSeq := by
  have run : Run (Step sampleFlow (· = sampleFlow.addrPair))
      (create 7 sampleFlow [sampleFlow.addrPair]) _ _ := Run.of_execute
    [.sendToNetwork 1 1200, .sendToNetwork 2 1200, .sendToNetwork 3 1200, .drop 1,
      .deliver 5000000, .deliver 6000000] rfl
  have comparable : ∀ first second, first = sampleFlow.addrPair →
      second = sampleFlow.addrPair → first.Comparable second := by
    intro first second firstFlow secondFlow
    rw [firstFlow, secondFlow]
    exact Or.inl (Ns3QuicAddressPair.atMost_refl _)
  obtain ⟨_, ⟨dispatcher, trace, installed, unique, _, total⟩, _⟩ :=
    loss_statistics_exact comparable (by decide) (by simp) (by simp) run
  exact ⟨_, dispatcher, trace, run, installed, (unique trace).mpr rfl, rfl, rfl, total⟩

/-- A packet of 2001 bytes overflows the buffer of the server. -/
theorem large_packet_overflows_buffer :
    ∃ state : EndToEnd,
      Run (Step sampleFlow (· = sampleFlow.addrPair)) (create 7 sampleFlow [sampleFlow.addrPair])
        [.sendToNetwork 1 2001] state ∧
      Enabled sampleFlow (· = sampleFlow.addrPair) state (.deliver 5000000) ∧
      state.perform sampleFlow (.deliver 5000000) = .error .bufferOverflow := by
  have run : Run (Step sampleFlow (· = sampleFlow.addrPair))
      (create 7 sampleFlow [sampleFlow.addrPair]) _ _ := Run.of_execute
    [.sendToNetwork 1 2001] rfl
  exact ⟨_, run, trivial, rfl⟩

end EndToEnd

end Ns3Quic.App
