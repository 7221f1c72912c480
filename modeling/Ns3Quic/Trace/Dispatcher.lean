import Ns3Quic.Lib.Run
import Ns3Quic.Trace.AddressPair
import Ns3Quic.Trace.ServerTrace

/-!
# The dispatcher of the server traces

`Ns3QuicServerTraceDispatcher` keeps one trace per monitored flow in an ordered
map from address pairs to pointers.  A pointer is the index of a trace among
all traces created, so that a trace that no map entry points to remains
visible.

What the dispatcher is for is said by `Registry`: a partial function from
address pairs to traces.  The dispatcher implements it for a set of flows, in
every order of calls, exactly if the flows are comparable field by field.
-/

namespace Ns3Quic.Trace

open RedBlack TransitionSystem

structure Ns3QuicServerTraceDispatcher where
  e : UInt8
  readBytes : Int
  firstPacketTime : Nat
  receiptTime : Nat
  traceDb : Tree Ns3QuicAddressPair Nat
  /-- Every trace created, with the pair whose name its files carry. -/
  traces : List (Ns3QuicAddressPair × Ns3QuicServerTrace)

inductive DispatcherCall where
  | addMonitorAddressPair (addrPair : Ns3QuicAddressPair)
  | onOwd (now : Nat) (client server : InetSocketAddress) (seq owd len : Int)
  deriving DecidableEq

namespace DispatcherCall

def addrPair : DispatcherCall → Ns3QuicAddressPair
  | .addMonitorAddressPair addrPair => addrPair
  | .onOwd _ client server _ _ _ => .ofAddresses client server

end DispatcherCall

namespace Ns3QuicServerTraceDispatcher

/-- A dispatcher after `LogEnable`. -/
def create (e : UInt8) : Ns3QuicServerTraceDispatcher := ⟨e, 0, 0, 0, .leaf, []⟩

def find? (dispatcher : Ns3QuicServerTraceDispatcher) (addrPair : Ns3QuicAddressPair) :
    Option Nat :=
  dispatcher.traceDb.find? Ns3QuicAddressPair.less addrPair

def addMonitorAddressPair (dispatcher : Ns3QuicServerTraceDispatcher)
    (addrPair : Ns3QuicAddressPair) : Ns3QuicServerTraceDispatcher × Bool :=
  match dispatcher.find? addrPair with
  | some _ => (dispatcher, false)
  | none =>
      let pointer := dispatcher.traces.length
      ({ dispatcher with
          traces := dispatcher.traces ++ [(addrPair, .create dispatcher.e)]
          traceDb :=
            (RedBlack.insert Ns3QuicAddressPair.less addrPair pointer dispatcher.traceDb).1 },
        true)

def onOwd (dispatcher : Ns3QuicServerTraceDispatcher) (goodputInterval now : Nat)
    (client server : InetSocketAddress) (seq owd len : Int) : Ns3QuicServerTraceDispatcher :=
  let dispatcher := { dispatcher with
    readBytes := dispatcher.readBytes + len
    firstPacketTime :=
      if dispatcher.firstPacketTime = 0 then now else dispatcher.firstPacketTime
    receiptTime := now }
  match dispatcher.find? (.ofAddresses client server) with
  | none => dispatcher
  | some pointer =>
      { dispatcher with
        traces := dispatcher.traces.modify pointer fun entry =>
          (entry.1, entry.2.onOwd goodputInterval now seq owd len) }

/-- The traces are deleted from the first entry of the map to the last; the
destructor of a trace writes its last sample. -/
def shutdown (dispatcher : Ns3QuicServerTraceDispatcher) : Ns3QuicServerTraceDispatcher :=
  { dispatcher with
    traces := dispatcher.traceDb.toList.foldl (fun traces entry =>
      traces.modify entry.2 fun named => (named.1, named.2.logGoodputDtor)) dispatcher.traces
    traceDb := .leaf }

/-- The trace that the map leads to. -/
def record? (dispatcher : Ns3QuicServerTraceDispatcher) (addrPair : Ns3QuicAddressPair) :
    Option Ns3QuicServerTrace :=
  (dispatcher.find? addrPair).bind fun pointer => dispatcher.traces[pointer]?.map Prod.snd

/-- A call and its answer, if it returns one. -/
def perform (goodputInterval : Nat) (dispatcher : Ns3QuicServerTraceDispatcher) :
    DispatcherCall → Ns3QuicServerTraceDispatcher × Option Bool
  | .addMonitorAddressPair addrPair =>
      let (dispatcher, success) := dispatcher.addMonitorAddressPair addrPair
      (dispatcher, some success)
  | .onOwd now client server seq owd len =>
      (dispatcher.onOwd goodputInterval now client server seq owd len, none)

end Ns3QuicServerTraceDispatcher

/-- The abstract dispatcher: which trace each monitored flow has. -/
abbrev Registry : Type := Ns3QuicAddressPair → Option Ns3QuicServerTrace

namespace Registry

def empty : Registry := fun _ => none

/-- `e` is what new traces are created with. -/
def perform (e : UInt8) (goodputInterval : Nat) (registry : Registry) :
    DispatcherCall → Registry × Option Bool
  | .addMonitorAddressPair addrPair =>
      (Function.update registry addrPair
        (some ((registry addrPair).getD (.create e))), some (registry addrPair).isNone)
  | .onOwd now client server seq owd len =>
      let addrPair := Ns3QuicAddressPair.ofAddresses client server
      (Function.update registry addrPair
        ((registry addrPair).map fun trace => trace.onOwd goodputInterval now seq owd len),
        none)

end Registry

theorem getElem?_concat_eq_some_iff {Item : Type} {items : List Item} {last item : Item}
    {index : Nat} :
    (items ++ [last])[index]? = some item ↔
      items[index]? = some item ∨ index = items.length ∧ item = last := by
  rw [List.getElem?_append]
  split
  next inside =>
    constructor
    · exact Or.inl
    · intro shape
      rcases shape with found | ⟨outside, _⟩
      · exact found
      · omega
  next outside =>
    have missing : items[index]? = none := List.getElem?_eq_none (Nat.le_of_not_lt outside)
    have position : index - items.length = 0 ↔ index = items.length := by omega
    simp [missing, List.getElem?_singleton, position, eq_comm]

namespace Ns3QuicServerTraceDispatcher

structure Represents (dispatcher : Ns3QuicServerTraceDispatcher) (registry : Registry) :
    Prop where
  unique : (dispatcher.traces.map Prod.fst).Nodup
  recorded : ∀ addrPair trace,
    (addrPair, trace) ∈ dispatcher.traces ↔ registry addrPair = some trace

/-- The calls are answered and recorded as the registry says. -/
def Faithful (e : UInt8) (goodputInterval : Nat) (calls : List DispatcherCall) : Prop :=
  (performAll (perform goodputInterval) (create e) calls).2 =
      (performAll (Registry.perform e goodputInterval) .empty calls).2 ∧
    (performAll (perform goodputInterval) (create e) calls).1.Represents
      (performAll (Registry.perform e goodputInterval) .empty calls).1

/-! ## Comparable flows -/

/-- The map of the dispatcher leads every monitored flow to its trace. -/
structure Simulates (e : UInt8) (flows : Ns3QuicAddressPair → Prop)
    (dispatcher : Ns3QuicServerTraceDispatcher) (registry : Registry) : Prop where
  enabled : dispatcher.e = e
  ordered : Ordered Ns3QuicAddressPair.less flows dispatcher.traceDb
  pointers : ∀ addrPair pointer, (addrPair, pointer) ∈ dispatcher.traceDb.toList ↔
    ∃ trace, dispatcher.traces[pointer]? = some (addrPair, trace)
  recorded : ∀ addrPair trace,
    (addrPair, trace) ∈ dispatcher.traces ↔ registry addrPair = some trace

section Comparable

variable {e : UInt8} {flows : Ns3QuicAddressPair → Prop}
  {dispatcher : Ns3QuicServerTraceDispatcher} {registry : Registry}
  {addrPair : Ns3QuicAddressPair}

theorem simulates_create (e : UInt8) (flows : Ns3QuicAddressPair → Prop) :
    Simulates e flows (create e) .empty where
  enabled := rfl
  ordered := ordered_leaf
  pointers := by simp [create, Tree.toList]
  recorded := by simp [create, Registry.empty]

namespace Simulates

theorem find?_eq_some_iff (order : StrictTotalOn Ns3QuicAddressPair.less flows)
    (simulates : Simulates e flows dispatcher registry) (flow : flows addrPair)
    {pointer : Nat} :
    dispatcher.find? addrPair = some pointer ↔
      ∃ trace, dispatcher.traces[pointer]? = some (addrPair, trace) :=
  (RedBlack.find?_eq_some_iff order flow simulates.ordered).trans
    (simulates.pointers addrPair pointer)

theorem registered_of_find? (order : StrictTotalOn Ns3QuicAddressPair.less flows)
    (simulates : Simulates e flows dispatcher registry) (flow : flows addrPair)
    {pointer : Nat} (found : dispatcher.find? addrPair = some pointer) :
    ∃ trace, dispatcher.traces[pointer]? = some (addrPair, trace) ∧
      registry addrPair = some trace := by
  obtain ⟨trace, entry⟩ := (simulates.find?_eq_some_iff order flow).mp found
  exact ⟨trace, entry, (simulates.recorded addrPair trace).mp (List.mem_of_getElem? entry)⟩

theorem unregistered_of_find? (order : StrictTotalOn Ns3QuicAddressPair.less flows)
    (simulates : Simulates e flows dispatcher registry) (flow : flows addrPair)
    (unfound : dispatcher.find? addrPair = none) : registry addrPair = none := by
  rw [Option.eq_none_iff_forall_ne_some]
  intro trace registered
  obtain ⟨pointer, entry⟩ :=
    List.mem_iff_getElem?.mp ((simulates.recorded addrPair trace).mpr registered)
  have found := (simulates.find?_eq_some_iff order flow).mpr ⟨trace, entry⟩
  rw [unfound] at found
  cases found

theorem pointer_unique (order : StrictTotalOn Ns3QuicAddressPair.less flows)
    (simulates : Simulates e flows dispatcher registry) {first second : Nat}
    {trace other : Ns3QuicServerTrace}
    (firstEntry : dispatcher.traces[first]? = some (addrPair, trace))
    (secondEntry : dispatcher.traces[second]? = some (addrPair, other)) :
    first = second := by
  have flow : flows addrPair := simulates.ordered.mem (addrPair, first)
    ((simulates.pointers addrPair first).mpr ⟨trace, firstEntry⟩)
  have firstFound := (simulates.find?_eq_some_iff order flow).mpr ⟨trace, firstEntry⟩
  have secondFound := (simulates.find?_eq_some_iff order flow).mpr ⟨other, secondEntry⟩
  exact Option.some.inj (firstFound.symm.trans secondFound)

theorem addFresh (order : StrictTotalOn Ns3QuicAddressPair.less flows)
    (simulates : Simulates e flows dispatcher registry) (flow : flows addrPair)
    (unfound : dispatcher.find? addrPair = none) :
    Simulates e flows (dispatcher.addMonitorAddressPair addrPair).1
      (Function.update registry addrPair (some (.create e))) := by
  have unregistered := simulates.unregistered_of_find? order flow unfound
  have fresh := (RedBlack.find?_eq_none_iff order flow simulates.ordered).mp unfound
  obtain ⟨_, ordered, entries⟩ :=
    insert_of_fresh order flow dispatcher.traces.length simulates.ordered fresh
  unfold Ns3QuicServerTraceDispatcher.addMonitorAddressPair
  rw [unfound]
  refine ⟨simulates.enabled, ordered, ?_, ?_⟩
  · intro other pointer
    simp only [entries, simulates.pointers, getElem?_concat_eq_some_iff, Prod.mk.injEq]
    constructor
    · intro shape
      rcases shape with ⟨rfl, rfl⟩ | ⟨trace, entry⟩
      · exact ⟨_, Or.inr ⟨rfl, rfl, rfl⟩⟩
      · exact ⟨trace, Or.inl entry⟩
    · intro shape
      rcases shape with ⟨trace, entry | ⟨last, same, _⟩⟩
      · exact Or.inr ⟨trace, entry⟩
      · exact Or.inl ⟨same, last⟩
  · intro other trace
    rw [simulates.enabled, List.mem_append, List.mem_singleton, simulates.recorded,
      Prod.mk.injEq, Function.update_apply]
    split
    next same =>
      rw [same, unregistered, Option.some.injEq]
      constructor
      · intro shape
        rcases shape with impossible | ⟨_, created⟩
        · cases impossible
        · exact created.symm
      · intro created
        exact Or.inr ⟨rfl, created.symm⟩
    next different =>
      constructor
      · intro shape
        rcases shape with registered | ⟨same, _⟩
        · exact registered
        · exact absurd same different
      · exact Or.inl

theorem recordFound (order : StrictTotalOn Ns3QuicAddressPair.less flows)
    (simulates : Simulates e flows dispatcher registry) {pointer : Nat}
    {trace : Ns3QuicServerTrace}
    (entry : dispatcher.traces[pointer]? = some (addrPair, trace))
    (record : Ns3QuicServerTrace → Ns3QuicServerTrace) :
    Simulates e flows
      { dispatcher with
        traces := dispatcher.traces.modify pointer fun entry => (entry.1, record entry.2) }
      (Function.update registry addrPair (some (record trace))) where
  enabled := simulates.enabled
  ordered := simulates.ordered
  pointers := by
    intro other index
    rw [simulates.pointers]
    simp only [List.getElem?_modify]
    cases dispatcher.traces[index]? with
    | none => simp
    | some found =>
        obtain ⟨owner, old⟩ := found
        by_cases here : pointer = index
        · simp [here]
        · simp [here]
  recorded := by
    intro other recorded
    rw [List.mem_iff_getElem?, Function.update_apply]
    simp only [List.getElem?_modify]
    split
    next same =>
      rw [same, Option.some.injEq]
      constructor
      · intro shape
        obtain ⟨index, found⟩ := shape
        obtain ⟨⟨owner, old⟩, oldEntry, changed⟩ := Option.map_eq_some_iff.mp found
        have owned : owner = addrPair := by
          split at changed <;> exact (Prod.mk.inj changed).1
        rw [owned] at oldEntry
        have here := simulates.pointer_unique order entry oldEntry
        rw [← here, entry, Option.some.injEq, Prod.mk.injEq] at oldEntry
        rw [if_pos here, ← oldEntry.2] at changed
        exact (Prod.mk.inj changed).2
      · intro shape
        refine ⟨pointer, ?_⟩
        simp [entry, shape]
    next different =>
      rw [← simulates.recorded, List.mem_iff_getElem?]
      apply exists_congr
      intro index
      by_cases here : pointer = index
      · rw [← here, entry]
        simp [Ne.symm different]
      · simp [here]

theorem perform (order : StrictTotalOn Ns3QuicAddressPair.less flows)
    (simulates : Simulates e flows dispatcher registry) (goodputInterval : Nat)
    (call : DispatcherCall) (flow : flows call.addrPair) :
    (dispatcher.perform goodputInterval call).2 =
        (registry.perform e goodputInterval call).2 ∧
      Simulates e flows (dispatcher.perform goodputInterval call).1
        (registry.perform e goodputInterval call).1 := by
  cases call with
  | addMonitorAddressPair addrPair =>
      change flows addrPair at flow
      simp only [Ns3QuicServerTraceDispatcher.perform, Registry.perform]
      cases found : dispatcher.find? addrPair with
      | none =>
          have unregistered := simulates.unregistered_of_find? order flow found
          rw [unregistered]
          refine ⟨?_, simulates.addFresh order flow found⟩
          simp [Ns3QuicServerTraceDispatcher.addMonitorAddressPair, found]
      | some pointer =>
          obtain ⟨trace, _, registered⟩ := simulates.registered_of_find? order flow found
          have unchanged : Function.update registry addrPair
              (some ((registry addrPair).getD (.create e))) = registry := by
            rw [registered, Option.getD_some, ← registered, Function.update_eq_self]
          rw [unchanged, registered]
          unfold Ns3QuicServerTraceDispatcher.addMonitorAddressPair
          rw [found]
          exact ⟨rfl, simulates⟩
  | onOwd now client server seq owd len =>
      change flows (.ofAddresses client server) at flow
      refine ⟨rfl, ?_⟩
      simp only [Ns3QuicServerTraceDispatcher.perform, Registry.perform]
      unfold Ns3QuicServerTraceDispatcher.onOwd
      dsimp only
      -- the counters of the dispatcher play no part in the lookup
      have counted : Simulates e flows
          { dispatcher with
            readBytes := dispatcher.readBytes + len
            firstPacketTime :=
              if dispatcher.firstPacketTime = 0 then now else dispatcher.firstPacketTime
            receiptTime := now } registry := { simulates with }
      split
      next unfound =>
        have unregistered := counted.unregistered_of_find? order flow unfound
        rw [unregistered, Option.map_none, ← unregistered, Function.update_eq_self]
        exact counted
      next pointer found =>
        obtain ⟨trace, entry, registered⟩ := counted.registered_of_find? order flow found
        rw [registered, Option.map_some]
        exact counted.recordFound order entry
          fun trace => trace.onOwd goodputInterval now seq owd len

theorem performAll (order : StrictTotalOn Ns3QuicAddressPair.less flows)
    (simulates : Simulates e flows dispatcher registry) (goodputInterval : Nat)
    (calls : List DispatcherCall) (allFlows : ∀ call ∈ calls, flows call.addrPair) :
    (performAll (Ns3QuicServerTraceDispatcher.perform goodputInterval) dispatcher calls).2 =
        (performAll (Registry.perform e goodputInterval) registry calls).2 ∧
      Simulates e flows
        (performAll (Ns3QuicServerTraceDispatcher.perform goodputInterval) dispatcher calls).1
        (performAll (Registry.perform e goodputInterval) registry calls).1 := by
  induction calls generalizing dispatcher registry with
  | nil => exact ⟨rfl, simulates⟩
  | cons call rest inductionHypothesis =>
      obtain ⟨answer, next⟩ :=
        simulates.perform order goodputInterval call (allFlows call List.mem_cons_self)
      obtain ⟨answers, last⟩ := inductionHypothesis next
        fun other membership => allFlows other (List.mem_cons_of_mem _ membership)
      exact ⟨congrArg₂ List.cons answer answers, last⟩

theorem represents (order : StrictTotalOn Ns3QuicAddressPair.less flows)
    (simulates : Simulates e flows dispatcher registry) :
    dispatcher.Represents registry where
  unique := by
    rw [List.Nodup, List.pairwise_map, List.pairwise_iff_getElem]
    intro first second firstInside secondInside distinct same
    have firstEntry : dispatcher.traces[first]? =
        some (dispatcher.traces[first].1, dispatcher.traces[first].2) :=
      List.getElem?_eq_getElem firstInside
    have secondEntry : dispatcher.traces[second]? =
        some (dispatcher.traces[first].1, dispatcher.traces[second].2) := by
      rw [same]
      exact List.getElem?_eq_getElem secondInside
    have equal := simulates.pointer_unique order firstEntry secondEntry
    omega
  recorded := simulates.recorded

end Simulates

end Comparable

/-! ## Incomparable flows -/

section Incomparable

variable {first second : Ns3QuicAddressPair}

/-- If each of two pairs is less than the other, the second to be added goes
where the lookup does not find it, and is added again. -/
theorem added_twice (e : UInt8) (goodputInterval : Nat)
    (ascending : first.less second = true) (descending : second.less first = true) :
    (performAll (perform goodputInterval) (create e)
      [.addMonitorAddressPair first, .addMonitorAddressPair second,
        .addMonitorAddressPair second]).2 = [some true, some true, some true] := by
  simp [performAll, perform, addMonitorAddressPair, find?, create, RedBlack.insert, descend,
    predecessor, rebalance, Tree.find?, Tree.lowerBound, Frame.attach, Tree.blacken, ascending,
    descending]

theorem not_faithful (e : UInt8) (goodputInterval : Nat)
    (incomparable : ¬ first.Comparable second) :
    ¬ Faithful e goodputInterval
      [.addMonitorAddressPair first, .addMonitorAddressPair second,
        .addMonitorAddressPair second] := by
  obtain ⟨ascending, descending⟩ := Ns3QuicAddressPair.not_comparable_iff.mp incomparable
  intro faithful
  have answers := faithful.1
  rw [added_twice e goodputInterval ascending descending] at answers
  simp [performAll, Registry.perform, Registry.empty] at answers

end Incomparable

/-- The dispatcher serves a set of flows, in every order of calls, exactly if
any two of the flows are comparable field by field. -/
theorem faithful_iff_comparable (e : UInt8) (goodputInterval : Nat)
    (flows : Ns3QuicAddressPair → Prop) :
    (∀ calls : List DispatcherCall, (∀ call ∈ calls, flows call.addrPair) →
      Faithful e goodputInterval calls) ↔
    ∀ first second, flows first → flows second → first.Comparable second := by
  constructor
  · intro faithful first second firstFlow secondFlow
    by_contra incomparable
    apply not_faithful e goodputInterval incomparable
    apply faithful
    simp [DispatcherCall.addrPair, firstFlow, secondFlow]
  · intro comparable calls allFlows
    have order := (Ns3QuicAddressPair.strictTotalOn_less_iff flows).mpr comparable
    obtain ⟨answers, simulates⟩ :=
      (simulates_create e flows).performAll order goodputInterval calls allFlows
    exact ⟨answers, simulates.represents order⟩

/-- Two flows between 10.0.0.1 and 10.0.0.2, in opposite directions: the second
is added twice, and a packet of it is recorded nowhere. -/
theorem opposite_flow_not_monitored :
    (performAll (perform 1000000000) (create 7)
      [.addMonitorAddressPair ⟨0x0A000001, 0x0A000002, 1000, 2000⟩,
        .addMonitorAddressPair ⟨0x0A000002, 0x0A000001, 1000, 2000⟩,
        .addMonitorAddressPair ⟨0x0A000002, 0x0A000001, 1000, 2000⟩]).2 =
      [some true, some true, some true] ∧
    (performAll (perform 1000000000) (create 7)
      [.addMonitorAddressPair ⟨0x0A000001, 0x0A000002, 1000, 2000⟩,
        .addMonitorAddressPair ⟨0x0A000002, 0x0A000001, 1000, 2000⟩,
        .onOwd 5000000 ⟨0x0A000002, 1000⟩ ⟨0x0A000001, 2000⟩ 1 3 1000]).1.traces =
      [(⟨0x0A000001, 0x0A000002, 1000, 2000⟩, .create 7),
        (⟨0x0A000002, 0x0A000001, 1000, 2000⟩, .create 7)] := by
  decide

end Ns3QuicServerTraceDispatcher

end Ns3Quic.Trace
