import Ns3Quic.Alarm.Tokens
import Ns3Quic.Lib.AlarmClock

/-!
# Alarm objects are an alarm clock

For user code the alarm objects of an engine are an alarm clock: an alarm that
is set runs in the microsecond of its deadline, or in the current one if that
has passed.  The clock of a world is read off the fields of the alarm objects.
Every action that does not fail is a sequence of events of the clock; what the
engine does in between, in its map, its timer and its loop, is not visible.
-/

namespace Ns3Quic.Alarm

open EventQueue OrderedMultimap TransitionSystem LoopRules

section Time

variable {Alarm : Type}

namespace Ns3QuicAlarmEngine

variable {engine next : Ns3QuicAlarmEngine Alarm}

theorem updateTimer_nowUs (result : engine.updateTimer = .ok next) :
    next.nowUs = engine.nowUs := by
  unfold updateTimer at result
  dsimp only at result
  split at result
  next => rw [← Except.ok.inj result, stopTimer_nowUs]
  next =>
    obtain ⟨_, rfl⟩ := check_eq_ok.mp result
    simp [nowUs, scheduleTimer, Clock.schedule]

theorem updateTimerIf_nowUs {update : Bool} (result : engine.updateTimerIf update = .ok next) :
    next.nowUs = engine.nowUs := by
  unfold updateTimerIf at result
  split at result
  next => exact updateTimer_nowUs result
  next => rw [← Except.ok.inj result]

variable [DecidableEq Alarm]

theorem registerAlarm_nowUs {timeoutUs : Int} {ac : Alarm} {token : Option AlarmRegToken}
    (result : engine.registerAlarm timeoutUs ac = .ok (next, token)) :
    next.nowUs = engine.nowUs := by
  unfold registerAlarm at result
  dsimp only at result
  obtain ⟨middle, updated, same⟩ := bind_eq_ok.mp result
  obtain ⟨rfl, _⟩ := Prod.mk.inj (Except.ok.inj same)
  rw [updateTimerIf_nowUs updated]
  unfold insertAlarm
  split <;> rfl

theorem unregisterAlarm_nowUs {token : AlarmRegToken} {ac : Alarm}
    (result : engine.unregisterAlarm token = .ok (next, ac)) : next.nowUs = engine.nowUs := by
  unfold unregisterAlarm at result
  split at result
  next => cases result
  next =>
    obtain ⟨rfl, _⟩ := Prod.mk.inj (Except.ok.inj result)
    rfl

omit [DecidableEq Alarm] in
theorem reregisterAlarm_nowUs {token newToken : AlarmRegToken} {timeoutUs : Int}
    (result : engine.reregisterAlarm token timeoutUs = .ok (next, newToken)) :
    next.nowUs = engine.nowUs := by
  unfold reregisterAlarm at result
  split at result
  next => cases result
  next =>
    dsimp only at result
    split at result
    next => cases result
    next =>
      obtain ⟨middle, updated, rest⟩ := bind_eq_ok.mp result
      split at rest
      next =>
        obtain ⟨rfl, _⟩ := Prod.mk.inj (Except.ok.inj rest)
        exact (updateTimerIf_nowUs updated).trans rfl
      next => cases rest

end Ns3QuicAlarmEngine

namespace Machine

/-- What user code leaves alone: the time and the executions of callbacks. -/
def Quiet (machine next : Machine Alarm) : Prop :=
  next.engine.nowUs = machine.engine.nowUs ∧
    next.history.deliveries = machine.history.deliveries

variable [DecidableEq Alarm] {machine next : Machine Alarm}

theorem register_quiet {timeoutUs : Int} {ac : Alarm} {token : Option AlarmRegToken}
    (result : machine.register timeoutUs ac = .ok (next, token)) : machine.Quiet next := by
  obtain ⟨⟨engine, _⟩, performed, same⟩ := bind_eq_ok.mp result
  obtain ⟨rfl, _⟩ := Prod.mk.inj (Except.ok.inj same)
  exact ⟨Ns3QuicAlarmEngine.registerAlarm_nowUs performed, rfl⟩

theorem unregister_quiet {token : AlarmRegToken} {ac : Alarm}
    (result : machine.unregister token = .ok (next, ac)) : machine.Quiet next := by
  obtain ⟨⟨engine, _⟩, performed, same⟩ := bind_eq_ok.mp result
  obtain ⟨rfl, _⟩ := Prod.mk.inj (Except.ok.inj same)
  exact ⟨Ns3QuicAlarmEngine.unregisterAlarm_nowUs performed, rfl⟩

omit [DecidableEq Alarm] in
theorem reregister_quiet {token newToken : AlarmRegToken} {timeoutUs : Int}
    (result : machine.reregister token timeoutUs = .ok (next, newToken)) : machine.Quiet next := by
  obtain ⟨⟨engine, _⟩, performed, same⟩ := bind_eq_ok.mp result
  obtain ⟨rfl, _⟩ := Prod.mk.inj (Except.ok.inj same)
  exact ⟨Ns3QuicAlarmEngine.reregisterAlarm_nowUs performed, rfl⟩

end Machine

end Time

theorem Ns3Alarm.onAlarm_eq (state : Ns3Alarm) :
    state.onAlarm = { state with deadlineUs := 0, registered := false } := by
  unfold Ns3Alarm.onAlarm
  dsimp only
  split
  next => rfl
  next unset => rw [show state.deadlineUs = 0 from not_not.mp unset]

namespace World

section Clock

variable {Alarm : Type} {world next : World Alarm} {alarm : Alarm} {state : Ns3Alarm}

def nowUs (world : World Alarm) : Int := world.machine.engine.nowUs

/-- The microsecond in which an alarm runs if nobody touches it. -/
def dueUs (world : World Alarm) (alarm : Alarm) : Option Int :=
  (world.alarms alarm).bind fun state =>
    if state.registered then some (max state.deadlineUs world.nowUs) else none

def clock (world : World Alarm) : AlarmClock.Clock Alarm Int := ⟨world.nowUs, world.dueUs⟩

def ranUs [DecidableEq Alarm] (world : World Alarm) (alarm : Alarm) : List Int :=
  (world.machine.history.deliveries.filter fun delivery => delivery.node.value = alarm).map
    Delivery.atUs

def events (world : World Alarm) : WorldAction Alarm → List (AlarmClock.Event Alarm Int)
  | .set alarm newDeadlineUs => [.arm alarm (max newDeadlineUs world.nowUs)]
  | .cancel alarm | .destroy alarm => [.disarm alarm]
  | .update alarm newDeadlineUs granularityUs =>
      if newDeadlineUs = 0 then
        [.disarm alarm]
      else if (world.alarms alarm).any fun state => state.Within newDeadlineUs granularityUs then
        []
      else
        [.arm alarm (max newDeadlineUs world.nowUs)]
  | .shutdown => (world.machine.engine.alarmMap.nodes.map Node.value).map .disarm
  | .advance delay => [.pass ((world.machine.engine.clock.now + delay) / 1000 : Nat)]
  | .onAlarm =>
      world.machine.waiting.head?.toList.map fun node => .ring node.value world.nowUs
  | .construct _ | .timerExpires | .onAlarmReturns | .endOfTimeout => []

theorem dueUs_of_registered (hasState : world.alarms alarm = some state)
    (registered : state.registered = true) :
    world.dueUs alarm = some (max state.deadlineUs world.nowUs) := by
  simp [dueUs, hasState, registered]

theorem dueUs_eq_none (unregistered : ∀ state, world.alarms alarm = some state →
    state.registered = false) : world.dueUs alarm = none := by
  unfold dueUs
  cases hasState : world.alarms alarm with
  | none => rfl
  | some state => simp [unregistered state hasState]

/-- The key of every entry is the microsecond in which its alarm is due. -/
def Punctual (world : World Alarm) : Prop :=
  ∀ node ∈ world.entries, world.dueUs node.value = some node.key

theorem Invariant.of_mem_entries (inv : world.Invariant) {node : Node Int Alarm}
    (present : node ∈ world.entries) :
    ∃ state, world.alarms node.value = some state ∧ state.registered = true ∧
      world.Books node.value node := by
  cases inv.agrees node.value with
  | gone _ absent => exact absurd rfl (absent node present)
  | idle _ _ absent => exact absurd rfl (absent node present)
  | armed booked hasState registered _ _ _ books =>
      obtain rfl := (books node).mp ⟨present, rfl⟩
      exact ⟨_, hasState, registered, books⟩

/-- A step that concerns the entry and the object of one alarm. -/
structure Alters (world next : World Alarm) (alarm : Alarm) : Prop where
  now : next.nowUs = world.nowUs
  alarms : ∀ other, other ≠ alarm → next.alarms other = world.alarms other
  entries : ∀ node ∈ next.entries, node.value ≠ alarm → node ∈ world.entries

structure Arms (world next : World Alarm) (alarm : Alarm) (deadlineUs : Int) : Prop extends
    Alters world next alarm where
  state : ∃ newState, next.alarms alarm = some newState ∧ newState.registered = true ∧
    newState.deadlineUs = deadlineUs
  keys : ∀ node ∈ next.entries, node.value = alarm → node.key = max deadlineUs world.nowUs
  quiet : next.machine.history.deliveries = world.machine.history.deliveries

structure Disarms (world next : World Alarm) (alarm : Alarm) : Prop extends
    Alters world next alarm where
  state : ∀ newState, next.alarms alarm = some newState →
    newState.registered = false ∧ ¬newState.IsSet

theorem Alters.dueUs_of_ne (alters : Alters world next alarm) {other : Alarm}
    (different : other ≠ alarm) : next.dueUs other = world.dueUs other := by
  unfold dueUs
  rw [alters.alarms other different, alters.now]

theorem Alters.punctual (alters : Alters world next alarm) (punctual : world.Punctual)
    (own : ∀ node ∈ next.entries, node.value = alarm → next.dueUs alarm = some node.key) :
    next.Punctual := by
  intro node present
  by_cases same : node.value = alarm
  · rw [same]
    exact own node present same
  · rw [alters.dueUs_of_ne same]
    exact punctual node (alters.entries node present same)

variable [DecidableEq Alarm]

theorem Alters.clock_eq (alters : Alters world next alarm) :
    next.clock =
      { world.clock with due := Function.update world.dueUs alarm (next.dueUs alarm) } := by
  unfold clock
  rw [alters.now]
  congr 1
  funext other
  by_cases same : other = alarm
  · subst same
    simp
  · rw [Function.update_of_ne same, alters.dueUs_of_ne same]

/-- What is shown of a step: the entries stay punctual, the clock ticks, and the
callbacks run that the clock says. -/
structure Refines (world next : World Alarm) (events : List (AlarmClock.Event Alarm Int)) :
    Prop where
  punctual : next.Punctual
  run : Run AlarmClock.Clock.Ticks world.clock events next.clock
  ran : ∀ alarm, next.ranUs alarm = world.ranUs alarm ++ AlarmClock.Event.rings alarm events

theorem ranUs_quiet (quiet : next.machine.history.deliveries = world.machine.history.deliveries)
    (alarm : Alarm) : next.ranUs alarm = world.ranUs alarm ++ [] := by
  rw [ranUs, quiet, List.append_nil]
  rfl

theorem Arms.refines {deadlineUs : Int} (arms : Arms world next alarm deadlineUs)
    (punctual : world.Punctual) :
    Refines world next [.arm alarm (max deadlineUs world.nowUs)] := by
  obtain ⟨newState, hasState, registered, deadline⟩ := arms.state
  have due : next.dueUs alarm = some (max deadlineUs world.nowUs) := by
    rw [dueUs_of_registered hasState registered, deadline, arms.now]
  refine ⟨arms.punctual punctual fun node present value => ?_, .snoc .start ⟨?_, ?_⟩,
    ranUs_quiet arms.quiet⟩
  · rw [due, arms.keys node present value]
  · exact le_max_right _ _
  · rw [arms.clock_eq, due]
    rfl

omit [DecidableEq Alarm] in
theorem Disarms.dueUs_eq_none (disarms : Disarms world next alarm) : next.dueUs alarm = none :=
  World.dueUs_eq_none fun state hasState => (disarms.state state hasState).1

omit [DecidableEq Alarm] in
theorem Disarms.punctual (disarms : Disarms world next alarm) (punctual : world.Punctual)
    (inv : next.Invariant) : next.Punctual := by
  refine disarms.toAlters.punctual punctual fun node present value => ?_
  obtain ⟨state, hasState, registered, _⟩ := inv.of_mem_entries present
  rw [value] at hasState
  simp [(disarms.state state hasState).1] at registered

theorem Disarms.clock_eq (disarms : Disarms world next alarm) :
    next.clock = world.clock.disarm alarm := by
  rw [disarms.toAlters.clock_eq, disarms.dueUs_eq_none]
  rfl

theorem Disarms.refines (disarms : Disarms world next alarm) (punctual : world.Punctual)
    (inv : next.Invariant)
    (quiet : next.machine.history.deliveries = world.machine.history.deliveries) :
    Refines world next [.disarm alarm] :=
  ⟨disarms.punctual punctual inv, .snoc .start disarms.clock_eq, ranUs_quiet quiet⟩

theorem Refines.of_same (punctual : world.Punctual) (alarms : next.alarms = world.alarms)
    (entries : ∀ node ∈ next.entries, node ∈ world.entries)
    (quiet : world.machine.Quiet next.machine) : Refines world next [] := by
  have now : next.nowUs = world.nowUs := quiet.1
  have due : next.dueUs = world.dueUs := by
    funext alarm
    unfold dueUs
    rw [alarms, now]
  have clock : next.clock = world.clock := by rw [World.clock, World.clock, now, due]
  refine ⟨fun node present => ?_, clock ▸ .start, ranUs_quiet quiet.2⟩
  rw [due]
  exact punctual node (entries node present)

end Clock

section Operations

variable {Alarm : Type} [DecidableEq Alarm] {world next : World Alarm} {alarm : Alarm}
  {state : Ns3Alarm} {deadlineUs : Int}

theorem Alters.of_put {changed : Ns3Alarm} (alters : Alters (world.put alarm changed) next alarm) :
    Alters world next alarm where
  now := alters.now
  alarms := fun other different =>
    (alters.alarms other different).trans (world.put_alarms_of_ne different)
  entries := alters.entries

theorem Arms.of_put {changed : Ns3Alarm}
    (arms : Arms (world.put alarm changed) next alarm deadlineUs) :
    Arms world next alarm deadlineUs where
  toAlters := arms.toAlters.of_put
  state := arms.state
  keys := arms.keys
  quiet := arms.quiet

theorem Invariant.registerAlarm_arms (inv : world.Invariant)
    (hasState : world.alarms alarm = some state) (unregistered : state.registered = false)
    (performed : world.registerAlarm state.deadlineUs alarm = .ok next) :
    Arms world next alarm state.deadlineUs := by
  have absent := (inv.agrees alarm).absent hasState unregistered
  have unlisted : alarm ∉ world.machine.engine.allAlarms := by
    rw [inv.machine.engine.indexed.allAlarms]
    rintro ⟨node, inMap, value⟩
    exact absent node (List.mem_append_right _ inMap) value
  obtain ⟨machine, token, result, _, sameFrame, outcome⟩ :=
    inv.machine.register state.deadlineUs alarm
  obtain ⟨_, rfl, newMap⟩ := outcome.resolve_left fun listed => unlisted listed.1
  have expected : world.registerAlarm state.deadlineUs alarm =
      .ok ({ world with machine := machine }.put alarm
        (state.onRegistration world.machine.engine.alarmMap.nextId)) := by
    simp [World.registerAlarm, result, Except.mapError, get, hasState, unregistered]
  obtain rfl := Except.ok.inj (performed.symm.trans expected)
  have entries : ∀ node ∈ machine.waiting ++ machine.engine.alarmMap.nodes,
      node = ⟨max state.deadlineUs world.nowUs, world.machine.engine.alarmMap.nextId, alarm⟩ ∨
        node ∈ world.entries := by
    intro node present
    rw [newMap, waiting_congr sameFrame, List.mem_append, Multimap.mem_insert_iff] at present
    rw [World.entries, List.mem_append]
    tauto
  exact
    { now := (Machine.register_quiet result).1
      alarms := fun _ => put_alarms_of_ne _
      entries := fun node present different =>
        (entries node present).resolve_left fun isNew => different (by rw [isNew])
      state := ⟨_, put_alarms _ _ _, rfl, rfl⟩
      keys := fun node present value => by
        rw [(entries node present).resolve_right fun old => absent node old value]
      quiet := (Machine.register_quiet result).2 }

omit [DecidableEq Alarm] in
theorem Invariant.live_entry (inv : world.Invariant) (hasState : world.alarms alarm = some state)
    (calm : ¬world.Waits alarm) (registered : state.registered = true) :
    ∃ node ∈ world.machine.engine.alarmMap.nodes, state.hasEngine = true ∧
      state.token = some node.id ∧ node.value = alarm := by
  obtain ⟨node, token, books, place⟩ := inv.token hasState registered
  obtain ⟨_, hasEngine, _⟩ := (inv.agrees alarm).booked hasState registered
  exact ⟨node, (place.resolve_left fun waits => calm waits.1).2, hasEngine, token, books.mem.2⟩

theorem unregisterIfRegistered_alters (world : World Alarm)
    (machineInv : world.machine.Invariant) (hasState : world.alarms alarm = some state)
    (live : state.registered = true → ∃ node ∈ world.machine.engine.alarmMap.nodes,
      state.hasEngine = true ∧ state.token = some node.id ∧ node.value = alarm)
    (performed : world.unregisterIfRegistered alarm = .ok next) :
    Alters world next alarm ∧ next.alarms alarm = some state.onUnregistration ∧
      next.machine.history.deliveries = world.machine.history.deliveries := by
  cases registered : state.registered with
  | false =>
      have nothing : world.unregisterIfRegistered alarm = .ok world := by
        simp [unregisterIfRegistered, get, hasState, registered]
      obtain rfl := Except.ok.inj (performed.symm.trans nothing)
      refine ⟨⟨rfl, fun _ _ => rfl, fun _ present _ => present⟩, ?_, rfl⟩
      rw [hasState, Ns3Alarm.onUnregistration, ← registered]
  | true =>
      obtain ⟨node, inMap, hasEngine, token, value⟩ := live registered
      obtain ⟨machine, result, _, sameFrame, newMap⟩ := machineInv.unregister inMap
      have expected : world.unregisterIfRegistered alarm =
          .ok ({ world with machine := machine }.put alarm state.onUnregistration) := by
        simp [unregisterIfRegistered, get, hasState, registered, hasEngine, token, result, value,
          Except.mapError]
      obtain rfl := Except.ok.inj (performed.symm.trans expected)
      have quiet := Machine.unregister_quiet result
      refine ⟨⟨quiet.1, fun _ => put_alarms_of_ne _, ?_⟩, put_alarms _ _ _, quiet.2⟩
      intro other present _
      change other ∈ machine.waiting ++ machine.engine.alarmMap.nodes at present
      rw [newMap, waiting_congr sameFrame, List.mem_append, Multimap.mem_erase_iff] at present
      exact List.mem_append.mpr (present.imp_right And.left)

omit [DecidableEq Alarm] in
theorem get_eq_ok_iff : world.get alarm = .ok state ↔ world.alarms alarm = some state := by
  unfold get
  cases world.alarms alarm <;> simp

theorem Invariant.set_arms (inv : world.Invariant)
    (performed : world.set alarm deadlineUs = .ok next) : Arms world next alarm deadlineUs := by
  obtain ⟨state, found, rest⟩ := bind_eq_ok.mp performed
  have hasState := get_eq_ok_iff.mp found
  split at rest
  next => cases rest
  next unset =>
    split at rest
    next => cases rest
    next =>
      have unregistered : state.registered = false := by
        by_contra registered
        exact unset ((inv.agrees alarm).booked hasState (by simpa using registered)).1
      have placed := inv.put_of_unregistered hasState unregistered
        { state with deadlineUs := deadlineUs } unregistered
      exact (placed.registerAlarm_arms (world.put_alarms alarm _) unregistered rest).of_put

theorem Invariant.cancel_disarms (inv : world.Invariant)
    (hasState : world.alarms alarm = some state)
    (performed : world.cancel alarm = .ok next) :
    Disarms world next alarm ∧
      next.machine.history.deliveries = world.machine.history.deliveries := by
  have calm : ¬world.Waits alarm := fun waits => by
    simp [(inv.cancel hasState).stale.mpr waits] at performed
  have live := inv.live_entry hasState calm
  by_cases isSet : state.IsSet
  · have entered : world.cancel alarm =
        (world.put alarm { state with deadlineUs := 0 }).unregisterIfRegistered alarm := by
      simp [World.cancel, get, hasState, isSet]
    obtain ⟨alters, changed, quiet⟩ := unregisterIfRegistered_alters
      (world.put alarm { state with deadlineUs := 0 }) inv.machine (world.put_alarms alarm _) live
      (entered.symm.trans performed)
    refine ⟨⟨alters.of_put, fun newState hasNew => ?_⟩, quiet⟩
    rw [changed, Option.some.injEq] at hasNew
    rw [← hasNew]
    exact ⟨rfl, not_not.mpr rfl⟩
  · have nothing : world.cancel alarm = .ok world := by
      simp [World.cancel, get, hasState, isSet]
    obtain rfl := Except.ok.inj (performed.symm.trans nothing)
    refine ⟨⟨⟨rfl, fun _ _ => rfl, fun _ present _ => present⟩, fun newState hasNew => ?_⟩, rfl⟩
    rw [hasState, Option.some.injEq] at hasNew
    subst hasNew
    refine ⟨?_, isSet⟩
    by_contra registered
    exact isSet ((inv.agrees alarm).booked hasState (by simpa using registered)).1

theorem Invariant.destroy_disarms (inv : world.Invariant)
    (hasState : world.alarms alarm = some state)
    (performed : world.destroy alarm = .ok next) :
    Disarms world next alarm ∧
      next.machine.history.deliveries = world.machine.history.deliveries := by
  have calm : ¬world.Waits alarm := fun waits => by
    simp [(inv.destroy hasState).stale.mpr waits] at performed
  obtain ⟨middle, unregistered, same⟩ := bind_eq_ok.mp performed
  obtain ⟨alters, _, quiet⟩ := unregisterIfRegistered_alters world inv.machine hasState
    (inv.live_entry hasState calm) unregistered
  obtain rfl := Except.ok.inj same
  refine ⟨⟨⟨alters.now, fun other different => ?_, alters.entries⟩, by simp⟩, quiet⟩
  rw [← alters.alarms other different]
  simp [different]

theorem Invariant.reregisterAlarm_arms (inv : world.Invariant)
    (hasState : world.alarms alarm = some state) (registered : state.registered = true)
    (performed : world.reregisterAlarm alarm state.deadlineUs = .ok next) :
    Arms world next alarm state.deadlineUs := by
  have calm : ¬world.Waits alarm := fun waits => by
    simp [(inv.reregisterAlarm hasState registered state.deadlineUs).stale.mpr waits] at performed
  obtain ⟨node, inMap, hasEngine, token, value⟩ := inv.live_entry hasState calm registered
  obtain ⟨_, _, _, books⟩ := inv.of_mem_entries (List.mem_append_right _ inMap)
  rw [value] at books
  obtain ⟨⟨machine, newToken⟩, result, same⟩ : ∃ pair,
      world.machine.reregister node.id state.deadlineUs = .ok pair ∧
        next = { world with machine := pair.1 }.put alarm
          { state with token := some pair.2 } := by
    cases result : world.machine.reregister node.id state.deadlineUs with
    | error fault =>
        simp [World.reregisterAlarm, get, hasState, hasEngine, token, result,
          Except.mapError] at performed
    | ok pair =>
        refine ⟨pair, rfl, ?_⟩
        simpa [World.reregisterAlarm, get, hasState, hasEngine, token, result, Except.mapError]
          using performed.symm
  obtain ⟨_, sameFrame, _, newMap⟩ := inv.machine.of_reregister inMap result
  have ahead : world.nowUs ≤ state.deadlineUs := by
    obtain ⟨⟨engine, _⟩, moved, _⟩ := bind_eq_ok.mp result
    obtain ⟨_, _, _, _, ahead⟩ := inv.machine.engine.of_reregisterAlarm moved
    exact ahead
  subst same
  have entries : ∀ other ∈ machine.waiting ++ machine.engine.alarmMap.nodes,
      other = ⟨state.deadlineUs, world.machine.engine.alarmMap.nextId, alarm⟩ ∨
        other ∈ world.entries ∧ other ≠ node := by
    intro other present
    rw [newMap, waiting_congr sameFrame, List.mem_append, Multimap.mem_insert_iff,
      Multimap.nextId_erase, value] at present
    rw [inv.mem_erase_entries inMap, List.mem_append]
    tauto
  exact
    { now := (Machine.reregister_quiet result).1
      alarms := fun _ => put_alarms_of_ne _
      entries := fun other present different =>
        ((entries other present).resolve_left fun isNew => different (by rw [isNew])).1
      state := ⟨_, put_alarms _ _ _, registered, rfl⟩
      keys := fun other present own => by
        rw [max_eq_left ahead, (entries other present).resolve_right fun old =>
          old.2 ((books other).mp ⟨old.1, own⟩)]
      quiet := (Machine.reregister_quiet result).2 }

theorem Invariant.update_cases (inv : world.Invariant)
    (hasState : world.alarms alarm = some state) {granularityUs : Int}
    (performed : world.update alarm deadlineUs granularityUs = .ok next) :
    (deadlineUs = 0 ∧ Disarms world next alarm ∧
      next.machine.history.deliveries = world.machine.history.deliveries) ∨
    (deadlineUs ≠ 0 ∧ state.Within deadlineUs granularityUs ∧ next = world) ∨
    (deadlineUs ≠ 0 ∧ ¬state.Within deadlineUs granularityUs ∧
      Arms world next alarm deadlineUs) := by
  by_cases noDeadline : deadlineUs = 0
  · rw [World.update, if_pos noDeadline] at performed
    exact Or.inl ⟨noDeadline, inv.cancel_disarms hasState performed⟩
  by_cases close : state.Within deadlineUs granularityUs
  · have nothing : world.update alarm deadlineUs granularityUs = .ok world := by
      simp [World.update, get, hasState, noDeadline, close]
    exact Or.inr (Or.inl ⟨noDeadline, close, Except.ok.inj (performed.symm.trans nothing)⟩)
  refine Or.inr (Or.inr ⟨noDeadline, close, ?_⟩)
  cases registered : state.registered with
  | true =>
      have isSet := ((inv.agrees alarm).booked hasState registered).1
      refine ((inv.put_deadline hasState registered noDeadline).reregisterAlarm_arms
        (world.put_alarms alarm _) registered ?_).of_put
      simpa [World.update, updateImpl, get, hasState, noDeadline, close, isSet, registered]
        using performed
  | false =>
      refine ((inv.put_of_unregistered hasState registered { state with deadlineUs := deadlineUs }
        registered).registerAlarm_arms (world.put_alarms alarm _) registered ?_).of_put
      by_cases isSet : state.IsSet <;>
        simpa [World.update, updateImpl, get, hasState, noDeadline, close, isSet, registered]
          using performed

theorem Invariant.update_refines (inv : world.Invariant) (punctual : world.Punctual)
    (hasState : world.alarms alarm = some state) {granularityUs : Int}
    (performed : world.update alarm deadlineUs granularityUs = .ok next) :
    Refines world next (world.events (.update alarm deadlineUs granularityUs)) := by
  have nextInv := (inv.update hasState deadlineUs granularityUs).invariant next performed
  simp only [events, hasState, Option.any_some, decide_eq_true_eq]
  rcases inv.update_cases hasState performed with ⟨noDeadline, disarms, quiet⟩ |
    ⟨deadline, close, rfl⟩ | ⟨deadline, far, arms⟩
  · rw [if_pos noDeadline]
    exact disarms.refines punctual nextInv quiet
  · rw [if_neg deadline, if_pos close]
    exact .of_same punctual rfl (fun _ present => present) ⟨rfl, rfl⟩
  · rw [if_neg deadline, if_neg far]
    exact arms.refines punctual

theorem Invariant.shutdown_refines (inv : world.Invariant) (punctual : world.Punctual) :
    Refines world world.shutdown (world.events .shutdown) := by
  have due : ∀ alarm, world.shutdown.dueUs alarm =
      if alarm ∈ world.machine.engine.alarmMap.nodes.map Node.value then none
      else world.dueUs alarm := by
    intro alarm
    have now : world.shutdown.nowUs = world.nowUs := rfl
    simp only [dueUs, shutdown_alarms, now, List.mem_map]
    split
    next => cases world.alarms alarm <;> simp [Ns3Alarm.onShutdown]
    next => rfl
  constructor
  · intro node waits
    rw [entries_shutdown] at waits
    have present : node ∈ world.entries := List.mem_append_left _ waits
    rw [due, if_neg, punctual node present]
    intro listed
    obtain ⟨other, inMap, value⟩ := List.mem_map.mp listed
    obtain ⟨_, _, _, books⟩ := inv.of_mem_entries present
    have same := (books other).mp ⟨List.mem_append_right _ inMap, value⟩
    exact inv.not_mem_waiting inMap waits (by rw [same])
  · have clock : world.shutdown.clock =
        (world.machine.engine.alarmMap.nodes.map Node.value).foldl AlarmClock.Clock.disarm
          world.clock := by
      rw [AlarmClock.Clock.foldl_disarm]
      simp only [World.clock, AlarmClock.Clock.mk.injEq]
      exact ⟨rfl, funext due⟩
    rw [clock]
    exact AlarmClock.Clock.run_disarm _ _
  · intro alarm
    have silent : AlarmClock.Event.rings alarm (world.events .shutdown) = [] := by
      simp [AlarmClock.Event.rings, events, AlarmClock.Event.rungAt, List.filterMap_eq_nil_iff]
    rw [silent]
    exact ranUs_quiet rfl alarm

/-- While time passes up to the next event, no alarm becomes due at another
time than before. -/
theorem Invariant.advance_refines (inv : world.Invariant) (punctual : world.Punctual)
    {delay : Nat} (enabled : world.Enabled (.advance delay))
    (performed : world.perform (.advance delay) = .ok next) :
    Refines world next (world.events (.advance delay)) := by
  obtain rfl := Except.ok.inj performed
  obtain ⟨top, allowed⟩ := enabled
  have forward : world.nowUs ≤ ((world.machine.engine.clock.now + delay) / 1000 : Nat) := by
    unfold nowUs Ns3QuicAlarmEngine.nowUs
    omega
  have ahead : ∀ node ∈ world.entries,
      ((world.machine.engine.clock.now + delay) / 1000 : Nat) ≤ node.key := by
    intro node present
    have inMap : node ∈ world.machine.engine.alarmMap.nodes := by
      simpa [entries, Machine.waiting, top] using present
    exact (inv.machine.advance top allowed).engine.notPast node inMap
  have dueAhead : ∀ alarm due, world.dueUs alarm = some due →
      ((world.machine.engine.clock.now + delay) / 1000 : Nat) ≤ due := by
    intro alarm due isDue
    cases inv.agrees alarm with
    | gone noState => simp [dueUs, noState] at isDue
    | idle hasState unregistered => simp [dueUs, hasState, unregistered] at isDue
    | armed node _ _ _ _ _ books =>
        have key := punctual node books.mem.1
        rw [books.mem.2, isDue, Option.some.injEq] at key
        rw [key]
        exact ahead node books.mem.1
  have kept : World.dueUs { world with machine := { world.machine with
      engine := { world.machine.engine with
        clock := world.machine.engine.clock.advance delay } } } = world.dueUs := by
    funext alarm
    have bound := dueAhead alarm
    unfold dueUs at bound ⊢
    cases hasState : world.alarms alarm with
    | none => rfl
    | some state =>
        rw [hasState] at bound
        simp only [Option.bind_some] at bound ⊢
        split
        next registered =>
          have limit := bound _ (if_pos registered)
          change some
            (max state.deadlineUs ((world.machine.engine.clock.now + delay) / 1000 : Nat)) = _
          congr 1
          omega
        next => rfl
  refine ⟨fun node present => ?_, .snoc .start ⟨forward, dueAhead, ?_⟩, ranUs_quiet rfl⟩
  · rw [kept]
    exact punctual node present
  · rw [World.clock, kept]
    rfl

theorem Invariant.onAlarm_refines (inv : world.Invariant) (punctual : world.Punctual)
    (enabled : world.Enabled .onAlarm) (performed : world.perform .onAlarm = .ok next) :
    Refines world next (world.events .onAlarm) := by
  have nextInv := (inv.perform enabled).invariant next performed
  obtain ⟨node, rest, frame⟩ := enabled
  have waiting : world.machine.waiting = node :: rest := by simp [Machine.waiting, frame]
  have present : node ∈ world.entries := by simp [entries, waiting]
  obtain ⟨state, hasState, registered, _⟩ := inv.of_mem_entries present
  have expected : world.perform .onAlarm =
      .ok ({ world with machine := world.machine.onAlarm }.put node.value state.onAlarm) := by
    simp [World.perform, World.onAlarm, waiting, get, hasState]
  obtain rfl := Except.ok.inj (performed.symm.trans expected)
  have after : { world with machine := world.machine.onAlarm }.machine.waiting = rest := by
    simp [Machine.onAlarm, frame, Machine.waiting]
  have sameEngine : world.machine.onAlarm.engine = world.machine.engine := by
    simp [Machine.onAlarm, frame]
  have disarms : Disarms world
      ({ world with machine := world.machine.onAlarm }.put node.value state.onAlarm)
      node.value := by
    refine ⟨⟨?_, fun _ => put_alarms_of_ne _, ?_⟩, ?_⟩
    · change world.machine.onAlarm.engine.nowUs = world.machine.engine.nowUs
      rw [sameEngine]
    · intro other later _
      change other ∈ world.machine.onAlarm.waiting ++ world.machine.onAlarm.engine.alarmMap.nodes
        at later
      rw [sameEngine, after] at later
      rw [entries, waiting]
      exact List.mem_cons_of_mem _ later
    · intro newState hasNew
      rw [put_alarms, Option.some.injEq] at hasNew
      rw [← hasNew, Ns3Alarm.onAlarm_eq]
      exact ⟨rfl, not_not.mpr rfl⟩
  have dueNow : world.dueUs node.value = some world.nowUs := by
    rw [punctual node present]
    exact congrArg some (inv.machine.waitingDue node (by simp [waiting]))
  refine ⟨disarms.punctual punctual nextInv, ?_, fun alarm => ?_⟩ <;>
    simp only [events, waiting, List.head?_cons, Option.toList_some, List.map_cons, List.map_nil]
  · exact .snoc .start ⟨rfl, dueNow, disarms.clock_eq⟩
  · have recorded : world.machine.onAlarm.history.deliveries =
        world.machine.history.deliveries ++ [⟨node, world.nowUs⟩] := by
      simp [Machine.onAlarm, frame, nowUs]
    simp only [ranUs, put, recorded, List.filter_append, List.map_append,
      AlarmClock.Event.rings, List.append_cancel_left_eq]
    by_cases own : node.value = alarm <;> simp [own, AlarmClock.Event.rungAt]

end Operations

section Runs

variable {Alarm : Type} [DecidableEq Alarm] {world next last : World Alarm} {alarm : Alarm}
  {state : Ns3Alarm} {action : WorldAction Alarm} {actions : List (WorldAction Alarm)}

/-- Every step of the world is a sequence of events of its clock. -/
theorem Invariant.step_refines (inv : world.Invariant) (punctual : world.Punctual)
    (step : Step world action next) : Refines world next (world.events action) := by
  obtain ⟨enabled, performed⟩ := step
  have nextInv := (inv.perform enabled).invariant next performed
  cases action with
  | construct alarm =>
      obtain rfl := Except.ok.inj performed
      have alters : Alters world (world.construct alarm) alarm :=
        ⟨rfl, fun _ => put_alarms_of_ne _, fun _ present _ => present⟩
      have disarms : Disarms world (world.construct alarm) alarm := by
        refine ⟨alters, fun newState hasNew => ?_⟩
        rw [construct, put_alarms, Option.some.injEq] at hasNew
        rw [← hasNew]
        exact ⟨rfl, not_not.mpr rfl⟩
      refine ⟨disarms.punctual punctual nextInv, ?_, ranUs_quiet rfl⟩
      have same : world.clock.disarm alarm = world.clock := by
        have off : world.dueUs alarm = none := by simp [dueUs, enabled.2]
        simp [AlarmClock.Clock.disarm, World.clock, ← off]
      rw [disarms.clock_eq, same]
      exact .start
  | set alarm newDeadlineUs => exact (inv.set_arms performed).refines punctual
  | cancel alarm =>
      obtain ⟨state, hasState⟩ := Option.isSome_iff_exists.mp enabled.2
      obtain ⟨disarms, quiet⟩ := inv.cancel_disarms hasState performed
      exact disarms.refines punctual nextInv quiet
  | update alarm newDeadlineUs granularityUs =>
      obtain ⟨state, hasState⟩ := Option.isSome_iff_exists.mp enabled.2
      exact inv.update_refines punctual hasState performed
  | destroy alarm =>
      obtain ⟨state, hasState⟩ := Option.isSome_iff_exists.mp enabled.2
      obtain ⟨disarms, quiet⟩ := inv.destroy_disarms hasState performed
      exact disarms.refines punctual nextInv quiet
  | shutdown =>
      obtain rfl := Except.ok.inj performed
      exact inv.shutdown_refines punctual
  | advance delay => exact inv.advance_refines punctual enabled performed
  | timerExpires =>
      obtain rfl := Except.ok.inj performed
      obtain ⟨_, due, frame, cut⟩ := inv.machine.timerExpires enabled.1 enabled.2
      obtain ⟨event, found⟩ := Option.isSome_iff_exists.mp enabled.2
      refine .of_same punctual rfl (fun node present => ?_) ?_
      · have top : world.machine.frame = none := enabled.1
        rw [entries, Machine.waiting, top, List.nil_append, ← cut]
        simpa [entries, Machine.waiting, frame] using present
      · simp [Machine.Quiet, Machine.timerExpires, found, Ns3QuicAlarmEngine.takeDue,
          Ns3QuicAlarmEngine.nowUs, Clock.remove]
  | onAlarm => exact inv.onAlarm_refines punctual enabled performed
  | onAlarmReturns =>
      obtain ⟨cbs, node, frame⟩ := enabled
      have expected : world.perform .onAlarmReturns =
          .ok { world with machine := { world.machine with frame := some ⟨cbs, none⟩ } } := by
        simp [World.perform, Machine.perform, Machine.onAlarmReturns, frame, World.ofMachine]
      obtain rfl := Except.ok.inj (performed.symm.trans expected)
      refine .of_same punctual rfl (fun node present => ?_) ⟨rfl, rfl⟩
      simpa [entries, Machine.waiting, frame] using present
  | endOfTimeout =>
      obtain ⟨machine, result, _, top, sameMap⟩ := inv.machine.endOfTimeout enabled
      have expected : world.perform .endOfTimeout = .ok { world with machine := machine } := by
        simp [World.perform, Machine.perform, result, World.ofMachine]
      obtain rfl := Except.ok.inj (performed.symm.trans expected)
      have frame : world.machine.frame = some ⟨[], none⟩ := enabled
      refine .of_same punctual rfl (fun node present => ?_) ?_
      · simpa [entries, Machine.waiting, frame, top, sameMap] using present
      · obtain ⟨engine, updated, same⟩ := bind_eq_ok.mp result
        obtain rfl := Except.ok.inj same
        exact ⟨Ns3QuicAlarmEngine.updateTimer_nowUs updated, rfl⟩

omit [DecidableEq Alarm] in
theorem punctual_create (now : Nat) : (create now : World Alarm).Punctual := by
  simp [Punctual, entries, create, Machine.create, Machine.waiting, Ns3QuicAlarmEngine.create]

def record (world : World Alarm) (action : WorldAction Alarm)
    (events : List (AlarmClock.Event Alarm Int)) : List (AlarmClock.Event Alarm Int) :=
  events ++ world.events action

theorem Refines.trans {middle : World Alarm} {events more : List (AlarmClock.Event Alarm Int)}
    (first : Refines world middle events) (second : Refines middle last more) :
    Refines world last (events ++ more) where
  punctual := second.punctual
  run := first.run.append second.run
  ran := fun alarm => by
    rw [second.ran, first.ran, List.append_assoc, AlarmClock.Event.rings_append]

theorem Invariant.run_refines (inv : world.Invariant) (punctual : world.Punctual)
    (run : Run Step world actions last) :
    ∃ events, Run (Guarded (fun both => World.Enabled both.1) (recording World.perform record))
        (world, []) actions (last, events) ∧
      last.Invariant ∧ Refines world last events := by
  refine run.recording_invariant
    (fun reached events => reached.Invariant ∧ Refines world reached events)
    ⟨inv, punctual, .start, fun _ => (List.append_nil _).symm⟩ ?_
  rintro reached events action after ⟨reachedInv, refines⟩ step
  exact ⟨(reachedInv.perform step.1).invariant after step.2,
    refines.trans (reachedInv.step_refines refines.punctual step)⟩

def SetRegistered (world : World Alarm) : Prop :=
  ∀ alarm state, world.alarms alarm = some state → state.IsSet → state.registered = true

omit [DecidableEq Alarm] in
theorem ofMachine_alarms {machine : Except EngineFault (Machine Alarm)}
    (performed : world.ofMachine machine = .ok next) : next.alarms = world.alarms := by
  unfold World.ofMachine at performed
  split at performed
  next => cases performed
  next =>
    obtain rfl := Except.ok.inj performed
    rfl

theorem Alters.setRegistered (alters : Alters world next alarm)
    (before : world.SetRegistered)
    (own : ∀ newState, next.alarms alarm = some newState → newState.IsSet →
      newState.registered = true) : next.SetRegistered := by
  intro other newState hasNew isSet
  by_cases same : other = alarm
  · exact own newState (same ▸ hasNew) isSet
  · exact before other newState (alters.alarms other same ▸ hasNew) isSet

theorem Arms.setRegistered {deadlineUs : Int} (arms : Arms world next alarm deadlineUs)
    (before : world.SetRegistered) : next.SetRegistered := by
  refine arms.toAlters.setRegistered before fun newState hasNew _ => ?_
  obtain ⟨armed, hasArmed, registered, _⟩ := arms.state
  rw [hasArmed, Option.some.injEq] at hasNew
  rw [← hasNew, registered]

theorem Disarms.setRegistered (disarms : Disarms world next alarm)
    (before : world.SetRegistered) : next.SetRegistered :=
  disarms.toAlters.setRegistered before fun newState hasNew isSet =>
    absurd isSet (disarms.state newState hasNew).2

/-- Only `Shutdown` leaves alarms behind that are set and will not run. -/
theorem Invariant.step_setRegistered (inv : world.Invariant) (before : world.SetRegistered)
    (step : Step world action next) (running : action ≠ .shutdown) : next.SetRegistered := by
  obtain ⟨enabled, performed⟩ := step
  cases action with
  | construct alarm =>
      obtain rfl := Except.ok.inj performed
      have alters : Alters world (world.construct alarm) alarm :=
        ⟨rfl, fun _ => put_alarms_of_ne _, fun _ present _ => present⟩
      refine alters.setRegistered before fun newState hasNew isSet => ?_
      rw [construct, put_alarms, Option.some.injEq] at hasNew
      exact absurd rfl (hasNew ▸ isSet)
  | set alarm newDeadlineUs => exact (inv.set_arms performed).setRegistered before
  | cancel alarm =>
      obtain ⟨state, hasState⟩ := Option.isSome_iff_exists.mp enabled.2
      exact (inv.cancel_disarms hasState performed).1.setRegistered before
  | update alarm newDeadlineUs granularityUs =>
      obtain ⟨state, hasState⟩ := Option.isSome_iff_exists.mp enabled.2
      rcases inv.update_cases hasState performed with ⟨_, disarms, _⟩ | ⟨_, _, rfl⟩ | ⟨_, _, arms⟩
      · exact disarms.setRegistered before
      · exact before
      · exact arms.setRegistered before
  | destroy alarm =>
      obtain ⟨state, hasState⟩ := Option.isSome_iff_exists.mp enabled.2
      exact (inv.destroy_disarms hasState performed).1.setRegistered before
  | shutdown => exact absurd rfl running
  | onAlarm =>
      obtain ⟨node, rest, frame⟩ := enabled
      have waiting : world.machine.waiting = node :: rest := by simp [Machine.waiting, frame]
      obtain ⟨state, found, same⟩ :=
        bind_eq_ok.mp (by simpa [World.perform, World.onAlarm, waiting] using performed)
      obtain rfl := Except.ok.inj same
      intro other newState hasNew isSet
      by_cases own : other = node.value
      · subst own
        rw [put_alarms, Option.some.injEq, Ns3Alarm.onAlarm_eq] at hasNew
        exact absurd rfl (hasNew ▸ isSet)
      · rw [put_alarms_of_ne _ own] at hasNew
        exact before other newState hasNew isSet
  | advance _ | timerExpires =>
      obtain rfl := Except.ok.inj performed
      exact before
  | onAlarmReturns | endOfTimeout =>
      unfold SetRegistered
      rw [ofMachine_alarms performed]
      exact before

theorem setRegistered_of_run {now : Nat} (run : Run Step (create now) actions world)
    (running : .shutdown ∉ actions) : world.SetRegistered := by
  induction run with
  | start => exact fun _ _ hasNone => nomatch hasNone
  | @snoc earlier action middle last before step inductionHypothesis =>
      rw [List.mem_append, List.mem_singleton, not_or] at running
      exact (invariant_of_run before).step_setRegistered (inductionHypothesis running.1) step
        (Ne.symm running.2)

/-- The alarm objects of a run are an alarm clock: the actions are its events, and
the callbacks run when it says.  Unless the engine is shut down, an alarm is due
exactly if it is set. -/
theorem alarms_refine_clock {now : Nat} (run : Run Step (create now) actions world) :
    (∃ events, Run (Guarded (fun both => Enabled both.1) (recording perform record))
        (create now, []) actions (world, events) ∧
      Run AlarmClock.Clock.Ticks ⟨((now / 1000 : Nat) : Int), fun _ => none⟩ events world.clock ∧
      ∀ alarm, world.ranUs alarm = AlarmClock.Event.rings alarm events) ∧
    (.shutdown ∉ actions → ∀ alarm state, world.alarms alarm = some state →
      (world.clock.due alarm =
        if state.IsSet then some (max state.deadlineUs world.nowUs) else none)) := by
  constructor
  · obtain ⟨events, recorded, _, refines⟩ :=
      (invariant_create now).run_refines (punctual_create now) run
    exact ⟨events, recorded, refines.run, refines.ran⟩
  · intro running alarm state hasState
    have setRegistered := setRegistered_of_run run running alarm state hasState
    change world.dueUs alarm = _
    cases registered : state.registered with
    | true =>
        have isSet := (((invariant_of_run run).agrees alarm).booked hasState registered).1
        rw [if_pos isSet, dueUs_of_registered hasState registered]
    | false =>
        have unset : ¬state.IsSet := fun isSet => by simp [setRegistered isSet] at registered
        rw [if_neg unset]
        simp [dueUs, hasState, registered]

/-- Three alarms: one runs, one is moved, one is cancelled by the first. -/
theorem alarms_refine_clock_moved :
    ∃ world : World (Fin 3),
      Run Step (create 0)
        [.construct 0, .construct 1, .construct 2, .set 0 5, .set 1 7, .set 2 9, .advance 5000,
          .timerExpires, .onAlarm, .update 2 20 1, .cancel 1, .onAlarmReturns, .endOfTimeout]
        world ∧
      world.ranUs 0 = [5] ∧ world.clock.due 2 = some 20 := by
  have run : Run Step (create 0 : World (Fin 3)) _ _ := Run.of_execute
    [.construct 0, .construct 1, .construct 2, .set 0 5, .set 1 7, .set 2 9, .advance 5000,
      .timerExpires, .onAlarm, .update 2 20 1, .cancel 1, .onAlarmReturns, .endOfTimeout] rfl
  exact ⟨_, run, rfl, (alarms_refine_clock run).2 (by simp) 2 _ rfl⟩

/-- The action changes when the alarm is due. -/
def Touches (alarm : Alarm) : WorldAction Alarm → Prop
  | .set other _ | .cancel other | .update other _ _ | .destroy other => other = alarm
  | .shutdown => True
  | .construct _ | .advance _ | .timerExpires | .onAlarm | .onAlarmReturns | .endOfTimeout => False

omit [DecidableEq Alarm] in
theorem touches_of_mem_events {event : AlarmClock.Event Alarm Int}
    (present : event ∈ world.events action) (touches : event.Touches alarm) :
    Touches alarm action := by
  cases action with
  | set | cancel | destroy =>
      rw [events, List.mem_singleton] at present
      subst present
      exact touches
  | update other newDeadlineUs granularityUs =>
      simp only [events] at present
      split at present
      next =>
        rw [List.mem_singleton] at present
        subst present
        exact touches
      next =>
        split at present
        next => cases present
        next =>
          rw [List.mem_singleton] at present
          subst present
          exact touches
  | shutdown => trivial
  | advance delay =>
      rw [events, List.mem_singleton] at present
      subst present
      exact touches
  | onAlarm =>
      obtain ⟨node, _, rfl⟩ := List.mem_map.mp present
      exact touches
  | construct | timerExpires | onAlarmReturns | endOfTimeout => cases present

/-- The object of an alarm changes only where user code names it, when it is
called, and when the engine is shut down. -/
theorem Invariant.step_alarms (inv : world.Invariant) (step : Step world action next)
    (untouched : ¬Touches alarm action) (old : action ≠ .construct alarm)
    (silent : ∀ event ∈ world.events action, event.rungAt alarm = none) :
    next.alarms alarm = world.alarms alarm := by
  obtain ⟨enabled, performed⟩ := step
  cases action with
  | construct other =>
      obtain rfl := Except.ok.inj performed
      exact put_alarms_of_ne _ fun same => old (by rw [same])
  | set other newDeadlineUs => exact (inv.set_arms performed).alarms alarm (Ne.symm untouched)
  | cancel other =>
      obtain ⟨state, hasState⟩ := Option.isSome_iff_exists.mp enabled.2
      exact (inv.cancel_disarms hasState performed).1.alarms alarm (Ne.symm untouched)
  | update other newDeadlineUs granularityUs =>
      obtain ⟨state, hasState⟩ := Option.isSome_iff_exists.mp enabled.2
      rcases inv.update_cases hasState performed with ⟨_, disarms, _⟩ | ⟨_, _, rfl⟩ | ⟨_, _, arms⟩
      · exact disarms.alarms alarm (Ne.symm untouched)
      · rfl
      · exact arms.alarms alarm (Ne.symm untouched)
  | destroy other =>
      obtain ⟨state, hasState⟩ := Option.isSome_iff_exists.mp enabled.2
      exact (inv.destroy_disarms hasState performed).1.alarms alarm (Ne.symm untouched)
  | shutdown => exact absurd trivial untouched
  | onAlarm =>
      obtain ⟨node, rest, frame⟩ := enabled
      have waiting : world.machine.waiting = node :: rest := by simp [Machine.waiting, frame]
      have other : alarm ≠ node.value := by
        rintro rfl
        have quiet := silent (.ring node.value world.nowUs) (by simp [events, waiting])
        simp [AlarmClock.Event.rungAt] at quiet
      obtain ⟨state, found, same⟩ :=
        bind_eq_ok.mp (by simpa [World.perform, World.onAlarm, waiting] using performed)
      obtain rfl := Except.ok.inj same
      exact put_alarms_of_ne _ other
  | advance _ | timerExpires =>
      obtain rfl := Except.ok.inj performed
      rfl
  | onAlarmReturns | endOfTimeout => rw [ofMachine_alarms performed]

/-- As long as no call fails and the engine is not shut down, a registered alarm
that user code leaves alone is called once, in the microsecond of its deadline or
in the current one if the deadline has passed, and simulated time does not pass
that microsecond before. -/
theorem registered_alarm_runs_once {now : Nat} (run : Run Step (create now) actions world)
    (hasState : world.alarms alarm = some state) (registered : state.registered = true)
    {more : List (WorldAction Alarm)} (later : Run Step world more last)
    (untouched : ∀ action ∈ more, ¬Touches alarm action) :
    (last.clock.due alarm = some (max state.deadlineUs world.nowUs) ∧
      last.nowUs ≤ max state.deadlineUs world.nowUs ∧
      last.ranUs alarm = world.ranUs alarm) ∨
    (last.clock.due alarm = none ∧ max state.deadlineUs world.nowUs ≤ last.nowUs ∧
      last.ranUs alarm = world.ranUs alarm ++ [max state.deadlineUs world.nowUs]) := by
  have inv := invariant_of_run run
  obtain ⟨_, _, _, start⟩ := (invariant_create now).run_refines (punctual_create now) run
  obtain ⟨events, _, refines, silent⟩ : ∃ events, last.Invariant ∧ Refines world last events ∧
      ∀ event ∈ events, ¬event.Touches alarm := by
    induction later with
    | start =>
        exact ⟨[], inv, ⟨start.punctual, .start, fun _ => (List.append_nil _).symm⟩,
          fun _ present => nomatch present⟩
    | @snoc _ action middle _ _ step inductionHypothesis =>
        obtain ⟨events, middleInv, refines, silent⟩ := inductionHypothesis fun action present =>
          untouched action (List.mem_append_left _ present)
        refine ⟨events ++ middle.events action, (middleInv.perform step.1).invariant _ step.2,
          refines.trans (middleInv.step_refines refines.punctual step), ?_⟩
        intro event present touches
        rcases List.mem_append.mp present with old | new
        · exact silent event old touches
        · exact untouched action (List.mem_append_right _ (List.mem_singleton_self _))
            (touches_of_mem_events new touches)
  have outcome := AlarmClock.Clock.ringsOnce_of_run
    (dueUs_of_registered hasState registered) (le_max_right _ _) refines.run silent
  rw [refines.ran]
  rcases outcome with ⟨armed, ahead, none⟩ | ⟨rung, behind, once⟩
  · exact Or.inl ⟨armed, ahead, by rw [none, List.append_nil]⟩
  · exact Or.inr ⟨rung, behind, congrArg (world.ranUs alarm ++ ·) once⟩

/-- An alarm whose deadline has passed when it is set runs at once. -/
theorem registered_alarm_runs_once_late :
    ∃ world last : World Bool,
      Run Step (create 9000) [.construct true, .set true 5] world ∧
      Run Step world [.timerExpires, .onAlarm, .onAlarmReturns, .endOfTimeout] last ∧
      last.ranUs true = world.ranUs true ++ [9] := by
  have run : Run Step (create 9000 : World Bool) _ _ :=
    Run.of_execute [.construct true, .set true 5] rfl
  have continues {first last : World Bool}
      (result : execute Enabled perform
        [.timerExpires, .onAlarm, .onAlarmReturns, .endOfTimeout] first = some last) :
      Run Step first [.timerExpires, .onAlarm, .onAlarmReturns, .endOfTimeout] last :=
    Run.of_execute _ result
  have outcome := @registered_alarm_runs_once _ _ _ _ true _ _ _ run rfl rfl _ (continues rfl)
    (by simp [Touches])
  exact ⟨_, _, run, continues rfl, (outcome.resolve_left fun armed => nomatch armed.1).2.2⟩

end Runs

end World

end Ns3Quic.Alarm
