import Ns3Quic.Alarm.Machine

/-!
# Every armed alarm is delivered once and on time

The deliveries so far, the alarms waiting in `OnTimeout` and the nodes of the
map form one sequence, the agenda.  It is sorted by key and then by age, and
every registration that was not withdrawn occurs in it exactly once.  Entering
`OnTimeout` and calling `OnAlarm` only move the borders between the three
parts, so a delivery can neither be lost, nor repeated, nor overtaken.
-/

namespace Ns3Quic.Alarm

open EventQueue OrderedMultimap TransitionSystem LoopRules

universe u

namespace Machine

variable {Alarm : Type u}

/-- Delivered, waiting and registered nodes, in this order. -/
def agenda (machine : Machine Alarm) : List (Node Int Alarm) :=
  machine.history.deliveries.map Delivery.node ++ machine.waiting ++
    machine.engine.alarmMap.nodes

def Stands (registration : Registration Alarm) (node : Node Int Alarm) : Prop :=
  registration.token = node.id ∧ registration.alarm = node.value ∧
    registration.dueUs = node.key

structure Invariant (machine : Machine Alarm) : Prop where
  engine : machine.engine.Invariant
  armed : machine.frame = none → machine.engine.Armed
  waitingDue : ∀ node ∈ machine.waiting, node.key = machine.engine.nowUs
  onTime : ∀ delivery ∈ machine.history.deliveries,
    delivery.atUs = delivery.node.key ∧ delivery.atUs ≤ machine.engine.nowUs
  inOrder : (machine.history.registrations.map Registration.token).Pairwise (· < ·)
  fresh : ∀ registration ∈ machine.history.registrations,
    registration.token < machine.engine.alarmMap.nextId
  matched : ∀ node ∈ machine.agenda,
    ∃ registration ∈ machine.history.registrations, Stands registration node
  accounted : List.Perm (machine.history.registrations.map Registration.token)
    (machine.history.withdrawn ++ machine.agenda.map Node.id)
  ordered : machine.agenda.Pairwise Node.Before

theorem invariant_create (now : Nat) : (create now : Machine Alarm).Invariant where
  engine := Ns3QuicAlarmEngine.invariant_create now
  armed := by simp [create, Ns3QuicAlarmEngine.Armed, Ns3QuicAlarmEngine.create]
  waitingDue := by simp [create, waiting]
  onTime := by simp [create]
  inOrder := by simp [create]
  fresh := by simp [create]
  matched := by simp [create, agenda, waiting, Ns3QuicAlarmEngine.create]
  accounted := by simp [create, agenda, waiting, Ns3QuicAlarmEngine.create]
  ordered := by simp [create, agenda, waiting, Ns3QuicAlarmEngine.create]

variable {machine next : Machine Alarm}

theorem Invariant.id_lt_nextId (inv : machine.Invariant) {node : Node Int Alarm}
    (membership : node ∈ machine.agenda) :
    node.id < machine.engine.alarmMap.nextId := by
  obtain ⟨registration, present, token, _⟩ := inv.matched node membership
  rw [← token]
  exact inv.fresh registration present

theorem Invariant.key_le_nowUs (inv : machine.Invariant) {node : Node Int Alarm}
    (membership : node ∈ machine.history.deliveries.map Delivery.node ++ machine.waiting) :
    node.key ≤ machine.engine.nowUs := by
  rcases List.mem_append.mp membership with delivered | waits
  · obtain ⟨delivery, present, rfl⟩ := List.mem_map.mp delivered
    have timely := inv.onTime delivery present
    omega
  · exact (inv.waitingDue node waits).le

/-- The state after an engine operation that touches the map only.  All parts
of the invariant that speak of the agenda follow from what happened to the map
and to the history. -/
theorem Invariant.withMap (inv : machine.Invariant)
    (sameFrame : next.frame = machine.frame)
    (sameDeliveries : next.history.deliveries = machine.history.deliveries)
    (engine : next.engine.Invariant)
    (armed : machine.frame = none → next.engine.Armed)
    (sameTime : next.engine.clock.now = machine.engine.clock.now)
    (inOrder : (next.history.registrations.map Registration.token).Pairwise (· < ·))
    (fresh : ∀ registration ∈ next.history.registrations,
      registration.token < next.engine.alarmMap.nextId)
    (kept : ∀ registration ∈ machine.history.registrations,
      registration ∈ next.history.registrations)
    (matched : ∀ node ∈ next.engine.alarmMap.nodes,
      ∃ registration ∈ next.history.registrations, Stands registration node)
    (accounted : List.Perm (next.history.registrations.map Registration.token)
      (next.history.withdrawn ++
        (machine.history.deliveries.map Delivery.node ++ machine.waiting ++
          next.engine.alarmMap.nodes).map Node.id))
    (nodes : ∀ node ∈ next.engine.alarmMap.nodes,
      node ∈ machine.engine.alarmMap.nodes ∨
        node.id = machine.engine.alarmMap.nextId) : next.Invariant := by
  have sameWaiting : next.waiting = machine.waiting := by
    simp [waiting, sameFrame]
  have sameNow : next.engine.nowUs = machine.engine.nowUs := by
    simp [Ns3QuicAlarmEngine.nowUs, sameTime]
  have agendaEq : next.agenda =
      machine.history.deliveries.map Delivery.node ++ machine.waiting ++
        next.engine.alarmMap.nodes := by
    simp [agenda, sameDeliveries, sameWaiting]
  constructor
  case engine => exact engine
  case armed => exact fun top => armed (sameFrame ▸ top)
  case waitingDue =>
    rw [sameWaiting, sameNow]
    exact inv.waitingDue
  case onTime =>
    rw [sameDeliveries, sameNow]
    exact inv.onTime
  case inOrder => exact inOrder
  case fresh => exact fresh
  case matched =>
    intro node membership
    rw [agendaEq] at membership
    rcases List.mem_append.mp membership with earlier | inMap
    · obtain ⟨registration, present, stands⟩ :=
        inv.matched node (List.mem_append_left _ earlier)
      exact ⟨registration, kept registration present, stands⟩
    · exact matched node inMap
  case accounted =>
    rw [agendaEq]
    exact accounted
  case ordered =>
    rw [agendaEq, List.pairwise_append]
    have before := List.pairwise_append.mp inv.ordered
    refine ⟨before.1, next.engine.alarmMap.ordered, ?_⟩
    intro earlier earlierMember node inMap
    rcases nodes node inMap with old | new
    · exact before.2.2 earlier earlierMember node old
    · -- a fresh node comes behind everything that is due by now
      have due := inv.key_le_nowUs earlierMember
      have ahead := engine.notPast node inMap
      have older := inv.id_lt_nextId (List.mem_append_left _ earlierMember)
      rcases lt_or_eq_of_le (due.trans (sameNow ▸ ahead)) with smaller | equal
      · exact Or.inl smaller
      · exact Or.inr ⟨equal, new ▸ older⟩

/-- A map that loses the nodes `gone` and gains one fresh node, with a history
that says so. -/
theorem Invariant.withRegistration (inv : machine.Invariant)
    (sameFrame : next.frame = machine.frame)
    (sameDeliveries : next.history.deliveries = machine.history.deliveries)
    (engine : next.engine.Invariant)
    (armed : machine.frame = none → next.engine.Armed)
    (sameTime : next.engine.clock.now = machine.engine.clock.now)
    (base : Multimap Int Alarm) (gone : List AlarmRegToken)
    (baseNext : base.nextId = machine.engine.alarmMap.nextId)
    (baseNodes : ∀ node ∈ base.nodes, node ∈ machine.engine.alarmMap.nodes)
    (lost : List.Perm (machine.engine.alarmMap.nodes.map Node.id)
      (gone ++ base.nodes.map Node.id))
    (registration : Registration Alarm)
    (token : registration.token = machine.engine.alarmMap.nextId)
    (newMap : next.engine.alarmMap = base.insert registration.dueUs registration.alarm)
    (registrations : next.history.registrations =
      machine.history.registrations ++ [registration])
    (withdrawn : next.history.withdrawn = machine.history.withdrawn ++ gone) :
    next.Invariant := by
  apply inv.withMap sameFrame sameDeliveries engine armed sameTime
  case inOrder =>
    rw [registrations, List.map_append, List.pairwise_append]
    refine ⟨inv.inOrder, by simp, ?_⟩
    intro earlier earlierMember later laterMember
    obtain ⟨other, present, rfl⟩ := List.mem_map.mp earlierMember
    rw [show later = registration.token by simpa using laterMember, token]
    exact inv.fresh other present
  case fresh =>
    rw [registrations, newMap, Multimap.nextId_insert, baseNext]
    intro other present
    rcases List.mem_append.mp present with old | new
    · exact Nat.lt_succ_of_lt (inv.fresh other old)
    · rw [List.mem_singleton.mp new, token]
      exact Nat.lt_succ_self _
  case kept =>
    rw [registrations]
    exact fun other present => List.mem_append_left _ present
  case matched =>
    rw [registrations, newMap]
    intro node membership
    rcases (Multimap.mem_insert_iff _ _ _ _).mp membership with isNew | old
    · exact ⟨registration, by simp, by rw [isNew]; exact ⟨token.trans baseNext.symm, rfl, rfl⟩⟩
    · obtain ⟨other, present, stands⟩ :=
        inv.matched node (List.mem_append_right _ (baseNodes node old))
      exact ⟨other, List.mem_append_left _ present, stands⟩
  case accounted =>
    rw [registrations, withdrawn, newMap]
    have inserted := (base.insert_perm registration.dueUs registration.alarm).map Node.id
    rw [List.perm_iff_count]
    intro id
    have before := inv.accounted.count_eq id
    have lostCount := lost.count_eq id
    have insertedCount := inserted.count_eq id
    simp only [agenda, List.map_append, List.count_append, List.map_cons, List.map_nil,
      List.count_cons, List.count_nil, token, baseNext] at before lostCount insertedCount ⊢
    omega
  case nodes =>
    rw [newMap]
    intro node membership
    rcases (Multimap.mem_insert_iff _ _ _ _).mp membership with isNew | old
    · exact Or.inr (by rw [isNew]; exact baseNext)
    · exact Or.inl (baseNodes node old)

section Operations

variable [DecidableEq Alarm]

theorem Invariant.register (inv : machine.Invariant) (timeoutUs : Int) (ac : Alarm) :
    ∃ next token, machine.register timeoutUs ac = .ok (next, token) ∧
      next.Invariant ∧ next.frame = machine.frame ∧
      (ac ∈ machine.engine.allAlarms ∧ token = none ∧
          next.engine.alarmMap = machine.engine.alarmMap ∨
        ac ∉ machine.engine.allAlarms ∧ token = some machine.engine.alarmMap.nextId ∧
          next.engine.alarmMap = machine.engine.alarmMap.insert
            (max timeoutUs machine.engine.nowUs) ac) := by
  obtain ⟨engine, token, result, engineInv, armed, sameTime, outcome⟩ :=
    inv.engine.registerAlarm timeoutUs ac
  refine ⟨{ machine with
      engine := engine
      history := { machine.history with
        registrations := machine.history.registrations ++ token.toList.map fun token =>
          ⟨token, ac, timeoutUs, machine.engine.nowUs⟩ } },
    token, by simp [Machine.register, result], ?_, rfl, outcome⟩
  rcases outcome with ⟨_, rfl, sameMap⟩ | ⟨_, rfl, newMap⟩
  · apply inv.withMap (by rfl) (by rfl) engineInv (fun _ => armed) sameTime
    case inOrder => simpa using inv.inOrder
    case fresh => simpa [sameMap] using inv.fresh
    case kept => simp
    case matched =>
      intro node membership
      rw [sameMap] at membership
      simpa using inv.matched node (List.mem_append_right _ membership)
    case accounted => simpa [agenda, sameMap] using inv.accounted
    case nodes => exact fun node membership => Or.inl (sameMap ▸ membership)
  · exact inv.withRegistration (by rfl) (by rfl) engineInv (fun _ => armed) sameTime
      machine.engine.alarmMap [] rfl (fun _ membership => membership) (by simp)
      ⟨machine.engine.alarmMap.nextId, ac, timeoutUs, machine.engine.nowUs⟩ rfl newMap
      (by simp) (by simp)

theorem Invariant.unregister (inv : machine.Invariant) {node : Node Int Alarm}
    (live : node ∈ machine.engine.alarmMap.nodes) :
    ∃ next, machine.unregister node.id = .ok (next, node.value) ∧
      next.Invariant ∧ next.frame = machine.frame ∧
      next.engine.alarmMap = machine.engine.alarmMap.erase node.id := by
  obtain ⟨engine, result, engineInv, armed, sameClock, newMap⟩ :=
    inv.engine.unregisterAlarm live
  refine ⟨{ machine with
      engine := engine
      history := { machine.history with
        withdrawn := machine.history.withdrawn ++ [node.id] } },
    by simp [Machine.unregister, result], ?_, rfl, newMap⟩
  have kept : ∀ other ∈ engine.alarmMap.nodes, other ∈ machine.engine.alarmMap.nodes := by
    intro other membership
    rw [newMap] at membership
    exact ((Multimap.mem_erase_iff _ _ _).mp membership).1
  apply inv.withMap (by rfl) (by rfl) engineInv (fun top => armed (inv.armed top))
    (by rw [sameClock])
  case inOrder => exact inv.inOrder
  case fresh => simpa [newMap] using inv.fresh
  case kept => exact fun _ present => present
  case matched =>
    exact fun other membership =>
      inv.matched other (List.mem_append_right _ (kept other membership))
  case accounted =>
    have lost := (machine.engine.alarmMap.perm_cons_erase live).map Node.id
    rw [List.perm_iff_count]
    intro id
    have before := inv.accounted.count_eq id
    have lostCount := lost.count_eq id
    simp only [agenda, newMap, List.map_append, List.count_append, List.map_cons,
      List.count_cons, List.count_nil] at before lostCount ⊢
    omega
  case nodes => exact fun other membership => Or.inl (kept other membership)

omit [DecidableEq Alarm] in
theorem reregister_eq_error_iff {token : AlarmRegToken} {timeoutUs : Int} {fault : EngineFault} :
    machine.reregister token timeoutUs = .error fault ↔
      machine.engine.reregisterAlarm token timeoutUs = .error fault := by
  unfold Machine.reregister
  rw [bind_eq_error]
  constructor
  · rintro (failed | ⟨⟨_, _⟩, _, impossible⟩)
    · exact failed
    · cases impossible
  · exact Or.inl

theorem Invariant.reregister (inv : machine.Invariant) {node other : Node Int Alarm}
    (live : node ∈ machine.engine.alarmMap.nodes)
    (another : other ∈ machine.engine.alarmMap.nodes) (different : other.id ≠ node.id)
    {timeoutUs : Int} (timeoutAhead : machine.engine.nowUs ≤ timeoutUs) :
    ∃ next, machine.reregister node.id timeoutUs =
        .ok (next, machine.engine.alarmMap.nextId) ∧
      next.Invariant ∧ next.frame = machine.frame ∧
      next.engine.alarmMap =
        (machine.engine.alarmMap.erase node.id).insert timeoutUs node.value := by
  obtain ⟨engine, result, engineInv, armed, sameTime, newMap⟩ :=
    inv.engine.reregisterAlarm live another different timeoutAhead
  have found := (machine.engine.alarmMap.find?_eq_some_iff node.id node).mpr ⟨live, rfl⟩
  refine ⟨{ machine with
      engine := engine
      history := { machine.history with
        registrations := machine.history.registrations ++
          [⟨machine.engine.alarmMap.nextId, node.value, timeoutUs, machine.engine.nowUs⟩]
        withdrawn := machine.history.withdrawn ++ [node.id] } },
    by simp [Machine.reregister, result, found], ?_, rfl, newMap⟩
  have due : max timeoutUs machine.engine.nowUs = timeoutUs := by omega
  exact inv.withRegistration (by rfl) (by rfl) engineInv (fun _ => armed) sameTime
    (machine.engine.alarmMap.erase node.id) [node.id] rfl
    (fun _ membership => ((Multimap.mem_erase_iff _ _ _).mp membership).1)
    ((machine.engine.alarmMap.perm_cons_erase live).map Node.id)
    ⟨machine.engine.alarmMap.nextId, node.value, timeoutUs, machine.engine.nowUs⟩ rfl
    (by simpa [Registration.dueUs, due] using newMap) rfl rfl

theorem Invariant.of_reregister (inv : machine.Invariant) {node : Node Int Alarm}
    (live : node ∈ machine.engine.alarmMap.nodes) {timeoutUs : Int} {token : AlarmRegToken}
    (result : machine.reregister node.id timeoutUs = .ok (next, token)) :
    next.Invariant ∧ next.frame = machine.frame ∧
      token = machine.engine.alarmMap.nextId ∧
      next.engine.alarmMap =
        (machine.engine.alarmMap.erase node.id).insert timeoutUs node.value := by
  cases inner : machine.engine.reregisterAlarm node.id timeoutUs with
  | error fault =>
      rw [reregister_eq_error_iff.mpr inner] at result
      cases result
  | ok pair =>
      obtain ⟨other, otherLive, identity, ⟨another, present, different⟩, ahead⟩ :=
        inv.engine.of_reregisterAlarm inner
      have same := machine.engine.alarmMap.eq_of_id_eq otherLive live identity
      obtain ⟨after, performed, afterInv, sameFrame, newMap⟩ :=
        inv.reregister live present (same ▸ different) ahead
      rw [result, Except.ok.injEq, Prod.mk.injEq] at performed
      rw [performed.1]
      exact ⟨afterInv, sameFrame, performed.2, newMap⟩

theorem Invariant.shutdown (inv : machine.Invariant) : machine.shutdown.1.Invariant := by
  obtain ⟨engineInv, armed⟩ := inv.engine.shutdown
  have noNodes : machine.shutdown.1.engine.alarmMap.nodes = [] := by
    simp [Machine.shutdown, Ns3QuicAlarmEngine.shutdown]
  apply inv.withMap (by rfl) (by rfl) engineInv (fun _ => armed) (by rfl)
  case inOrder => exact inv.inOrder
  case fresh => exact inv.fresh
  case kept => exact fun _ present => present
  case matched => simp [noNodes]
  case accounted =>
    rw [noNodes]
    refine inv.accounted.trans ?_
    rw [List.perm_iff_count]
    intro id
    simp only [agenda, Machine.shutdown, List.map_append, List.count_append, List.map_nil,
      List.count_nil]
    omega
  case nodes => simp [noNodes]

end Operations

section Timeout

theorem Invariant.withAgenda (inv : machine.Invariant)
    (engine : next.engine.Invariant)
    (armed : next.frame = none → next.engine.Armed)
    (waitingDue : ∀ node ∈ next.waiting, node.key = next.engine.nowUs)
    (onTime : ∀ delivery ∈ next.history.deliveries,
      delivery.atUs = delivery.node.key ∧ delivery.atUs ≤ next.engine.nowUs)
    (registrations : next.history.registrations = machine.history.registrations)
    (withdrawn : next.history.withdrawn = machine.history.withdrawn)
    (nextId : next.engine.alarmMap.nextId = machine.engine.alarmMap.nextId)
    (agenda : next.agenda = machine.agenda) : next.Invariant where
  engine := engine
  armed := armed
  waitingDue := waitingDue
  onTime := onTime
  inOrder := registrations ▸ inv.inOrder
  fresh := by
    rw [registrations, nextId]
    exact inv.fresh
  matched := by
    rw [registrations, agenda]
    exact inv.matched
  accounted := by
    rw [registrations, withdrawn, agenda]
    exact inv.accounted
  ordered := agenda ▸ inv.ordered

theorem Invariant.advance (inv : machine.Invariant) (top : machine.frame = none)
    {delay : Nat} (allowed : machine.engine.clock.MayAdvance delay) :
    { machine with engine := { machine.engine with
      clock := machine.engine.clock.advance delay } }.Invariant := by
  have later : machine.engine.nowUs ≤
      ((machine.engine.clock.now + delay) / 1000 : Nat) := by
    unfold Ns3QuicAlarmEngine.nowUs
    omega
  apply inv.withAgenda
  case engine => exact inv.engine.advance (inv.armed top) allowed
  case armed => exact fun _ => inv.armed top
  case waitingDue => simp [waiting, top]
  case onTime =>
    intro delivery membership
    obtain ⟨onKey, past⟩ := inv.onTime delivery membership
    exact ⟨onKey, past.trans later⟩
  all_goals rfl

theorem Invariant.onAlarm (inv : machine.Invariant) {node : Node Int Alarm}
    {rest : List (Node Int Alarm)} {current : Option (Node Int Alarm)}
    (frame : machine.frame = some ⟨node :: rest, current⟩) :
    machine.onAlarm.Invariant := by
  simp only [Machine.onAlarm, frame]
  have due : ∀ other ∈ node :: rest, other.key = machine.engine.nowUs := by
    simpa [waiting, frame] using inv.waitingDue
  apply inv.withAgenda
  case engine => exact inv.engine
  case armed => simp
  case waitingDue => exact fun other membership => due other (List.mem_cons_of_mem _ membership)
  case onTime =>
    intro delivery membership
    rcases List.mem_append.mp membership with earlier | this
    · exact inv.onTime delivery earlier
    · rw [List.mem_singleton.mp this]
      exact ⟨(due node (by simp)).symm, le_refl _⟩
  case agenda => simp [agenda, waiting, frame]
  all_goals rfl

theorem Invariant.leaveCallback (inv : machine.Invariant) {cbs : List (Node Int Alarm)}
    {current : Option (Node Int Alarm)} (frame : machine.frame = some ⟨cbs, current⟩) :
    { machine with frame := some ⟨cbs, none⟩ }.Invariant := by
  apply inv.withAgenda
  case engine => exact inv.engine
  case armed => simp
  case waitingDue => simpa [waiting, frame] using inv.waitingDue
  case onTime => exact inv.onTime
  case agenda => simp [agenda, waiting, frame]
  all_goals rfl

theorem Invariant.endOfTimeout (inv : machine.Invariant)
    (frame : machine.frame = some ⟨[], none⟩) :
    ∃ next, machine.endOfTimeout = .ok next ∧ next.Invariant ∧ next.frame = none ∧
      next.engine.alarmMap = machine.engine.alarmMap := by
  obtain ⟨engine, result, sameMap, sameTime, engineInv, armed⟩ :=
    inv.engine.indexed.updateTimer inv.engine.notPast inv.engine.timer.owned
  refine ⟨{ machine with engine := engine, frame := none },
    by simp [Machine.endOfTimeout, result], ?_, rfl, sameMap⟩
  apply inv.withAgenda engineInv (fun _ => armed)
  case waitingDue => simp [waiting]
  case onTime =>
    simp only [Ns3QuicAlarmEngine.nowUs, sameTime]
    exact inv.onTime
  case nextId => simp [sameMap]
  case agenda => simp [agenda, waiting, frame, sameMap]
  all_goals rfl

variable [DecidableEq Alarm]

theorem Invariant.timerExpires (inv : machine.Invariant) (top : machine.frame = none)
    (expired : machine.engine.clock.due?.isSome = true) :
    machine.timerExpires.Invariant ∧
      (∃ due, machine.timerExpires.frame = some ⟨due, none⟩ ∧
        due ++ machine.timerExpires.engine.alarmMap.nodes = machine.engine.alarmMap.nodes) := by
  obtain ⟨event, found⟩ := Option.isSome_iff_exists.mp expired
  obtain ⟨engineInv, sameClock, cut, sameNext, due⟩ :=
    (inv.engine.removeEvent event.uid).takeDue
  simp only [Machine.timerExpires, found]
  refine ⟨inv.withAgenda engineInv (by simp) ?_ ?_ rfl rfl sameNext ?_, _, rfl, cut⟩
  · exact due
  · exact inv.onTime
  · simp only [agenda, waiting, top, List.append_nil, List.append_assoc]
    rw [cut]

theorem Invariant.onAlarmReturns (inv : machine.Invariant) {cbs : List (Node Int Alarm)}
    {node : Node Int Alarm} (frame : machine.frame = some ⟨cbs, some node⟩)
    {nextTimeoutUs : Int}
    (notAtOnce : ¬(0 < nextTimeoutUs ∧ nextTimeoutUs ≤ machine.engine.nowUs)) :
    ∃ next, machine.onAlarmReturns nextTimeoutUs = .ok next ∧ next.Invariant := by
  have left := inv.leaveCallback frame
  simp only [Machine.onAlarmReturns, frame, if_neg notAtOnce]
  split
  next again =>
    obtain ⟨next, token, result, nextInv, _⟩ := left.register nextTimeoutUs node.value
    exact ⟨next, by simp [result, Except.map], nextInv⟩
  next never => exact ⟨_, rfl, left⟩

end Timeout

section Runs

variable [DecidableEq Alarm]

/-- An action that happens at the right moment and meets the requirements
succeeds, and keeps the invariant. -/
theorem Invariant.perform (inv : machine.Invariant) {action : Action Alarm}
    (enabled : machine.Enabled action) (requires : machine.Requires action) :
    ∃ next, machine.perform action = .ok next ∧ next.Invariant := by
  cases action with
  | register timeoutUs ac =>
      obtain ⟨next, token, result, nextInv, _⟩ := inv.register timeoutUs ac
      exact ⟨next, by simp [Machine.perform, result, Except.map], nextInv⟩
  | unregister token =>
      obtain ⟨node, live, rfl⟩ := requires
      obtain ⟨next, result, nextInv, _⟩ := inv.unregister live
      exact ⟨next, by simp [Machine.perform, result, Except.map], nextInv⟩
  | reregister token timeoutUs =>
      obtain ⟨⟨node, live, rfl⟩, ⟨other, another, different⟩, ahead⟩ := requires
      obtain ⟨next, result, nextInv, _⟩ := inv.reregister live another different ahead
      exact ⟨next, by simp [Machine.perform, result, Except.map], nextInv⟩
  | shutdown => exact ⟨_, rfl, inv.shutdown⟩
  | advance delay => exact ⟨_, rfl, inv.advance enabled.1 enabled.2⟩
  | timerExpires => exact ⟨_, rfl, (inv.timerExpires enabled.1 enabled.2).1⟩
  | onAlarm =>
      obtain ⟨node, rest, frame⟩ := enabled
      exact ⟨_, rfl, inv.onAlarm frame⟩
  | onAlarmReturns nextTimeoutUs =>
      obtain ⟨cbs, node, frame⟩ := enabled
      exact inv.onAlarmReturns frame requires
  | endOfTimeout =>
      obtain ⟨next, result, nextInv, _⟩ := inv.endOfTimeout enabled
      exact ⟨next, result, nextInv⟩

theorem Invariant.step (inv : machine.Invariant) {action : Action Alarm}
    (step : Step machine action next) : next.Invariant := by
  obtain ⟨⟨enabled, requires⟩, result⟩ := step
  obtain ⟨other, performed, otherInv⟩ := inv.perform enabled requires
  rw [result, Except.ok.injEq] at performed
  exact performed ▸ otherInv

theorem invariant_of_run {now : Nat} {actions : List (Action Alarm)}
    (run : Run Step (create now) actions machine) : machine.Invariant :=
  run.invariant Invariant (invariant_create now) fun _ _ _ inv step => inv.step step

end Runs

section Outcomes

/-- The alarm map agrees with `all_alarms_` and `timer_` runs out no later
than the first key. -/
structure Consistent (engine : Ns3QuicAlarmEngine Alarm) : Prop where
  once : (engine.alarmMap.nodes.map Node.value).Nodup
  allAlarms : ∀ alarm, alarm ∈ engine.allAlarms ↔
    alarm ∈ engine.alarmMap.nodes.map Node.value
  timer : engine.alarmMap.nodes ≠ [] →
    engine.timerIsRunning = true ∧
      ∃ event ∈ engine.clock.pending, engine.timer = some event.uid ∧
        engine.nowUs ≤ ((event.ts / 1000 : Nat) : Int) ∧
        ∀ node ∈ engine.alarmMap.nodes, ((event.ts / 1000 : Nat) : Int) ≤ node.key

/-- Taken back, and `OnAlarm` never ran for it. -/
def Withdrawn (machine : Machine Alarm) (registration : Registration Alarm) : Prop :=
  registration.token ∈ machine.history.withdrawn ∧
    machine.deliveriesOf registration.token = []

/-- `OnAlarm` ran once, for the right alarm and in the right microsecond. -/
def Delivered (machine : Machine Alarm) (registration : Registration Alarm) : Prop :=
  registration.token ∉ machine.history.withdrawn ∧
    ∃ delivery, machine.deliveriesOf registration.token = [delivery] ∧
      delivery.node.value = registration.alarm ∧ delivery.atUs = registration.dueUs

def Pending (machine : Machine Alarm) (registration : Registration Alarm) : Prop :=
  registration.token ∉ machine.history.withdrawn ∧
    machine.deliveriesOf registration.token = [] ∧
    machine.engine.nowUs ≤ registration.dueUs ∧
    ∃ node ∈ machine.waiting ++ machine.engine.alarmMap.nodes,
      Stands registration node

theorem Invariant.consistent (inv : machine.Invariant) (top : machine.frame = none) :
    Consistent machine.engine where
  once := inv.engine.indexed.distinct
  allAlarms := by
    intro alarm
    rw [inv.engine.indexed.allAlarms, List.mem_map]
  timer := by
    intro nonempty
    have inFlight := inv.armed top nonempty
    obtain ⟨event, pending⟩ := List.exists_mem_of_ne_nil _ inFlight
    have ahead := inv.engine.timer.ahead event pending
    refine ⟨(Ns3QuicAlarmEngine.timerIsRunning_iff inv.engine.timer.owned).mpr inFlight,
      event, pending, inv.engine.timer.owned event pending, ?_,
      inv.engine.timer.inTime event pending⟩
    unfold Ns3QuicAlarmEngine.nowUs
    omega

theorem length_deliveriesOf (machine : Machine Alarm) (token : AlarmRegToken) :
    (machine.deliveriesOf token).length =
      ((machine.history.deliveries.map Delivery.node).map Node.id).count token := by
  rw [deliveriesOf, ← List.countP_eq_length_filter, List.count, List.map_map,
    List.countP_map]
  rfl

theorem Invariant.registration_unique (inv : machine.Invariant)
    {left right : Registration Alarm}
    (leftMember : left ∈ machine.history.registrations)
    (rightMember : right ∈ machine.history.registrations)
    (same : left.token = right.token) : left = right :=
  List.inj_on_of_nodup_map (inv.inOrder.imp (fun smaller => Nat.ne_of_lt smaller))
    leftMember rightMember same

theorem Invariant.nodup_agenda (inv : machine.Invariant) :
    (machine.agenda.map Node.id).Nodup := by
  have distinct : (machine.history.registrations.map Registration.token).Nodup :=
    inv.inOrder.imp (fun smaller => Nat.ne_of_lt smaller)
  exact (List.nodup_append.mp (inv.accounted.nodup_iff.mp distinct)).2.1

theorem Invariant.stands (inv : machine.Invariant) {registration : Registration Alarm}
    (present : registration ∈ machine.history.registrations)
    {node : Node Int Alarm} (membership : node ∈ machine.agenda)
    (same : node.id = registration.token) : Stands registration node := by
  obtain ⟨other, otherPresent, stands⟩ := inv.matched node membership
  have equality := inv.registration_unique otherPresent present (stands.1.trans same)
  exact equality ▸ stands

theorem Invariant.count_eq_one (inv : machine.Invariant)
    {registration : Registration Alarm}
    (present : registration ∈ machine.history.registrations) :
    machine.history.withdrawn.count registration.token +
      (machine.deliveriesOf registration.token).length +
      ((machine.waiting ++ machine.engine.alarmMap.nodes).map Node.id).count
        registration.token = 1 := by
  have counted := inv.accounted.count_eq registration.token
  rw [List.count_eq_one_of_mem
    (inv.inOrder.imp (fun smaller => Nat.ne_of_lt smaller))
    (List.mem_map_of_mem present)] at counted
  rw [length_deliveriesOf]
  simp only [agenda, List.map_append, List.count_append] at counted ⊢
  omega

theorem Invariant.outcome (inv : machine.Invariant) {registration : Registration Alarm}
    (present : registration ∈ machine.history.registrations) :
    Withdrawn machine registration ∨ Delivered machine registration ∨
      Pending machine registration := by
  have once := inv.count_eq_one present
  by_cases taken : registration.token ∈ machine.history.withdrawn
  · refine Or.inl ⟨taken, List.eq_nil_of_length_eq_zero ?_⟩
    have positive := List.count_pos_iff.mpr taken
    omega
  · rw [List.count_eq_zero_of_not_mem taken] at once
    cases delivered : machine.deliveriesOf registration.token with
    | cons delivery others =>
        refine Or.inr (Or.inl ⟨taken, delivery, ?_, ?_⟩)
        · rw [delivered, List.length_cons] at once
          rw [delivered, List.eq_nil_of_length_eq_zero (by omega : others.length = 0)]
        · obtain ⟨recorded, identity⟩ := List.mem_filter.mp
            (show delivery ∈ machine.deliveriesOf registration.token by simp [delivered])
          have membership : delivery.node ∈ machine.agenda := by
            simp only [agenda, List.mem_append, List.mem_map]
            exact Or.inl (Or.inl ⟨delivery, recorded, rfl⟩)
          obtain ⟨_, alarm, due⟩ := inv.stands present membership (by simpa using identity)
          exact ⟨alarm.symm, (inv.onTime delivery recorded).1.trans due.symm⟩
    | nil =>
        rw [delivered, List.length_nil] at once
        obtain ⟨node, remains, identity⟩ := List.mem_map.mp
          (List.count_pos_iff.mp (by omega : 0 <
            ((machine.waiting ++ machine.engine.alarmMap.nodes).map Node.id).count
              registration.token))
        have membership : node ∈ machine.agenda := by
          rw [agenda, List.append_assoc]
          exact List.mem_append_right _ remains
        have stands := inv.stands present membership identity
        refine Or.inr (Or.inr ⟨taken, delivered, ?_, node, remains, stands⟩)
        rw [stands.2.2]
        rcases List.mem_append.mp remains with waits | inMap
        · exact (inv.waitingDue node waits).ge
        · exact inv.engine.notPast node inMap

end Outcomes

variable [DecidableEq Alarm]

/-- Over every run of the engine: at top level the map, `all_alarms_` and the
timer agree; no key is passed; each registration is withdrawn, delivered once
and on time, or still ahead; nothing else is delivered; deliveries come in the
order of keys and then of registrations; and no assertion fails. -/
theorem alarms_delivered_once_on_time {now : Nat} {actions : List (Action Alarm)}
    (run : Run Step (create now) actions machine) :
    (machine.frame = none → Consistent machine.engine) ∧
    (∀ node ∈ machine.engine.alarmMap.nodes, machine.engine.nowUs ≤ node.key) ∧
    (∀ registration ∈ machine.history.registrations,
      Withdrawn machine registration ∨ Delivered machine registration ∨
        Pending machine registration) ∧
    (∀ delivery ∈ machine.history.deliveries,
      ∃ registration ∈ machine.history.registrations,
        registration.token = delivery.node.id ∧ Delivered machine registration) ∧
    (machine.history.registrations.map Registration.token).Pairwise (· < ·) ∧
    (machine.history.deliveries.Pairwise fun earlier later =>
      earlier.node.Before later.node) ∧
    (∀ action, machine.Enabled action → machine.Requires action →
      ∃ next, Step machine action next) := by
  have inv := invariant_of_run run
  refine ⟨inv.consistent, inv.engine.notPast, fun _ present => inv.outcome present, ?_,
    inv.inOrder, ?_, ?_⟩
  · intro delivery recorded
    have membership : delivery.node ∈ machine.agenda := by
      simp only [agenda, List.mem_append, List.mem_map]
      exact Or.inl (Or.inl ⟨delivery, recorded, rfl⟩)
    obtain ⟨registration, present, stands⟩ := inv.matched delivery.node membership
    have ran : delivery ∈ machine.deliveriesOf registration.token :=
      List.mem_filter.mpr ⟨recorded, by simp [stands.1]⟩
    refine ⟨registration, present, stands.1, ?_⟩
    rcases inv.outcome present with withdrawn | delivered | pending
    · simp [withdrawn.2] at ran
    · exact delivered
    · simp [pending.2.1] at ran
  · have ordered := (List.pairwise_append.mp (List.pairwise_append.mp inv.ordered).1).1
    exact List.pairwise_map.mp ordered
  · intro action enabled requires
    obtain ⟨next, result, _⟩ := inv.perform enabled requires
    exact ⟨next, ⟨enabled, requires⟩, result⟩

/-- Two alarms due in the same microsecond: the older one is moved behind the
other, and both run. -/
theorem alarms_delivered_once_on_time_moved :
    ∃ machine : Machine Bool,
      Run Step (create 0)
        [.register 1 true, .register 1 false, .reregister 0 1, .advance 1000, .timerExpires,
          .onAlarm, .onAlarmReturns 0, .onAlarm, .onAlarmReturns 0, .endOfTimeout]
        machine ∧
      machine.history.deliveries = [⟨⟨1, 1, false⟩, 1⟩, ⟨⟨1, 2, true⟩, 1⟩] ∧
      ∀ registration ∈ machine.history.registrations,
        Withdrawn machine registration ∨ Delivered machine registration ∨
          Pending machine registration := by
  have run : Run Step (create 0 : Machine Bool) _ _ := Run.of_execute
    [.register 1 true, .register 1 false, .reregister 0 1, .advance 1000, .timerExpires,
      .onAlarm, .onAlarmReturns 0, .onAlarm, .onAlarmReturns 0, .endOfTimeout] rfl
  exact ⟨_, run, rfl, (alarms_delivered_once_on_time run).2.2.1⟩

end Machine

end Ns3Quic.Alarm
