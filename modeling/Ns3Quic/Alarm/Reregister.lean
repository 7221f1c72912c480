import Ns3Quic.Alarm.World

/-!
# Moving an alarm, and deadlines that have passed

Here the callers of the engine do as they like: any token, any timeout, and
callbacks that ask to be called again at once.  A call that violates an
assertion ends the run; every other call keeps the engine sound.

`RegisterAlarm` raises a timeout that has passed to the present.
`ReregisterAlarm` does not, and it reads the first entry of the map after it
has erased the entry to be moved.  So it works exactly when another alarm is
registered and the timeout is not before now.
-/

namespace Ns3Quic.Alarm

open EventQueue OrderedMultimap TransitionSystem LoopRules

universe u

namespace Machine

variable {Alarm : Type u} {machine next : Machine Alarm}

/-- The engine is in order, and armed when no `OnTimeout` is active. -/
structure Sound (machine : Machine Alarm) : Prop where
  engine : machine.engine.Invariant
  armed : machine.frame = none → machine.engine.Armed

theorem sound_create (now : Nat) : (create now : Machine Alarm).Sound :=
  ⟨(invariant_create now).engine, (invariant_create now).armed⟩

variable [DecidableEq Alarm]

def FreeStep : Machine Alarm → Action Alarm → Machine Alarm → Prop :=
  Guarded Enabled perform

theorem Sound.register (sound : machine.Sound) (timeoutUs : Int) (ac : Alarm) :
    ∃ next token, machine.register timeoutUs ac = .ok (next, token) ∧ next.Sound := by
  obtain ⟨engine, token, result, engineInv, armed, _⟩ :=
    sound.engine.registerAlarm timeoutUs ac
  exact ⟨_, token, bind_eq_ok.mpr ⟨_, result, rfl⟩, engineInv, fun _ => armed⟩

theorem Sound.timerExpires (sound : machine.Sound) : machine.timerExpires.Sound := by
  unfold Machine.timerExpires
  split
  next => exact sound
  next event _ =>
    obtain ⟨engineInv, _⟩ := (sound.engine.removeEvent event.uid).takeDue
    exact ⟨engineInv, fun top => by cases top⟩

omit [DecidableEq Alarm] in
theorem Sound.onAlarm (sound : machine.Sound) : machine.onAlarm.Sound := by
  unfold Machine.onAlarm
  split
  next => exact ⟨sound.engine, fun top => by cases top⟩
  next => exact sound

theorem Sound.onAlarmReturns (sound : machine.Sound) (nextTimeoutUs : Int) :
    ∃ next, machine.onAlarmReturns nextTimeoutUs = .ok next ∧ next.Sound := by
  unfold Machine.onAlarmReturns
  split
  next cbs node frame =>
    have left : Sound { machine with frame := some ⟨cbs, none⟩ } :=
      ⟨sound.engine, fun top => by cases top⟩
    split
    next => exact ⟨_, rfl, sound.engine, sound.armed⟩
    next =>
      split
      next =>
        obtain ⟨next, token, result, nextSound⟩ := left.register nextTimeoutUs node.value
        exact ⟨next, by rw [result]; rfl, nextSound⟩
      next => exact ⟨_, rfl, left⟩
  next => exact ⟨_, rfl, sound⟩

omit [DecidableEq Alarm] in
theorem Sound.endOfTimeout (sound : machine.Sound) :
    ∃ next, machine.endOfTimeout = .ok next ∧ next.Sound := by
  obtain ⟨engine, result, _, _, engineInv, armed⟩ :=
    sound.engine.indexed.updateTimer sound.engine.notPast sound.engine.timer.owned
  exact ⟨_, bind_eq_ok.mpr ⟨_, result, rfl⟩, engineInv, fun _ => armed⟩

/-- How a step ends: it fails in the assertion of `UpdateTimer` exactly under
the condition `past`, and keeps the engine sound if it succeeds. -/
structure Outcome (result : Except EngineFault (Machine Alarm)) (past : Prop) : Prop where
  fails : result = .error .pastTimeout ↔ past
  sound : ∀ next, result = .ok next → next.Sound

omit [DecidableEq Alarm] in
theorem Outcome.of_ok {result : Except EngineFault (Machine Alarm)} {past : Prop}
    (next : Machine Alarm) (performed : result = .ok next) (sound : next.Sound)
    (ahead : ¬past) : Outcome result past where
  fails := by simp [performed, ahead]
  sound := by
    rintro other rfl
    exact Except.ok.inj performed ▸ sound

omit [DecidableEq Alarm] in
theorem Outcome.of_error {result : Except EngineFault (Machine Alarm)} {past : Prop}
    (fault : EngineFault) (performed : result = .error fault)
    (fails : fault = .pastTimeout ↔ past) : Outcome result past where
  fails := by rw [performed, Except.error.injEq, fails]
  sound := by simp [performed]

def MovesToPast (machine : Machine Alarm) : Action Alarm → Prop
  | .reregister token timeoutUs =>
      machine.Live token ∧ (∃ other ∈ machine.engine.alarmMap.nodes, other.id ≠ token) ∧
        timeoutUs < machine.engine.nowUs
  | _ => False

theorem Sound.unregister (sound : machine.Sound) (token : AlarmRegToken) :
    Outcome (machine.perform (.unregister token)) False := by
  by_cases live : ∃ node ∈ machine.engine.alarmMap.nodes, node.id = token
  · obtain ⟨node, present, rfl⟩ := live
    obtain ⟨engine, result, engineInv, armed, _⟩ := sound.engine.unregisterAlarm present
    refine .of_ok { machine with
        engine := engine
        history := { machine.history with
          withdrawn := machine.history.withdrawn ++ [node.id] } } ?_
      ⟨engineInv, fun top => armed (sound.armed top)⟩ id
    simp only [Machine.perform, Machine.unregister, result, bind_ok, pure_ok, Except.map]
  · simp only [not_exists, not_and] at live
    refine .of_error .staleToken ?_ (by simp)
    simp only [Machine.perform, Machine.unregister,
      Ns3QuicAlarmEngine.unregisterAlarm_stale _ live, bind_error, Except.map]

theorem Sound.reregister (sound : machine.Sound) (token : AlarmRegToken) (timeoutUs : Int) :
    Outcome (machine.perform (.reregister token timeoutUs))
      (machine.MovesToPast (.reregister token timeoutUs)) := by
  have fails {fault : EngineFault}
      (failed : machine.engine.reregisterAlarm token timeoutUs = .error fault) :
      machine.perform (.reregister token timeoutUs) = .error fault := by
    rw [Machine.perform, reregister_eq_error_iff.mpr failed]
    rfl
  rcases sound.engine.reregisterAlarm_cases token timeoutUs with ⟨failed, dangling⟩ |
    ⟨node, live, rfl, ⟨failed, alone⟩ | ⟨another, ⟨failed, past⟩ | ⟨_, ahead⟩⟩⟩
  · refine .of_error _ (fails failed) ⟨fun same => (by cases same), ?_⟩
    rintro ⟨⟨node, present, identity⟩, _⟩
    exact absurd identity (dangling node present)
  · refine .of_error _ (fails failed) ⟨fun same => (by cases same), ?_⟩
    rintro ⟨_, ⟨other, present, different⟩, _⟩
    exact absurd (alone other present) different
  · exact .of_error _ (fails failed) ⟨fun _ => ⟨⟨node, live, rfl⟩, another, past⟩, fun _ => rfl⟩
  · obtain ⟨other, present, different⟩ := another
    obtain ⟨engine, result, engineInv, armed, _⟩ :=
      sound.engine.reregisterAlarm live present different ahead
    have found := (machine.engine.alarmMap.find?_eq_some_iff node.id node).mpr ⟨live, rfl⟩
    refine .of_ok { machine with
        engine := engine
        history := { machine.history with
          registrations := machine.history.registrations ++
            [⟨machine.engine.alarmMap.nextId, node.value, timeoutUs, machine.engine.nowUs⟩]
          withdrawn := machine.history.withdrawn ++ [node.id] } } ?_
      ⟨engineInv, fun _ => armed⟩ fun moves => not_lt.mpr ahead moves.2.2
    simp only [Machine.perform, Machine.reregister, found, result, Option.toList_some,
      List.map_cons, List.map_nil, bind_ok, pure_ok, Except.map]

theorem Sound.perform (sound : machine.Sound) {action : Action Alarm}
    (enabled : machine.Enabled action) :
    Outcome (machine.perform action) (machine.MovesToPast action) := by
  cases action with
  | register timeoutUs ac =>
      obtain ⟨next, token, result, nextSound⟩ := sound.register timeoutUs ac
      exact .of_ok next (by simp [Machine.perform, result, Except.map]) nextSound id
  | unregister token => exact sound.unregister token
  | reregister token timeoutUs => exact sound.reregister token timeoutUs
  | shutdown =>
      obtain ⟨engineInv, armed⟩ := sound.engine.shutdown
      exact .of_ok _ rfl ⟨engineInv, fun _ => armed⟩ id
  | advance delay =>
      exact .of_ok _ rfl
        ⟨sound.engine.advance (sound.armed enabled.1) enabled.2, sound.armed⟩ id
  | timerExpires => exact .of_ok _ rfl sound.timerExpires id
  | onAlarm => exact .of_ok _ rfl sound.onAlarm id
  | onAlarmReturns nextTimeoutUs =>
      obtain ⟨next, result, nextSound⟩ := sound.onAlarmReturns nextTimeoutUs
      exact .of_ok next result nextSound id
  | endOfTimeout =>
      obtain ⟨next, result, nextSound⟩ := sound.endOfTimeout
      exact .of_ok next result nextSound id

theorem sound_of_run {now : Nat} {actions : List (Action Alarm)}
    (run : Run FreeStep (create now) actions machine) : machine.Sound :=
  run.invariant Sound (sound_create now) fun _ _ next sound step =>
    (sound.perform step.1).sound next step.2

/-! ## Deadlines that have passed -/

/-- In every run, no alarm of the map is overdue, and `UpdateTimer` finds an
overdue one exactly when `ReregisterAlarm` moves an alarm beside others to a
time that has passed. -/
theorem past_timeout_iff_moves_to_past {now : Nat} {actions : List (Action Alarm)}
    (run : Run FreeStep (create now) actions machine) :
    machine.engine.NotPast ∧
      ∀ action, machine.Enabled action →
        (machine.perform action = .error .pastTimeout ↔ machine.MovesToPast action) := by
  have sound := sound_of_run run
  exact ⟨sound.engine.notPast, fun action enabled => (sound.perform enabled).fails⟩

/-- Registering an alarm for a time that has passed. -/
theorem past_timeout_iff_moves_to_past_register :
    ∃ machine : Machine Bool,
      Run FreeStep (create 5000) [.register 10 true] machine ∧
      machine.perform (.register 3 false) ≠ .error .pastTimeout := by
  have run : Run FreeStep (create 5000 : Machine Bool) _ _ :=
    Run.of_execute [.register 10 true] rfl
  exact ⟨_, run, ((past_timeout_iff_moves_to_past run).2 (.register 3 false) trivial).not.mpr id⟩

/-! ## Moving an alarm -/

structure Moved (engine next : Ns3QuicAlarmEngine Alarm) (node : Node Int Alarm)
    (timeoutUs : Int) (token : AlarmRegToken) : Prop where
  entries : ∀ entry, entry ∈ next.alarmMap.nodes ↔
    (entry = ⟨timeoutUs, token, node.value⟩ ∨
      entry ∈ engine.alarmMap.nodes ∧ entry.id ≠ node.id)
  allAlarms : next.allAlarms = engine.allAlarms
  running : next.timerIsRunning = true
  inTime : ∀ event ∈ next.clock.pending, next.timer = some event.uid ∧
    ∀ entry ∈ next.alarmMap.nodes, ((event.ts / 1000 : Nat) : Int) ≤ entry.key

/-- In every state that a run reaches, `ReregisterAlarm` moves a live alarm
exactly when another alarm is registered and the timeout is not before now. -/
theorem reregister_moves_iff {now : Nat} {actions : List (Action Alarm)}
    (run : Run FreeStep (create now) actions machine) {node : Node Int Alarm}
    (live : node ∈ machine.engine.alarmMap.nodes) (timeoutUs : Int) :
    (∃ next token, machine.engine.reregisterAlarm node.id timeoutUs = .ok (next, token) ∧
      Moved machine.engine next node timeoutUs token) ↔
      (∃ other ∈ machine.engine.alarmMap.nodes, other.id ≠ node.id) ∧
        machine.engine.nowUs ≤ timeoutUs := by
  have sound := sound_of_run run
  constructor
  · rintro ⟨next, token, result, _⟩
    obtain ⟨other, present, identity, another, ahead⟩ :=
      sound.engine.of_reregisterAlarm result
    exact ⟨identity ▸ another, ahead⟩
  · rintro ⟨⟨other, another, different⟩, ahead⟩
    obtain ⟨next, result, inv, armed, _, newMap⟩ :=
      sound.engine.reregisterAlarm live another different ahead
    refine ⟨next, _, result, ?_, Ns3QuicAlarmEngine.reregisterAlarm_allAlarms result, ?_, ?_⟩
    · intro entry
      rw [newMap, Multimap.mem_insert_iff, Multimap.mem_erase_iff, Multimap.nextId_erase]
    · apply (Ns3QuicAlarmEngine.timerIsRunning_iff inv.timer.owned).mpr
      apply armed
      rw [newMap]
      exact List.ne_nil_of_mem ((Multimap.mem_insert_iff _ _ _ _).mpr (Or.inl rfl))
    · exact fun event pending =>
        ⟨inv.timer.owned event pending, inv.timer.inTime event pending⟩

/-- The first of two alarms moves behind the second. -/
theorem reregister_moves_iff_behind :
    ∃ machine : Machine Bool,
      Run FreeStep (create 0) [.register 10 true, .register 20 false] machine ∧
      ∃ next token, machine.engine.reregisterAlarm 0 30 = .ok (next, token) ∧
        Moved machine.engine next ⟨10, 0, true⟩ 30 token := by
  have run : Run FreeStep (create 0 : Machine Bool) _ _ :=
    Run.of_execute [.register 10 true, .register 20 false] rfl
  refine ⟨_, run, (@reregister_moves_iff _ _ _ _ _ run ⟨10, 0, true⟩ (by decide) 30).mpr ?_⟩
  exact ⟨⟨⟨20, 1, false⟩, by decide, by decide⟩, by decide⟩

end Machine

namespace World

/-- An alarm is set and then updated while no other alarm is set. -/
theorem update_of_only_alarm :
    ∃ world : World Bool,
      Run Step (create 0) [.construct true, .set true 10] world ∧
      world.Enabled (.update true 20 1) ∧
      world.machine.Live 0 ∧
      world.machine.engine.reregisterAlarm 0 20 = .error .emptyAlarmMap ∧
      world.perform (.update true 20 1) = .error (.engine .emptyAlarmMap) := by
  have run : Run Step (create 0 : World Bool) _ _ :=
    Run.of_execute [.construct true, .set true 10] rfl
  exact ⟨_, run, by decide, by decide, rfl, rfl⟩

/-- One of two alarms is updated to a deadline that has passed. -/
theorem update_to_past_deadline :
    ∃ world : World Bool,
      Run Step (create 0)
        [.construct true, .construct false, .set true 10, .set false 20, .advance 5000] world ∧
      world.Enabled (.update true 3 1) ∧
      world.machine.engine.nowUs = 5 ∧
      world.perform (.update true 3 1) = .error (.engine .pastTimeout) := by
  have run : Run Step (create 0 : World Bool) _ _ := Run.of_execute
    [.construct true, .construct false, .set true 10, .set false 20, .advance 5000] rfl
  exact ⟨_, run, by decide, rfl, rfl⟩

end World

end Ns3Quic.Alarm
