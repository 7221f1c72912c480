import Ns3Quic.Alarm.Invariant

/-!
# The engine inside the simulation

`OnTimeout` calls back into user code, and user code calls back into the
engine.  The machine therefore runs `OnTimeout` in small steps: the frame
holds the callbacks that are still to be made, and engine operations may
happen between any two steps, whether user code runs at top level, inside an
`OnAlarm` callback or in the visitor.

The history records what can be observed from outside: which registrations
the engine accepted, which of them were taken back, and when `OnAlarm` ran.
-/

namespace Ns3Quic.Alarm

open EventQueue OrderedMultimap TransitionSystem

universe u

/-- A node that entered the alarm map, with the time that was asked for. -/
structure Registration (Alarm : Type u) where
  token : AlarmRegToken
  alarm : Alarm
  requestedUs : Int
  registeredUs : Int
  deriving DecidableEq

def Registration.dueUs {Alarm : Type u} (registration : Registration Alarm) : Int :=
  max registration.requestedUs registration.registeredUs

/-- One execution of `OnAlarm`, for the node that was due. -/
structure Delivery (Alarm : Type u) where
  node : Node Int Alarm
  atUs : Int
  deriving DecidableEq

structure History (Alarm : Type u) where
  registrations : List (Registration Alarm)
  withdrawn : List AlarmRegToken
  deliveries : List (Delivery Alarm)
  deriving DecidableEq

/-- An activation of `OnTimeout`: the callbacks it still has to make, and the
one that is executing. -/
structure Frame (Alarm : Type u) where
  cbs : List (Node Int Alarm)
  current : Option (Node Int Alarm)
  deriving DecidableEq

structure Machine (Alarm : Type u) where
  engine : Ns3QuicAlarmEngine Alarm
  /-- `none` at top level. -/
  frame : Option (Frame Alarm)
  history : History Alarm

inductive Action (Alarm : Type u) where
  | register (timeoutUs : Int) (ac : Alarm)
  | unregister (token : AlarmRegToken)
  | reregister (token : AlarmRegToken) (timeoutUs : Int)
  | shutdown
  /-- Simulated time moves on by `delay` nanoseconds. -/
  | advance (delay : Nat)
  /-- The simulator executes the event of `timer_`, which enters `OnTimeout`. -/
  | timerExpires
  /-- `OnTimeout` calls `OnAlarm` of its next alarm. -/
  | onAlarm
  /-- `OnAlarm` returns to `OnTimeout`. -/
  | onAlarmReturns (nextTimeoutUs : Int)
  /-- `OnTimeout` reaches its last statement. -/
  | endOfTimeout

namespace Machine

variable {Alarm : Type u}

def create (now : Nat) : Machine Alarm where
  engine := .create now
  frame := none
  history := ⟨[], [], []⟩

def waiting (machine : Machine Alarm) : List (Node Int Alarm) :=
  match machine.frame with
  | none => []
  | some frame => frame.cbs

def deliveriesOf (machine : Machine Alarm) (token : AlarmRegToken) :
    List (Delivery Alarm) :=
  machine.history.deliveries.filter fun delivery => delivery.node.id == token

variable [DecidableEq Alarm]

def register (machine : Machine Alarm) (timeoutUs : Int) (ac : Alarm) :
    Except EngineFault (Machine Alarm × Option AlarmRegToken) := do
  let (engine, token) ← machine.engine.registerAlarm timeoutUs ac
  let accepted := token.toList.map fun token =>
    (⟨token, ac, timeoutUs, machine.engine.nowUs⟩ : Registration Alarm)
  pure ({ machine with
      engine := engine
      history := { machine.history with
        registrations := machine.history.registrations ++ accepted } },
    token)

def unregister (machine : Machine Alarm) (token : AlarmRegToken) :
    Except EngineFault (Machine Alarm × Alarm) := do
  let (engine, cb) ← machine.engine.unregisterAlarm token
  pure ({ machine with
      engine := engine
      history := { machine.history with
        withdrawn := machine.history.withdrawn ++ [token] } },
    cb)

/-- A registration that moves is taken back and made again. -/
def reregister (machine : Machine Alarm) (token : AlarmRegToken) (timeoutUs : Int) :
    Except EngineFault (Machine Alarm × AlarmRegToken) := do
  let (engine, newToken) ← machine.engine.reregisterAlarm token timeoutUs
  let moved := (machine.engine.alarmMap.find? token).toList.map fun node =>
    (⟨newToken, node.value, timeoutUs, machine.engine.nowUs⟩ : Registration Alarm)
  pure ({ machine with
      engine := engine
      history := { machine.history with
        registrations := machine.history.registrations ++ moved
        withdrawn := machine.history.withdrawn ++ [token] } },
    newToken)

/-- The second component lists the alarms that `OnShutdown` is called on. -/
def shutdown (machine : Machine Alarm) : Machine Alarm × List Alarm :=
  let (engine, cbs) := machine.engine.shutdown
  ({ machine with
      engine := engine
      history := { machine.history with
        withdrawn := machine.history.withdrawn ++
          machine.engine.alarmMap.nodes.map Node.id } },
    cbs)

def timerExpires (machine : Machine Alarm) : Machine Alarm :=
  match machine.engine.clock.due? with
  | none => machine
  | some event =>
      let (engine, due) := { machine.engine with
        clock := machine.engine.clock.remove event.uid }.takeDue
      { machine with engine := engine, frame := some ⟨due, none⟩ }

def onAlarm (machine : Machine Alarm) : Machine Alarm :=
  match machine.frame with
  | some ⟨node :: rest, _⟩ =>
      { machine with
        frame := some ⟨rest, some node⟩
        history := { machine.history with
          deliveries := machine.history.deliveries ++
            [⟨node, machine.engine.nowUs⟩] } }
  | _ => machine

/-- The rest of the loop body of `OnTimeout` once a callback has returned. -/
def onAlarmReturns (machine : Machine Alarm) (nextTimeoutUs : Int) :
    Except EngineFault (Machine Alarm) :=
  match machine.frame with
  | some ⟨cbs, some node⟩ =>
      if 0 < nextTimeoutUs ∧ nextTimeoutUs ≤ machine.engine.nowUs then
        -- the do-while loop calls `OnAlarm` again
        .ok { machine with
          history := { machine.history with
            deliveries := machine.history.deliveries ++
              [⟨node, machine.engine.nowUs⟩] } }
      else if 0 < nextTimeoutUs then
        ({ machine with frame := some ⟨cbs, none⟩ }.register
          nextTimeoutUs node.value).map Prod.fst
      else
        .ok { machine with frame := some ⟨cbs, none⟩ }
  | _ => .ok machine

def endOfTimeout (machine : Machine Alarm) : Except EngineFault (Machine Alarm) := do
  let engine ← machine.engine.updateTimer
  pure { machine with engine := engine, frame := none }

def perform (machine : Machine Alarm) : Action Alarm → Except EngineFault (Machine Alarm)
  | .register timeoutUs ac => (machine.register timeoutUs ac).map Prod.fst
  | .unregister token => (machine.unregister token).map Prod.fst
  | .reregister token timeoutUs => (machine.reregister token timeoutUs).map Prod.fst
  | .shutdown => .ok machine.shutdown.1
  | .advance delay =>
      .ok { machine with
        engine := { machine.engine with clock := machine.engine.clock.advance delay } }
  | .timerExpires => .ok machine.timerExpires
  | .onAlarm => .ok machine.onAlarm
  | .onAlarmReturns nextTimeoutUs => machine.onAlarmReturns nextTimeoutUs
  | .endOfTimeout => machine.endOfTimeout

omit [DecidableEq Alarm] in
def Enabled (machine : Machine Alarm) : Action Alarm → Prop
  | .register _ _ | .unregister _ | .reregister _ _ | .shutdown => True
  | .advance delay =>
      machine.frame = none ∧ machine.engine.clock.MayAdvance delay
  | .timerExpires =>
      machine.frame = none ∧ machine.engine.clock.due?.isSome = true
  | .onAlarm => ∃ node rest, machine.frame = some ⟨node :: rest, none⟩
  | .onAlarmReturns _ => ∃ cbs node, machine.frame = some ⟨cbs, some node⟩
  | .endOfTimeout => machine.frame = some ⟨[], none⟩

def Live (machine : Machine Alarm) (token : AlarmRegToken) : Prop :=
  ∃ node ∈ machine.engine.alarmMap.nodes, node.id = token

/-- What the engine asks of its callers: live tokens, another alarm in the map
and a timeout ahead when an alarm is moved, and callbacks that do not ask to be
called again at once. -/
def Requires (machine : Machine Alarm) : Action Alarm → Prop
  | .unregister token => machine.Live token
  | .reregister token timeoutUs =>
      machine.Live token ∧
        (∃ other ∈ machine.engine.alarmMap.nodes, other.id ≠ token) ∧
        machine.engine.nowUs ≤ timeoutUs
  | .onAlarmReturns nextTimeoutUs =>
      ¬(0 < nextTimeoutUs ∧ nextTimeoutUs ≤ machine.engine.nowUs)
  | _ => True

def Step : Machine Alarm → Action Alarm → Machine Alarm → Prop :=
  Guarded (fun machine action => machine.Enabled action ∧ machine.Requires action) perform

instance (machine : Machine Alarm) (action : Action Alarm) :
    Decidable (machine.Enabled action) :=
  match action with
  | .register _ _ | .unregister _ | .reregister _ _ | .shutdown =>
      inferInstanceAs (Decidable True)
  | .advance _ | .timerExpires => inferInstanceAs (Decidable (_ ∧ _))
  | .onAlarm =>
      match shape : machine.frame with
      | some ⟨node :: rest, none⟩ => isTrue ⟨node, rest, shape⟩
      | some ⟨[], _⟩ | some ⟨_, some _⟩ | none =>
          isFalse (by rintro ⟨_, _, frame⟩; simp [shape] at frame)
  | .onAlarmReturns _ =>
      match shape : machine.frame with
      | some ⟨cbs, some node⟩ => isTrue ⟨cbs, node, shape⟩
      | some ⟨_, none⟩ | none => isFalse (by rintro ⟨_, _, frame⟩; simp [shape] at frame)
  | .endOfTimeout => inferInstanceAs (Decidable (_ = _))

instance (machine : Machine Alarm) (token : AlarmRegToken) :
    Decidable (machine.Live token) :=
  inferInstanceAs (Decidable (∃ node ∈ machine.engine.alarmMap.nodes, node.id = token))

instance (machine : Machine Alarm) (action : Action Alarm) :
    Decidable (machine.Requires action) :=
  match action with
  | .unregister token => inferInstanceAs (Decidable (machine.Live token))
  | .reregister _ _ => inferInstanceAs (Decidable (_ ∧ (∃ other ∈ _, _) ∧ _))
  | .onAlarmReturns _ => inferInstanceAs (Decidable (¬_))
  | .register _ _ | .shutdown | .advance _ | .timerExpires | .onAlarm | .endOfTimeout =>
      inferInstanceAs (Decidable True)

end Machine

end Ns3Quic.Alarm
