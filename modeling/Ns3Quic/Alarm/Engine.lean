import Ns3Quic.Lib.EventQueue
import Ns3Quic.Lib.OrderedMultimap
import Mathlib.Data.Finset.Basic

/-!
# The alarm engine

`Ns3QuicAlarmEngine` keeps the armed alarms in a multimap from deadlines to
alarms and has one simulator event, `timer_`, in flight for all of them.  An
iterator into the multimap is the identity of a node, so dereferencing an
iterator whose node has been erased is visible as a fault.  Assertions of the
source are faults as well.

Simulated time counts nanoseconds; the engine sees it in whole microseconds.
-/

namespace Ns3Quic.Alarm

open EventQueue OrderedMultimap

universe u

/-- `AlarmRegToken`: an iterator into the alarm map. -/
abbrev AlarmRegToken := Nat

inductive EngineFault where
  /-- The iterator passed in points to an erased node. -/
  | staleToken
  /-- `NS_ASSERT(!alarm_map_.empty())` in `ReregisterAlarm`. -/
  | emptyAlarmMap
  /-- `NS_ASSERT_MSG(timer_.IsRunning(), ..)` in `ReregisterAlarm`. -/
  | timerNotRunning
  /-- `NS_ASSERT_MSG(future_us >= now_us, ..)` in `UpdateTimer`. -/
  | pastTimeout
  deriving DecidableEq

structure Ns3QuicAlarmEngine (Alarm : Type u) where
  allAlarms : Finset Alarm
  alarmMap : Multimap Int Alarm
  /-- The event identifier held by `timer_`, whether or not it is running. -/
  timer : Option Nat
  /-- The part of the simulator that the engine uses. -/
  clock : Clock

namespace Ns3QuicAlarmEngine

variable {Alarm : Type u}

def create (now : Nat) : Ns3QuicAlarmEngine Alarm where
  allAlarms := ∅
  alarmMap := Multimap.empty
  timer := none
  clock := ⟨now, 0, []⟩

/-- `Simulator::Now().GetMicroSeconds()`. -/
def nowUs (engine : Ns3QuicAlarmEngine Alarm) : Int :=
  ((engine.clock.now / 1000 : Nat) : Int)

def timerIsRunning (engine : Ns3QuicAlarmEngine Alarm) : Bool :=
  match engine.timer with
  | none => false
  | some uid => engine.clock.isPending uid

def cancelTimer (engine : Ns3QuicAlarmEngine Alarm) :
    Ns3QuicAlarmEngine Alarm :=
  match engine.timer with
  | none => engine
  | some uid => { engine with clock := engine.clock.remove uid }

/-- `timer_ = Simulator::Schedule(delay, &OnTimeout, this)`. -/
def scheduleTimer (engine : Ns3QuicAlarmEngine Alarm) (delayUs : Int) :
    Ns3QuicAlarmEngine Alarm :=
  { engine with
    timer := some engine.clock.nextUid
    clock := engine.clock.schedule (delayUs.toNat * 1000) }

/-- The first statement of `UpdateTimer`. -/
def stopTimer (engine : Ns3QuicAlarmEngine Alarm) : Ns3QuicAlarmEngine Alarm :=
  if engine.timerIsRunning then engine.cancelTimer else engine

def updateTimer (engine : Ns3QuicAlarmEngine Alarm) :
    Except EngineFault (Ns3QuicAlarmEngine Alarm) :=
  let engine := engine.stopTimer
  match engine.alarmMap.nodes with
  | [] => .ok engine
  | first :: _ =>
      if first.key < engine.nowUs then
        .error .pastTimeout
      else
        .ok (engine.scheduleTimer (first.key - engine.nowUs))

/-- The end of `RegisterAlarm` and of `ReregisterAlarm`. -/
def updateTimerIf (engine : Ns3QuicAlarmEngine Alarm) (update : Bool) :
    Except EngineFault (Ns3QuicAlarmEngine Alarm) :=
  if !engine.timerIsRunning || update then engine.updateTimer else .ok engine

def headChanges (engine : Ns3QuicAlarmEngine Alarm) (timeoutUs : Int) : Bool :=
  match engine.alarmMap.nodes with
  | [] => true
  | first :: _ => decide (timeoutUs < first.key)

variable [DecidableEq Alarm]

/-- The second component is the iterator passed to `OnRegistration`; it is
absent when the alarm was registered already. -/
def insertAlarm (engine : Ns3QuicAlarmEngine Alarm) (timeoutUs : Int)
    (ac : Alarm) : Ns3QuicAlarmEngine Alarm × Option AlarmRegToken :=
  if ac ∈ engine.allAlarms then
    (engine, none)
  else
    ({ engine with
        alarmMap := engine.alarmMap.insert timeoutUs ac
        allAlarms := insert ac engine.allAlarms },
      some engine.alarmMap.nextId)

def registerAlarm (engine : Ns3QuicAlarmEngine Alarm) (timeoutUs : Int)
    (ac : Alarm) :
    Except EngineFault (Ns3QuicAlarmEngine Alarm × Option AlarmRegToken) :=
  let timeoutUs := if timeoutUs < engine.nowUs then engine.nowUs else timeoutUs
  let update := engine.headChanges timeoutUs
  let (engine, token) := engine.insertAlarm timeoutUs ac
  do
    let engine ← engine.updateTimerIf update
    pure (engine, token)

/-- The second component is the alarm that `OnUnregistration` is called on. -/
def unregisterAlarm (engine : Ns3QuicAlarmEngine Alarm)
    (token : AlarmRegToken) :
    Except EngineFault (Ns3QuicAlarmEngine Alarm × Alarm) :=
  match engine.alarmMap.find? token with
  | none => .error .staleToken
  | some node =>
      .ok ({ engine with
          alarmMap := engine.alarmMap.erase token
          allAlarms := engine.allAlarms.erase node.value },
        node.value)

/-- The second component is the iterator to the node of the new key. -/
def reregisterAlarm (engine : Ns3QuicAlarmEngine Alarm)
    (token : AlarmRegToken) (timeoutUs : Int) :
    Except EngineFault (Ns3QuicAlarmEngine Alarm × AlarmRegToken) :=
  match engine.alarmMap.find? token with
  | none => .error .staleToken
  | some node =>
      let erased := engine.alarmMap.erase token
      match erased.nodes with
      | [] => .error .emptyAlarmMap
      | first :: _ => do
          let engine :=
            { engine with alarmMap := erased.insert timeoutUs node.value }
          let engine ← engine.updateTimerIf (timeoutUs < first.key)
          if engine.timerIsRunning then
            pure (engine, erased.nextId)
          else
            .error .timerNotRunning

/-- The first loop of `OnTimeout`: the due nodes leave the map, and their
alarms leave `all_alarms_`, before any callback runs. -/
def takeDue (engine : Ns3QuicAlarmEngine Alarm) :
    Ns3QuicAlarmEngine Alarm × List (Node Int Alarm) :=
  let due := engine.alarmMap.upTo engine.nowUs
  ({ engine with
      alarmMap := engine.alarmMap.eraseUpTo engine.nowUs
      allAlarms := due.foldl (fun alarms node => alarms.erase node.value)
        engine.allAlarms },
    due)

/-- The second component lists the alarms that `OnShutdown` is called on. -/
def shutdown (engine : Ns3QuicAlarmEngine Alarm) :
    Ns3QuicAlarmEngine Alarm × List Alarm :=
  let nodes := engine.alarmMap.nodes
  ({ engine with
      alarmMap := engine.alarmMap.clear
      allAlarms := nodes.foldl (fun alarms node => alarms.erase node.value)
        engine.allAlarms },
    nodes.map Node.value)

end Ns3QuicAlarmEngine

end Ns3Quic.Alarm
