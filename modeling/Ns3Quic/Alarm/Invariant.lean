import Ns3Quic.Alarm.Engine
import Ns3Quic.Lib.Fold

/-!
# What the engine operations preserve

`Invariant` relates the alarm map, the set of alarms and the clock, and
`Armed` says that an event is in flight when an alarm is.  `UpdateTimer`
restores `Armed` whenever no deadline has passed.  Each operation has one
lemma which says what it leaves behind.
-/

namespace Ns3Quic.Alarm

open EventQueue OrderedMultimap LoopRules

universe u

namespace Ns3QuicAlarmEngine

section Timer

variable {Alarm : Type u} {engine next : Ns3QuicAlarmEngine Alarm}

/-- Every event in flight is the one `timer_` names, lies ahead, and is due no
later than any alarm. -/
structure TimerSound (engine : Ns3QuicAlarmEngine Alarm) : Prop where
  owned : ∀ event ∈ engine.clock.pending, engine.timer = some event.uid
  ahead : ∀ event ∈ engine.clock.pending, engine.clock.now ≤ event.ts
  inTime : ∀ event ∈ engine.clock.pending, ∀ node ∈ engine.alarmMap.nodes,
    ((event.ts / 1000 : Nat) : Int) ≤ node.key

def Armed (engine : Ns3QuicAlarmEngine Alarm) : Prop :=
  engine.alarmMap.nodes ≠ [] → engine.clock.pending ≠ []

def NotPast (engine : Ns3QuicAlarmEngine Alarm) : Prop :=
  ∀ node ∈ engine.alarmMap.nodes, engine.nowUs ≤ node.key

theorem timerIsRunning_iff
    (owned : ∀ event ∈ engine.clock.pending, engine.timer = some event.uid) :
    engine.timerIsRunning = true ↔ engine.clock.pending ≠ [] := by
  unfold timerIsRunning
  constructor
  · intro running nothing
    cases shape : engine.timer with
    | none => simp [shape] at running
    | some uid => simp [shape, nothing] at running
  · intro something
    obtain ⟨event, membership⟩ := List.exists_mem_of_ne_nil _ something
    simp only [owned event membership, Clock.isPending_iff]
    exact ⟨event, membership, rfl⟩

@[simp]
theorem stopTimer_allAlarms : engine.stopTimer.allAlarms = engine.allAlarms := by
  unfold stopTimer cancelTimer
  split <;> [split; skip] <;> rfl

@[simp]
theorem stopTimer_alarmMap : engine.stopTimer.alarmMap = engine.alarmMap := by
  unfold stopTimer cancelTimer
  split <;> [split; skip] <;> rfl

@[simp]
theorem stopTimer_now : engine.stopTimer.clock.now = engine.clock.now := by
  unfold stopTimer cancelTimer
  split <;> [split; skip] <;> rfl

@[simp]
theorem stopTimer_nowUs : engine.stopTimer.nowUs = engine.nowUs := by
  simp [nowUs]

theorem stopTimer_pending
    (owned : ∀ event ∈ engine.clock.pending, engine.timer = some event.uid) :
    engine.stopTimer.clock.pending = [] := by
  by_cases running : engine.timerIsRunning = true
  · simp only [stopTimer, running, if_true, cancelTimer]
    cases shape : engine.timer with
    | none => simp [timerIsRunning, shape] at running
    | some uid =>
        apply List.eq_nil_iff_forall_not_mem.mpr
        intro event membership
        have kept := (engine.clock.mem_remove_iff uid event).mp membership
        have named := owned event kept.1
        rw [shape] at named
        exact kept.2 (Option.some.inj named).symm
  · simp only [stopTimer, running, Bool.false_eq_true, if_false]
    by_contra something
    exact running ((timerIsRunning_iff owned).mpr something)

theorem updateTimer_eq_ok
    (owned : ∀ event ∈ engine.clock.pending, engine.timer = some event.uid)
    (result : engine.updateTimer = .ok next) :
    next.allAlarms = engine.allAlarms ∧ next.alarmMap = engine.alarmMap ∧
      next.clock.now = engine.clock.now ∧ engine.NotPast ∧
      next.TimerSound ∧ next.Armed := by
  have stopped := stopTimer_pending owned
  unfold updateTimer at result
  cases shape : engine.alarmMap.nodes with
  | nil =>
      simp only [stopTimer_alarmMap, shape, Except.ok.injEq] at result
      subst result
      refine ⟨by simp, by simp, by simp, ?_, ⟨?_, ?_, ?_⟩, ?_⟩
      · simp [NotPast, shape]
      · simp [stopped]
      · simp [stopped]
      · simp [stopped]
      · simp [Armed, shape]
  | cons first rest =>
      simp only [stopTimer_alarmMap, shape] at result
      split at result
      next past => simp at result
      next notPast =>
        simp only [Except.ok.injEq] at result
        subst result
        have firstAhead : engine.nowUs ≤ first.key := by simpa using notPast
        have least : ∀ node ∈ engine.alarmMap.nodes, first.key ≤ node.key :=
          fun node membership => engine.alarmMap.key_le_of_head shape membership
        -- the delay is a whole number of microseconds, so the expiry falls
        -- into the microsecond of the first key
        have expiry : (((engine.clock.now +
            (first.key - engine.nowUs).toNat * 1000) / 1000 : Nat) : Int) =
            first.key := by
          unfold nowUs at firstAhead ⊢
          omega
        refine ⟨by simp [scheduleTimer], by simp [scheduleTimer],
          by simp [scheduleTimer, Clock.schedule], ?_, ⟨?_, ?_, ?_⟩, ?_⟩
        · exact fun node membership => firstAhead.trans (least node membership)
        · simp [scheduleTimer, Clock.schedule, stopped]
        · simp [scheduleTimer, Clock.schedule, stopped]
        · intro event membership node nodeMember
          simp only [scheduleTimer, Clock.schedule, stopped, stopTimer_now,
            stopTimer_nowUs, List.mem_singleton] at membership
          subst membership
          rw [expiry]
          exact least node (by simpa [scheduleTimer] using nodeMember)
        · simp [Armed, scheduleTimer, Clock.schedule]

theorem updateTimer_isOk (notPast : engine.NotPast) :
    ∃ next, engine.updateTimer = .ok next := by
  unfold updateTimer
  cases shape : engine.alarmMap.nodes with
  | nil => exact ⟨engine.stopTimer, by simp [shape]⟩
  | cons first rest =>
      have firstAhead := notPast first (by simp [shape])
      exact ⟨_, by simp [shape, not_lt.mpr firstAhead]; rfl⟩

end Timer

section Operations

variable {Alarm : Type u} {engine next : Ns3QuicAlarmEngine Alarm}

/-- `all_alarms_` is the set of the alarms in the map, each of which has one
node there. -/
structure Indexed (engine : Ns3QuicAlarmEngine Alarm) : Prop where
  distinct : (engine.alarmMap.nodes.map Node.value).Nodup
  allAlarms : ∀ alarm, alarm ∈ engine.allAlarms ↔
    ∃ node ∈ engine.alarmMap.nodes, node.value = alarm

theorem Indexed.congr (indexed : engine.Indexed)
    (sameAlarms : next.allAlarms = engine.allAlarms)
    (sameMap : next.alarmMap = engine.alarmMap) : next.Indexed := by
  constructor
  · rw [sameMap]
    exact indexed.distinct
  · rw [sameMap, sameAlarms]
    exact indexed.allAlarms

theorem NotPast.congr (notPast : engine.NotPast)
    (sameMap : next.alarmMap = engine.alarmMap)
    (sameTime : next.clock.now = engine.clock.now) : next.NotPast := by
  unfold NotPast nowUs at *
  rw [sameMap, sameTime]
  exact notPast

structure Invariant (engine : Ns3QuicAlarmEngine Alarm) : Prop where
  indexed : engine.Indexed
  notPast : engine.NotPast
  timer : engine.TimerSound

theorem invariant_create (now : Nat) :
    (create now : Ns3QuicAlarmEngine Alarm).Invariant := by
  refine ⟨⟨?_, ?_⟩, ?_, ⟨?_, ?_, ?_⟩⟩ <;> simp [create, NotPast]

theorem Invariant.advance (inv : engine.Invariant) (armed : engine.Armed) {delay : Nat}
    (allowed : engine.clock.MayAdvance delay) :
    { engine with clock := engine.clock.advance delay }.Invariant := by
  refine ⟨inv.indexed.congr rfl rfl, ?_, ⟨inv.timer.owned, allowed, inv.timer.inTime⟩⟩
  intro node membership
  obtain ⟨event, pending⟩ :=
    List.exists_mem_of_ne_nil _ (armed (List.ne_nil_of_mem membership))
  have notPassed := allowed event pending
  have inTime := inv.timer.inTime event pending node membership
  simp only [nowUs, Clock.advance]
  omega

theorem Invariant.removeEvent (inv : engine.Invariant) (uid : Nat) :
    { engine with clock := engine.clock.remove uid }.Invariant :=
  ⟨inv.indexed.congr rfl rfl, inv.notPast.congr rfl rfl,
    fun other pending => inv.timer.owned other ((Clock.mem_remove_iff _ _ _).mp pending).1,
    fun other pending => inv.timer.ahead other ((Clock.mem_remove_iff _ _ _).mp pending).1,
    fun other pending => inv.timer.inTime other ((Clock.mem_remove_iff _ _ _).mp pending).1⟩

/-- `UpdateTimer` restores the invariant from a state whose timer is merely
known to be the engine's own. -/
theorem Indexed.updateTimer (indexed : engine.Indexed) (notPast : engine.NotPast)
    (owned : ∀ event ∈ engine.clock.pending, engine.timer = some event.uid) :
    ∃ next, engine.updateTimer = .ok next ∧ next.alarmMap = engine.alarmMap ∧
      next.clock.now = engine.clock.now ∧ next.Invariant ∧ next.Armed := by
  obtain ⟨next, result⟩ := updateTimer_isOk notPast
  obtain ⟨sameAlarms, sameMap, sameTime, _, sound, armed⟩ :=
    updateTimer_eq_ok owned result
  exact ⟨next, result, sameMap, sameTime,
    ⟨indexed.congr sameAlarms sameMap, notPast.congr sameMap sameTime, sound⟩, armed⟩

/-- The conditional form: without an update the timer has to be sound
already. -/
theorem Indexed.updateTimerIf (indexed : engine.Indexed) (notPast : engine.NotPast)
    (owned : ∀ event ∈ engine.clock.pending, engine.timer = some event.uid)
    (update : Bool) (otherwise : update = false → engine.TimerSound) :
    ∃ next, engine.updateTimerIf update = .ok next ∧
      next.alarmMap = engine.alarmMap ∧ next.clock.now = engine.clock.now ∧
      next.Invariant ∧ next.Armed := by
  unfold Ns3QuicAlarmEngine.updateTimerIf
  split
  next _ => exact indexed.updateTimer notPast owned
  next kept =>
    simp only [Bool.or_eq_true, Bool.not_eq_true', not_or, Bool.not_eq_false,
      Bool.not_eq_true] at kept
    exact ⟨engine, rfl, rfl, rfl, ⟨indexed, notPast, otherwise kept.2⟩,
      fun _ => (timerIsRunning_iff owned).mp kept.1⟩

theorem TimerSound.of_head_kept (sound : engine.TimerSound) {timeoutUs : Int}
    (kept : engine.headChanges timeoutUs = false)
    (sameClock : next.clock = engine.clock) (sameTimer : next.timer = engine.timer)
    (keys : ∀ node ∈ next.alarmMap.nodes,
      node ∈ engine.alarmMap.nodes ∨ node.key = timeoutUs) : next.TimerSound := by
  constructor
  · rw [sameClock, sameTimer]
    exact sound.owned
  · rw [sameClock]
    exact sound.ahead
  · rw [sameClock]
    intro event membership node nodeMember
    rcases keys node nodeMember with old | isNew
    · exact sound.inTime event membership node old
    · cases shape : engine.alarmMap.nodes with
      | nil => simp [headChanges, shape] at kept
      | cons first rest =>
          have behind : first.key ≤ timeoutUs := by
            simpa [headChanges, shape] using kept
          rw [isNew]
          exact (sound.inTime event membership first (by simp [shape])).trans behind

variable [DecidableEq Alarm]

theorem Indexed.insert (indexed : engine.Indexed) (timeoutUs : Int) (ac : Alarm)
    (absent : ac ∉ engine.allAlarms) :
    ({ engine with
      alarmMap := engine.alarmMap.insert timeoutUs ac
      allAlarms := insert ac engine.allAlarms } : Ns3QuicAlarmEngine Alarm).Indexed := by
  constructor
  · rw [((engine.alarmMap.insert_perm timeoutUs ac).map Node.value).nodup_iff]
    simp only [List.map_cons, List.nodup_cons]
    refine ⟨?_, indexed.distinct⟩
    intro clash
    rcases List.mem_map.mp clash with ⟨node, membership, equality⟩
    exact absent ((indexed.allAlarms ac).mpr ⟨node, membership, equality⟩)
  · intro alarm
    rw [Finset.mem_insert, indexed.allAlarms]
    constructor
    · rintro (equality | ⟨node, membership, equality⟩)
      · exact ⟨_, (Multimap.mem_insert_iff _ _ _ _).mpr (Or.inl rfl), equality.symm⟩
      · exact ⟨node, (Multimap.mem_insert_iff _ _ _ _).mpr (Or.inr membership), equality⟩
    · rintro ⟨node, membership, equality⟩
      rcases (Multimap.mem_insert_iff _ _ _ _).mp membership with isNew | old
      · subst isNew
        exact Or.inl equality.symm
      · exact Or.inr ⟨node, old, equality⟩

theorem insertAlarm_spec (engine : Ns3QuicAlarmEngine Alarm) (indexed : engine.Indexed)
    (timeoutUs : Int) (ac : Alarm) :
    ∃ middle token, engine.insertAlarm timeoutUs ac = (middle, token) ∧
      middle.Indexed ∧ middle.clock = engine.clock ∧ middle.timer = engine.timer ∧
      (ac ∈ engine.allAlarms ∧ token = none ∧ middle.alarmMap = engine.alarmMap ∨
        ac ∉ engine.allAlarms ∧ token = some engine.alarmMap.nextId ∧
          middle.alarmMap = engine.alarmMap.insert timeoutUs ac) := by
  by_cases present : ac ∈ engine.allAlarms
  · exact ⟨engine, none, by simp [insertAlarm, present], indexed, rfl, rfl,
      Or.inl ⟨present, rfl, rfl⟩⟩
  · exact ⟨_, _, by simp [insertAlarm, present],
      indexed.insert timeoutUs ac present, rfl, rfl, Or.inr ⟨present, rfl, rfl⟩⟩

/-- `RegisterAlarm` never fails: it leaves the map alone if the alarm is
registered already and adds a node at the later of the requested time and now
otherwise.  An event is in flight afterwards. -/
theorem Invariant.registerAlarm (inv : engine.Invariant) (timeoutUs : Int)
    (ac : Alarm) :
    ∃ next token, engine.registerAlarm timeoutUs ac = .ok (next, token) ∧
      next.Invariant ∧ next.Armed ∧ next.clock.now = engine.clock.now ∧
      (ac ∈ engine.allAlarms ∧ token = none ∧ next.alarmMap = engine.alarmMap ∨
        ac ∉ engine.allAlarms ∧ token = some engine.alarmMap.nextId ∧
          next.alarmMap =
            engine.alarmMap.insert (max timeoutUs engine.nowUs) ac) := by
  have clamped : (if timeoutUs < engine.nowUs then engine.nowUs else timeoutUs) =
      max timeoutUs engine.nowUs := by
    split <;> omega
  generalize keyEq : max timeoutUs engine.nowUs = key at *
  have keyAhead : engine.nowUs ≤ key := by omega
  obtain ⟨middle, token, inserted, indexed, sameClock, sameTimer, outcome⟩ :=
    engine.insertAlarm_spec inv.indexed key ac
  have keys : ∀ node ∈ middle.alarmMap.nodes,
      node ∈ engine.alarmMap.nodes ∨ node.key = key := by
    intro node membership
    rcases outcome with ⟨_, _, sameMap⟩ | ⟨_, _, newMap⟩
    · exact Or.inl (sameMap ▸ membership)
    · rw [newMap] at membership
      rcases (Multimap.mem_insert_iff _ _ _ _).mp membership with isNew | old
      · exact Or.inr (by rw [isNew])
      · exact Or.inl old
  have notPast : middle.NotPast := by
    intro node membership
    have sameNow : middle.nowUs = engine.nowUs := by simp [nowUs, sameClock]
    rw [sameNow]
    rcases keys node membership with old | isNew
    · exact inv.notPast node old
    · rw [isNew]
      exact keyAhead
  obtain ⟨next, result, sameMap, sameTime, nextInv, armed⟩ :=
    indexed.updateTimerIf notPast
      (by rw [sameClock, sameTimer]; exact inv.timer.owned) (engine.headChanges key)
      (fun kept => inv.timer.of_head_kept kept sameClock sameTimer keys)
  refine ⟨next, token, ?_, nextInv, armed, by rw [sameTime, sameClock], ?_⟩
  · simp [Ns3QuicAlarmEngine.registerAlarm, clamped, inserted, result]
  · rw [sameMap]
    exact outcome

theorem Indexed.erase (indexed : engine.Indexed) {node : Node Int Alarm}
    (live : node ∈ engine.alarmMap.nodes) :
    ({ engine with
      alarmMap := engine.alarmMap.erase node.id
      allAlarms := engine.allAlarms.erase node.value } : Ns3QuicAlarmEngine Alarm).Indexed := by
  constructor
  · exact indexed.distinct.sublist (List.filter_sublist.map _)
  · intro alarm
    simp only [Finset.mem_erase, indexed.allAlarms, Multimap.mem_erase_iff]
    constructor
    · rintro ⟨different, other, membership, equality⟩
      refine ⟨other, ⟨membership, ?_⟩, equality⟩
      intro sameId
      rw [engine.alarmMap.eq_of_id_eq membership live sameId] at equality
      exact different equality.symm
    · rintro ⟨other, ⟨membership, differentId⟩, equality⟩
      refine ⟨?_, other, membership, equality⟩
      intro sameAlarm
      have sameNode := List.inj_on_of_nodup_map indexed.distinct membership live
        (equality.trans sameAlarm)
      exact differentId (by rw [sameNode])

/-- `UnregisterAlarm` takes the node of a live token out and leaves the timer
running. -/
theorem Invariant.unregisterAlarm (inv : engine.Invariant)
    {node : Node Int Alarm} (live : node ∈ engine.alarmMap.nodes) :
    ∃ next, engine.unregisterAlarm node.id = .ok (next, node.value) ∧
      next.Invariant ∧ (engine.Armed → next.Armed) ∧ next.clock = engine.clock ∧
      next.alarmMap = engine.alarmMap.erase node.id := by
  have found := (engine.alarmMap.find?_eq_some_iff node.id node).mpr ⟨live, rfl⟩
  refine ⟨_, by simp [Ns3QuicAlarmEngine.unregisterAlarm, found],
    ⟨inv.indexed.erase live, ?_, ⟨inv.timer.owned, inv.timer.ahead, ?_⟩⟩, ?_, rfl, rfl⟩
  · intro other membership
    exact inv.notPast other ((engine.alarmMap.mem_erase_iff _ _).mp membership).1
  · intro event present other membership
    exact inv.timer.inTime event present other
      ((engine.alarmMap.mem_erase_iff _ _).mp membership).1
  · intro armed someLeft
    apply armed
    intro nothing
    simp [nothing] at live

theorem Indexed.move (indexed : engine.Indexed) {node : Node Int Alarm}
    (live : node ∈ engine.alarmMap.nodes) (timeoutUs : Int) :
    ({ engine with
      alarmMap := (engine.alarmMap.erase node.id).insert timeoutUs node.value } :
        Ns3QuicAlarmEngine Alarm).Indexed := by
  have erased := indexed.erase live
  have inserted := erased.insert timeoutUs node.value (by simp)
  have restored : Insert.insert node.value (engine.allAlarms.erase node.value) =
      engine.allAlarms :=
    Finset.insert_erase ((indexed.allAlarms node.value).mpr ⟨node, live, rfl⟩)
  exact inserted.congr restored.symm rfl

/-- `ReregisterAlarm` on a live token, with another alarm in the map and a
timeout that has not passed, moves the alarm to its new key. -/
theorem Invariant.reregisterAlarm (inv : engine.Invariant)
    {node other : Node Int Alarm} (live : node ∈ engine.alarmMap.nodes)
    (another : other ∈ engine.alarmMap.nodes) (different : other.id ≠ node.id)
    {timeoutUs : Int} (timeoutAhead : engine.nowUs ≤ timeoutUs) :
    ∃ next, engine.reregisterAlarm node.id timeoutUs =
        .ok (next, engine.alarmMap.nextId) ∧
      next.Invariant ∧ next.Armed ∧ next.clock.now = engine.clock.now ∧
      next.alarmMap =
        (engine.alarmMap.erase node.id).insert timeoutUs node.value := by
  obtain ⟨first, rest, shape⟩ : ∃ first rest,
      (engine.alarmMap.erase node.id).nodes = first :: rest := by
    apply List.exists_cons_of_ne_nil
    exact List.ne_nil_of_mem ((engine.alarmMap.mem_erase_iff _ _).mpr ⟨another, different⟩)
  have found := (engine.alarmMap.find?_eq_some_iff node.id node).mpr ⟨live, rfl⟩
  generalize movedEq : ({ engine with
      alarmMap := (engine.alarmMap.erase node.id).insert timeoutUs node.value } :
        Ns3QuicAlarmEngine Alarm) = moved
  have movedMap : moved.alarmMap =
      (engine.alarmMap.erase node.id).insert timeoutUs node.value := by
    rw [← movedEq]
  have sameClock : moved.clock = engine.clock := by rw [← movedEq]
  have sameTimer : moved.timer = engine.timer := by rw [← movedEq]
  have indexed : moved.Indexed := movedEq ▸ inv.indexed.move live timeoutUs
  have keys : ∀ entry ∈ moved.alarmMap.nodes,
      entry ∈ engine.alarmMap.nodes ∨ entry.key = timeoutUs := by
    intro entry membership
    rw [movedMap] at membership
    rcases (Multimap.mem_insert_iff _ _ _ _).mp membership with isNew | kept
    · exact Or.inr (by rw [isNew])
    · exact Or.inl ((engine.alarmMap.mem_erase_iff _ _).mp kept).1
  have notPast : moved.NotPast := by
    intro entry membership
    have sameNow : moved.nowUs = engine.nowUs := by simp [nowUs, sameClock]
    rw [sameNow]
    rcases keys entry membership with old | isNew
    · exact inv.notPast entry old
    · exact isNew ▸ timeoutAhead
  have owned : ∀ event ∈ moved.clock.pending, moved.timer = some event.uid := by
    rw [sameClock, sameTimer]
    exact inv.timer.owned
  have firstOld : first ∈ engine.alarmMap.nodes :=
    ((engine.alarmMap.mem_erase_iff node.id first).mp (by simp [shape])).1
  obtain ⟨next, result, sameMap, sameTime, nextInv, armed⟩ :=
    indexed.updateTimerIf notPast owned (decide (timeoutUs < first.key)) (by
        intro behind
        refine ⟨owned, by rw [sameClock]; exact inv.timer.ahead, ?_⟩
        rw [sameClock]
        intro event present entry membership
        rcases keys entry membership with old | isNew
        · exact inv.timer.inTime event present entry old
        · rw [isNew]
          exact (inv.timer.inTime event present first firstOld).trans
            (by simpa using behind))
  have running : next.timerIsRunning = true := by
    apply (timerIsRunning_iff nextInv.timer.owned).mpr
    apply armed
    rw [sameMap, movedMap]
    exact List.ne_nil_of_mem ((Multimap.mem_insert_iff _ _ _ _).mpr (Or.inl rfl))
  refine ⟨next, ?_, nextInv, armed, by rw [sameTime, sameClock], by rw [sameMap, movedMap]⟩
  simp only [Ns3QuicAlarmEngine.reregisterAlarm, found, shape, movedEq, result]
  simp [running]

theorem unregisterAlarm_stale (engine : Ns3QuicAlarmEngine Alarm)
    {token : AlarmRegToken} (stale : ∀ node ∈ engine.alarmMap.nodes, node.id ≠ token) :
    engine.unregisterAlarm token = .error .staleToken := by
  simp [Ns3QuicAlarmEngine.unregisterAlarm,
    (engine.alarmMap.find?_eq_none_iff token).mpr stale]

omit [DecidableEq Alarm] in
theorem reregisterAlarm_stale (engine : Ns3QuicAlarmEngine Alarm)
    {token : AlarmRegToken} (stale : ∀ node ∈ engine.alarmMap.nodes, node.id ≠ token)
    (timeoutUs : Int) :
    engine.reregisterAlarm token timeoutUs = .error .staleToken := by
  simp [Ns3QuicAlarmEngine.reregisterAlarm,
    (engine.alarmMap.find?_eq_none_iff token).mpr stale]

omit [DecidableEq Alarm] in
theorem reregisterAlarm_alone {node : Node Int Alarm} (live : node ∈ engine.alarmMap.nodes)
    (alone : ∀ other ∈ engine.alarmMap.nodes, other.id = node.id) (timeoutUs : Int) :
    engine.reregisterAlarm node.id timeoutUs = .error .emptyAlarmMap := by
  have found := (engine.alarmMap.find?_eq_some_iff node.id node).mpr ⟨live, rfl⟩
  have nothing : (engine.alarmMap.erase node.id).nodes = [] := by
    refine List.eq_nil_iff_forall_not_mem.mpr fun other membership => ?_
    obtain ⟨present, different⟩ := (engine.alarmMap.mem_erase_iff _ _).mp membership
    exact different (alone other present)
  simp [Ns3QuicAlarmEngine.reregisterAlarm, found, nothing]

omit [DecidableEq Alarm] in
/-- A timeout that has passed becomes the first key, and `UpdateTimer` sees
it. -/
theorem Invariant.reregisterAlarm_past (inv : engine.Invariant)
    {node other : Node Int Alarm} (live : node ∈ engine.alarmMap.nodes)
    (another : other ∈ engine.alarmMap.nodes) (different : other.id ≠ node.id)
    {timeoutUs : Int} (past : timeoutUs < engine.nowUs) :
    engine.reregisterAlarm node.id timeoutUs = .error .pastTimeout := by
  have found := (engine.alarmMap.find?_eq_some_iff node.id node).mpr ⟨live, rfl⟩
  obtain ⟨first, rest, shape⟩ := List.exists_cons_of_ne_nil
    (List.ne_nil_of_mem ((engine.alarmMap.mem_erase_iff _ _).mpr ⟨another, different⟩))
  have firstOld : first ∈ engine.alarmMap.nodes :=
    ((engine.alarmMap.mem_erase_iff node.id first).mp (by simp [shape])).1
  have ahead := inv.notPast first firstOld
  have inserted := ((engine.alarmMap.erase node.id).mem_insert_iff timeoutUs node.value _).mpr
    (Or.inl rfl)
  obtain ⟨head, tail, newShape⟩ := List.exists_cons_of_ne_nil (List.ne_nil_of_mem inserted)
  have headPast : head.key < engine.nowUs :=
    (Multimap.key_le_of_head _ newShape inserted).trans_lt past
  have update : timeoutUs < first.key := past.trans_le ahead
  have failed : updateTimer { engine with
      alarmMap := (engine.alarmMap.erase node.id).insert timeoutUs node.value } =
        .error .pastTimeout := by
    unfold updateTimer
    simp only [stopTimer_alarmMap, stopTimer_nowUs, newShape]
    exact if_pos headPast
  simp [Ns3QuicAlarmEngine.reregisterAlarm, found, shape, updateTimerIf, update, failed]

omit [DecidableEq Alarm] in
theorem updateTimerIf_allAlarms {update : Bool}
    (result : engine.updateTimerIf update = .ok next) : next.allAlarms = engine.allAlarms := by
  unfold Ns3QuicAlarmEngine.updateTimerIf Ns3QuicAlarmEngine.updateTimer at result
  split at result
  next =>
    dsimp only at result
    split at result
    next => rw [← Except.ok.inj result, stopTimer_allAlarms]
    next =>
      split at result
      next => cases result
      next =>
        rw [← Except.ok.inj result]
        exact stopTimer_allAlarms
  next => rw [← Except.ok.inj result]

omit [DecidableEq Alarm] in
theorem reregisterAlarm_allAlarms {token newToken : AlarmRegToken} {timeoutUs : Int}
    (result : engine.reregisterAlarm token timeoutUs = .ok (next, newToken)) :
    next.allAlarms = engine.allAlarms := by
  unfold Ns3QuicAlarmEngine.reregisterAlarm at result
  split at result
  next => cases result
  next =>
    dsimp only at result
    split at result
    next => cases result
    next =>
      obtain ⟨updated, performed, checked⟩ := bind_eq_ok.mp result
      split at checked
      next =>
        obtain ⟨rfl, _⟩ := Prod.mk.inj (Except.ok.inj checked)
        exact (updateTimerIf_allAlarms performed :)
      next => cases checked

theorem Invariant.reregisterAlarm_cases (inv : engine.Invariant) (token : AlarmRegToken)
    (timeoutUs : Int) :
    (engine.reregisterAlarm token timeoutUs = .error .staleToken ∧
      ∀ node ∈ engine.alarmMap.nodes, node.id ≠ token) ∨
    ∃ node ∈ engine.alarmMap.nodes, node.id = token ∧
      ((engine.reregisterAlarm token timeoutUs = .error .emptyAlarmMap ∧
          ∀ other ∈ engine.alarmMap.nodes, other.id = token) ∨
        (∃ other ∈ engine.alarmMap.nodes, other.id ≠ token) ∧
          (engine.reregisterAlarm token timeoutUs = .error .pastTimeout ∧
              timeoutUs < engine.nowUs ∨
            (∃ next, engine.reregisterAlarm token timeoutUs =
              .ok (next, engine.alarmMap.nextId)) ∧ engine.nowUs ≤ timeoutUs)) := by
  by_cases live : ∃ node ∈ engine.alarmMap.nodes, node.id = token
  · obtain ⟨node, present, rfl⟩ := live
    refine Or.inr ⟨node, present, rfl, ?_⟩
    by_cases another : ∃ other ∈ engine.alarmMap.nodes, other.id ≠ node.id
    · refine Or.inr ⟨another, ?_⟩
      obtain ⟨other, otherPresent, different⟩ := another
      rcases lt_or_ge timeoutUs engine.nowUs with past | ahead
      · exact Or.inl ⟨inv.reregisterAlarm_past present otherPresent different past, past⟩
      · obtain ⟨next, result, _⟩ := inv.reregisterAlarm present otherPresent different ahead
        exact Or.inr ⟨⟨next, result⟩, ahead⟩
    · simp only [not_exists, not_and, ne_eq, Decidable.not_not] at another
      exact Or.inl ⟨reregisterAlarm_alone present another timeoutUs, another⟩
  · simp only [not_exists, not_and] at live
    exact Or.inl ⟨reregisterAlarm_stale engine live timeoutUs, live⟩

theorem Invariant.reregisterAlarm_ne_stale (inv : engine.Invariant) {node : Node Int Alarm}
    (live : node ∈ engine.alarmMap.nodes) (timeoutUs : Int) :
    engine.reregisterAlarm node.id timeoutUs ≠ .error .staleToken := by
  intro stale
  rcases inv.reregisterAlarm_cases node.id timeoutUs with ⟨_, dangling⟩ |
    ⟨_, _, _, ⟨failed, _⟩ | ⟨_, ⟨failed, _⟩ | ⟨⟨_, performed⟩, _⟩⟩⟩
  · exact dangling node live rfl
  · simp [failed] at stale
  · simp [failed] at stale
  · simp [performed] at stale

/-- A call of `ReregisterAlarm` that passes its assertions meets the
conditions of `Invariant.reregisterAlarm`. -/
theorem Invariant.of_reregisterAlarm (inv : engine.Invariant)
    {token newToken : AlarmRegToken} {timeoutUs : Int}
    (result : engine.reregisterAlarm token timeoutUs = .ok (next, newToken)) :
    ∃ node ∈ engine.alarmMap.nodes, node.id = token ∧
      (∃ other ∈ engine.alarmMap.nodes, other.id ≠ node.id) ∧
      engine.nowUs ≤ timeoutUs := by
  rcases inv.reregisterAlarm_cases token timeoutUs with ⟨failed, _⟩ |
    ⟨node, live, rfl, ⟨failed, _⟩ | ⟨another, ⟨failed, _⟩ | ⟨_, ahead⟩⟩⟩
  · simp [failed] at result
  · simp [failed] at result
  · simp [failed] at result
  · exact ⟨node, live, rfl, another, ahead⟩

theorem mem_foldl_erase_iff (due : List (Node Int Alarm)) (alarms : Finset Alarm)
    (alarm : Alarm) :
    alarm ∈ due.foldl (fun alarms node => alarms.erase node.value) alarms ↔
      alarm ∈ alarms ∧ ∀ node ∈ due, node.value ≠ alarm := by
  induction due generalizing alarms with
  | nil => simp
  | cons head tail inductionHypothesis =>
      simp only [List.foldl_cons, inductionHypothesis, Finset.mem_erase,
        List.mem_cons, forall_eq_or_imp]
      constructor
      · rintro ⟨⟨different, present⟩, others⟩
        exact ⟨present, Ne.symm different, others⟩
      · rintro ⟨present, different, others⟩
        exact ⟨⟨Ne.symm different, present⟩, others⟩

theorem Invariant.takeDue (inv : engine.Invariant) :
    engine.takeDue.1.Invariant ∧ engine.takeDue.1.clock = engine.clock ∧
      engine.takeDue.2 ++ engine.takeDue.1.alarmMap.nodes = engine.alarmMap.nodes ∧
      engine.takeDue.1.alarmMap.nextId = engine.alarmMap.nextId ∧
      ∀ node ∈ engine.takeDue.2, node.key = engine.nowUs := by
  have split := engine.alarmMap.upTo_append_eraseUpTo engine.nowUs
  have kept : ∀ node ∈ (engine.alarmMap.eraseUpTo engine.nowUs).nodes,
      node ∈ engine.alarmMap.nodes := by
    intro node membership
    rw [← split]
    exact List.mem_append_right _ membership
  have taken : ∀ node ∈ engine.alarmMap.upTo engine.nowUs,
      node ∈ engine.alarmMap.nodes := by
    intro node membership
    rw [← split]
    exact List.mem_append_left _ membership
  have distinct := inv.indexed.distinct
  rw [← split, List.map_append, List.nodup_append] at distinct
  refine ⟨⟨⟨distinct.2.1, ?_⟩, fun node membership => inv.notPast node (kept node membership),
    ⟨inv.timer.owned, inv.timer.ahead, fun event present node membership =>
      inv.timer.inTime event present node (kept node membership)⟩⟩, rfl, split, rfl, ?_⟩
  · intro alarm
    simp only [Ns3QuicAlarmEngine.takeDue, mem_foldl_erase_iff, inv.indexed.allAlarms]
    constructor
    · rintro ⟨⟨node, membership, equality⟩, notDue⟩
      rw [← split] at membership
      rcases List.mem_append.mp membership with due | later
      · exact absurd equality (notDue node due)
      · exact ⟨node, later, equality⟩
    · rintro ⟨node, membership, equality⟩
      refine ⟨⟨node, kept node membership, equality⟩, ?_⟩
      intro other due sameAlarm
      exact distinct.2.2 _ (List.mem_map_of_mem due) _ (List.mem_map_of_mem membership)
        (sameAlarm.trans equality.symm)
  · intro node membership
    exact le_antisymm (engine.alarmMap.key_le_of_mem_upTo membership)
      (inv.notPast node (taken node membership))

theorem Invariant.shutdown_allAlarms (inv : engine.Invariant) :
    engine.shutdown.1.allAlarms = ∅ := by
  ext alarm
  simp only [Ns3QuicAlarmEngine.shutdown, mem_foldl_erase_iff, inv.indexed.allAlarms,
    Finset.notMem_empty, iff_false]
  rintro ⟨⟨node, membership, equality⟩, erased⟩
  exact erased node membership equality

theorem Invariant.shutdown (inv : engine.Invariant) :
    engine.shutdown.1.Invariant ∧ engine.shutdown.1.Armed := by
  have noNodes : engine.shutdown.1.alarmMap.nodes = [] := by
    simp [Ns3QuicAlarmEngine.shutdown]
  refine ⟨⟨⟨by simp [noNodes], ?_⟩, by simp [NotPast, noNodes],
    ⟨inv.timer.owned, inv.timer.ahead, by simp [noNodes]⟩⟩, by simp [Armed, noNodes]⟩
  simp [noNodes, inv.shutdown_allAlarms]

end Operations

end Ns3QuicAlarmEngine

end Ns3Quic.Alarm
