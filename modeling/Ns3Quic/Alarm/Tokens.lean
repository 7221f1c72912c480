import Ns3Quic.Alarm.World

/-!
# What alarms know about their entries

An alarm that believes to be registered has one entry, and its token
designates that entry.  The entry is not always in the map: `OnTimeout` takes
all due entries out before it calls the first alarm, and the alarms it has not
called yet still believe to be registered.  Their tokens are dangling, so an
alarm whose callback cancels, moves or destroys one of them hands the engine
a dangling iterator.
-/

namespace Ns3Quic.Alarm

open EventQueue OrderedMultimap TransitionSystem

namespace World

variable {Alarm : Type}

/-- The nodes that alarms may hold tokens of: those `OnTimeout` has still to
call, and those of the map. -/
def entries (world : World Alarm) : List (Node Int Alarm) :=
  world.machine.waiting ++ world.machine.engine.alarmMap.nodes

def Absent (world : World Alarm) (alarm : Alarm) : Prop :=
  ∀ node ∈ world.entries, node.value ≠ alarm

def Books (world : World Alarm) (alarm : Alarm) (node : Node Int Alarm) : Prop :=
  ∀ other, other ∈ world.entries ∧ other.value = alarm ↔ other = node

/-- `OnTimeout` has taken the entry of `alarm` out of the map and has not
called the alarm yet. -/
def Waits (world : World Alarm) (alarm : Alarm) : Prop :=
  ∃ node ∈ world.machine.waiting, node.value = alarm

instance [DecidableEq Alarm] (world : World Alarm) (alarm : Alarm) :
    Decidable (world.Waits alarm) :=
  inferInstanceAs (Decidable (∃ node ∈ world.machine.waiting, node.value = alarm))

/-- An alarm object and the engine agree about the entries of the alarm. -/
inductive Agrees (world : World Alarm) (alarm : Alarm) : Prop where
  | gone : world.alarms alarm = none → world.Absent alarm → Agrees world alarm
  | idle {state : Ns3Alarm} : world.alarms alarm = some state →
      state.registered = false → world.Absent alarm → Agrees world alarm
  | armed {state : Ns3Alarm} (node : Node Int Alarm) : world.alarms alarm = some state →
      state.registered = true → state.IsSet → state.hasEngine = true →
      state.token = some node.id → world.Books alarm node → Agrees world alarm

structure Invariant (world : World Alarm) : Prop where
  machine : world.machine.Invariant
  agrees : ∀ alarm, world.Agrees alarm

theorem invariant_create (now : Nat) : (create now : World Alarm).Invariant where
  machine := Machine.invariant_create now
  agrees := fun alarm => .gone rfl (by
    simp [Absent, entries, create, Machine.create, Machine.waiting,
      Ns3QuicAlarmEngine.create])

variable {world next : World Alarm} {alarm : Alarm}

theorem Books.mem {node : Node Int Alarm} (books : world.Books alarm node) :
    node ∈ world.entries ∧ node.value = alarm :=
  (books node).mpr rfl

theorem Agrees.congr (agrees : world.Agrees alarm)
    (sameState : next.alarms alarm = world.alarms alarm)
    (sameEntries : ∀ node, node.value = alarm →
      (node ∈ next.entries ↔ node ∈ world.entries)) : next.Agrees alarm := by
  have absent : world.Absent alarm → next.Absent alarm := fun absent node present same =>
    absent node ((sameEntries node same).mp present) same
  cases agrees with
  | gone noState none => exact .gone (sameState.trans noState) (absent none)
  | idle hasState unregistered none =>
      exact .idle (sameState.trans hasState) unregistered (absent none)
  | armed node hasState registered isSet hasEngine token books =>
      refine .armed node (sameState.trans hasState) registered isSet hasEngine token ?_
      intro other
      rw [← books other]
      exact and_congr_left (sameEntries other)

theorem Invariant.alter (inv : world.Invariant) (machine : next.machine.Invariant)
    (alarm : Alarm) (others : ∀ other, other ≠ alarm → next.alarms other = world.alarms other)
    (entries : ∀ node, node.value ≠ alarm → (node ∈ next.entries ↔ node ∈ world.entries))
    (own : next.Agrees alarm) : next.Invariant where
  machine := machine
  agrees := by
    intro other
    by_cases same : other = alarm
    · exact same ▸ own
    · exact (inv.agrees other).congr (others other same)
        (fun node value => entries node (by rw [value]; exact same))

theorem Invariant.keep (inv : world.Invariant) (machine : next.machine.Invariant)
    (alarms : next.alarms = world.alarms)
    (entries : ∀ node, node ∈ next.entries ↔ node ∈ world.entries) : next.Invariant where
  machine := machine
  agrees := fun other =>
    (inv.agrees other).congr (by rw [alarms]) (fun node _ => entries node)

theorem Invariant.not_mem_waiting (inv : world.Invariant) {node other : Node Int Alarm}
    (inMap : node ∈ world.machine.engine.alarmMap.nodes)
    (waits : other ∈ world.machine.waiting) : other.id ≠ node.id := by
  have distinct := inv.machine.nodup_agenda
  rw [Machine.agenda, List.append_assoc, List.map_append, List.map_append] at distinct
  exact (List.nodup_append.mp (List.nodup_append.mp distinct).2.1).2.2 _
    (List.mem_map_of_mem waits) _ (List.mem_map_of_mem inMap)

section Entries

variable {state : Ns3Alarm} {node : Node Int Alarm}

theorem waiting_congr {machine other : Machine Alarm} (frame : other.frame = machine.frame) :
    other.waiting = machine.waiting := by
  simp [Machine.waiting, frame]

theorem Agrees.absent (agrees : world.Agrees alarm) (hasState : world.alarms alarm = some state)
    (unregistered : state.registered = false) : world.Absent alarm := by
  cases agrees with
  | gone _ absent => exact absent
  | idle _ _ absent => exact absent
  | armed node hasOther registered =>
      rw [hasState, Option.some.injEq] at hasOther
      simp [← hasOther, unregistered] at registered

theorem Agrees.booked (agrees : world.Agrees alarm) (hasState : world.alarms alarm = some state)
    (registered : state.registered = true) :
    state.IsSet ∧ state.hasEngine = true ∧
      ∃ node, state.token = some node.id ∧ world.Books alarm node := by
  cases agrees with
  | gone noState => simp [hasState] at noState
  | idle hasOther unregistered =>
      rw [hasState, Option.some.injEq] at hasOther
      simp [← hasOther, registered] at unregistered
  | armed node hasOther _ isSet hasEngine token books =>
      rw [hasState, Option.some.injEq] at hasOther
      subst hasOther
      exact ⟨isSet, hasEngine, node, token, books⟩

theorem Agrees.calm (agrees : world.Agrees alarm)
    (hasState : world.alarms alarm = some state) (unregistered : state.registered = false) :
    ¬world.Waits alarm := by
  rintro ⟨node, present, value⟩
  exact agrees.absent hasState unregistered node (List.mem_append_left _ present) value

theorem Invariant.token (inv : world.Invariant)
    (hasState : world.alarms alarm = some state) (registered : state.registered = true) :
    ∃ node, state.token = some node.id ∧ world.Books alarm node ∧
      (world.Waits alarm ∧ (∀ other ∈ world.machine.engine.alarmMap.nodes,
          other.id ≠ node.id) ∨
        ¬world.Waits alarm ∧ node ∈ world.machine.engine.alarmMap.nodes) := by
  obtain ⟨_, _, node, token, books⟩ := (inv.agrees alarm).booked hasState registered
  refine ⟨node, token, books, ?_⟩
  rcases List.mem_append.mp books.mem.1 with waits | inMap
  · refine Or.inl ⟨⟨node, waits, books.mem.2⟩, ?_⟩
    exact fun other inMap same => inv.not_mem_waiting inMap waits same.symm
  · refine Or.inr ⟨?_, inMap⟩
    rintro ⟨other, waits, value⟩
    have same := (books other).mp ⟨List.mem_append_left _ waits, value⟩
    exact inv.not_mem_waiting inMap waits (by rw [same])

theorem Invariant.mem_erase_entries (inv : world.Invariant)
    (inMap : node ∈ world.machine.engine.alarmMap.nodes) (other : Node Int Alarm) :
    other ∈ world.entries ∧ other ≠ node ↔
      other ∈ world.machine.waiting ++
        (world.machine.engine.alarmMap.erase node.id).nodes := by
  rw [entries, List.mem_append, List.mem_append, Multimap.mem_erase_iff]
  constructor
  · rintro ⟨waits | remains, different⟩
    · exact Or.inl waits
    · refine Or.inr ⟨remains, fun same => different ?_⟩
      exact world.machine.engine.alarmMap.eq_of_id_eq remains inMap same
  · rintro (waits | ⟨remains, different⟩)
    · exact ⟨Or.inl waits, fun same => inv.not_mem_waiting inMap waits (by rw [same])⟩
    · exact ⟨Or.inr remains, fun same => different (by rw [same])⟩

theorem Invariant.drop (inv : world.Invariant) (books : world.Books alarm node)
    (inMap : node ∈ world.machine.engine.alarmMap.nodes)
    (machineInv : next.machine.Invariant) (sameFrame : next.machine.frame = world.machine.frame)
    (newMap : next.machine.engine.alarmMap = world.machine.engine.alarmMap.erase node.id)
    (others : ∀ other, other ≠ alarm → next.alarms other = world.alarms other)
    (own : ∀ newState, next.alarms alarm = some newState → newState.registered = false) :
    next.Invariant := by
  have entriesIff : ∀ other, other ∈ next.entries ↔ other ∈ world.entries ∧ other ≠ node := by
    intro other
    rw [inv.mem_erase_entries inMap, entries, newMap, waiting_congr sameFrame]
  have absent : next.Absent alarm := by
    intro other present value
    obtain ⟨old, different⟩ := (entriesIff other).mp present
    exact different ((books other).mp ⟨old, value⟩)
  refine inv.alter machineInv alarm others ?_ ?_
  · intro other different
    rw [entriesIff]
    refine and_iff_left ?_
    rintro rfl
    exact different books.mem.2
  · cases shape : next.alarms alarm with
    | none => exact .gone shape absent
    | some newState => exact .idle shape (own newState shape) absent

theorem Invariant.move (inv : world.Invariant) (books : world.Books alarm node)
    (inMap : node ∈ world.machine.engine.alarmMap.nodes) {timeoutUs : Int}
    (machineInv : next.machine.Invariant) (sameFrame : next.machine.frame = world.machine.frame)
    (newMap : next.machine.engine.alarmMap =
      (world.machine.engine.alarmMap.erase node.id).insert timeoutUs alarm)
    (others : ∀ other, other ≠ alarm → next.alarms other = world.alarms other)
    (hasState : next.alarms alarm = some state) (registered : state.registered = true)
    (isSet : state.IsSet) (hasEngine : state.hasEngine = true)
    (token : state.token = some world.machine.engine.alarmMap.nextId) : next.Invariant := by
  have entriesIff : ∀ other, other ∈ next.entries ↔
      other = ⟨timeoutUs, world.machine.engine.alarmMap.nextId, alarm⟩ ∨
        other ∈ world.entries ∧ other ≠ node := by
    intro other
    rw [inv.mem_erase_entries inMap, entries, newMap, waiting_congr sameFrame, List.mem_append,
      Multimap.mem_insert_iff, Multimap.nextId_erase, List.mem_append]
    tauto
  refine inv.alter machineInv alarm others ?_ ?_
  · intro other different
    rw [entriesIff]
    constructor
    · rintro (rfl | ⟨old, _⟩)
      · exact absurd rfl different
      · exact old
    · intro old
      exact Or.inr ⟨old, fun same => different (by rw [same]; exact books.mem.2)⟩
  · refine .armed ⟨timeoutUs, world.machine.engine.alarmMap.nextId, alarm⟩ hasState
      registered isSet hasEngine token ?_
    intro other
    rw [entriesIff]
    constructor
    · rintro ⟨isNew | ⟨old, different⟩, value⟩
      · exact isNew
      · exact absurd ((books other).mp ⟨old, value⟩) different
    · rintro rfl
      exact ⟨Or.inl rfl, rfl⟩

end Entries

section Operations

variable [DecidableEq Alarm] {state : Ns3Alarm} {node : Node Int Alarm}

theorem Invariant.put_of_unregistered (inv : world.Invariant)
    (hasState : world.alarms alarm = some state) (unregistered : state.registered = false)
    (newState : Ns3Alarm) (stays : newState.registered = false) :
    (world.put alarm newState).Invariant := by
  refine inv.alter inv.machine alarm (fun _ => world.put_alarms_of_ne)
    (fun _ _ => Iff.rfl) ?_
  exact .idle (world.put_alarms alarm newState) stays
    ((inv.agrees alarm).absent hasState unregistered)

theorem Invariant.put_deadline (inv : world.Invariant)
    (hasState : world.alarms alarm = some state) (registered : state.registered = true)
    {deadlineUs : Int} (initialized : deadlineUs ≠ 0) :
    (world.put alarm { state with deadlineUs := deadlineUs }).Invariant := by
  obtain ⟨_, hasEngine, node, token, books⟩ := (inv.agrees alarm).booked hasState registered
  refine inv.alter inv.machine alarm (fun _ => world.put_alarms_of_ne)
    (fun _ _ => Iff.rfl) ?_
  exact .armed node (world.put_alarms alarm _) registered initialized hasEngine token books

theorem Invariant.registerAlarm (inv : world.Invariant)
    (hasState : world.alarms alarm = some state) (unregistered : state.registered = false)
    (isSet : state.IsSet) (timeoutUs : Int) :
    ∃ next, world.registerAlarm timeoutUs alarm = .ok next ∧ next.Invariant := by
  have absent := (inv.agrees alarm).absent hasState unregistered
  have unlisted : alarm ∉ world.machine.engine.allAlarms := by
    rw [inv.machine.engine.indexed.allAlarms]
    rintro ⟨node, inMap, value⟩
    exact absent node (List.mem_append_right _ inMap) value
  obtain ⟨machine, token, result, machineInv, sameFrame, outcome⟩ :=
    inv.machine.register timeoutUs alarm
  obtain ⟨_, rfl, newMap⟩ := outcome.resolve_left fun listed => unlisted listed.1
  refine ⟨{ world with machine := machine }.put alarm
    (state.onRegistration world.machine.engine.alarmMap.nextId), ?_, ?_⟩
  · simp [World.registerAlarm, result, Except.mapError, get, hasState, unregistered]
  · have entriesIff : ∀ node, node ∈ machine.waiting ++ machine.engine.alarmMap.nodes ↔
        node = ⟨max timeoutUs world.machine.engine.nowUs,
          world.machine.engine.alarmMap.nextId, alarm⟩ ∨ node ∈ world.entries := by
      intro node
      rw [newMap, waiting_congr sameFrame]
      simp only [entries, List.mem_append, Multimap.mem_insert_iff]
      tauto
    refine inv.alter machineInv alarm (fun _ => put_alarms_of_ne _) ?_ ?_
    · intro node different
      refine (entriesIff node).trans (or_iff_right ?_)
      rintro rfl
      exact different rfl
    · refine .armed ⟨max timeoutUs world.machine.engine.nowUs,
        world.machine.engine.alarmMap.nextId, alarm⟩ (put_alarms _ _ _) rfl isSet rfl rfl ?_
      intro other
      refine (and_congr_left' (entriesIff other)).trans ?_
      constructor
      · rintro ⟨isNew | old, value⟩
        · exact isNew
        · exact absurd value (absent other old)
      · rintro rfl
        exact ⟨Or.inl rfl, rfl⟩

theorem unregisterIfRegistered_live (world : World Alarm) (machineInv : world.machine.Invariant)
    (hasState : world.alarms alarm = some state) (registered : state.registered = true)
    (hasEngine : state.hasEngine = true) (token : state.token = some node.id)
    (inMap : node ∈ world.machine.engine.alarmMap.nodes) (value : node.value = alarm) :
    ∃ machine, machine.Invariant ∧ machine.frame = world.machine.frame ∧
      machine.engine.alarmMap = world.machine.engine.alarmMap.erase node.id ∧
      world.unregisterIfRegistered alarm =
        .ok ({ world with machine := machine }.put alarm state.onUnregistration) := by
  obtain ⟨machine, result, next, sameFrame, newMap⟩ := machineInv.unregister inMap
  refine ⟨machine, next, sameFrame, newMap, ?_⟩
  simp [unregisterIfRegistered, get, hasState, registered, hasEngine, token, result, value,
    Except.mapError]

theorem unregisterIfRegistered_stale
    (hasState : world.alarms alarm = some state) (registered : state.registered = true)
    (hasEngine : state.hasEngine = true) (token : state.token = some node.id)
    (dangling : ∀ other ∈ world.machine.engine.alarmMap.nodes, other.id ≠ node.id) :
    world.unregisterIfRegistered alarm = .error (.engine .staleToken) := by
  simp [unregisterIfRegistered, get, hasState, registered, hasEngine, token,
    Machine.unregister, Ns3QuicAlarmEngine.unregisterAlarm_stale _ dangling, Except.mapError]

theorem reregisterAlarm_stale
    (hasState : world.alarms alarm = some state)
    (hasEngine : state.hasEngine = true) (token : state.token = some node.id)
    (dangling : ∀ other ∈ world.machine.engine.alarmMap.nodes, other.id ≠ node.id)
    (timeoutUs : Int) :
    world.reregisterAlarm alarm timeoutUs = .error (.engine .staleToken) := by
  simp [reregisterAlarm, get, hasState, hasEngine, token, Machine.reregister,
    Ns3QuicAlarmEngine.reregisterAlarm_stale _ dangling, Except.mapError]

end Operations

section Outcomes

/-- How an action ends: it fails on a dangling token exactly under the
condition `dangling`, and keeps the invariant if it succeeds. -/
structure Outcome (result : Except AlarmFault (World Alarm)) (dangling : Prop) : Prop where
  stale : result = .error (.engine .staleToken) ↔ dangling
  invariant : ∀ next, result = .ok next → next.Invariant

variable {result : Except AlarmFault (World Alarm)} {dangling : Prop}

theorem Outcome.of_ok (next : World Alarm) (performed : result = .ok next) (inv : next.Invariant)
    (live : ¬dangling) : Outcome result dangling where
  stale := by simp [performed, live]
  invariant := by
    rintro other rfl
    exact (Except.ok.inj performed) ▸ inv

theorem Outcome.of_stale (performed : result = .error (.engine .staleToken))
    (holds : dangling) : Outcome result dangling where
  stale := by simp [performed, holds]
  invariant := by simp [performed]

theorem Outcome.of_fault (fault : AlarmFault) (performed : result = .error fault)
    (different : fault ≠ .engine .staleToken) (live : ¬dangling) :
    Outcome result dangling where
  stale := by simp [performed, live, different]
  invariant := by simp [performed]

variable [DecidableEq Alarm] {state : Ns3Alarm}

theorem Invariant.set (inv : world.Invariant) (hasState : world.alarms alarm = some state)
    (newDeadlineUs : Int) : Outcome (world.set alarm newDeadlineUs) False := by
  by_cases isSet : state.IsSet
  · exact .of_fault .alreadySet
      (by simp [World.set, get, hasState, isSet]) (by simp) id
  by_cases noDeadline : newDeadlineUs = 0
  · exact .of_fault .noDeadline
      (by simp [World.set, get, hasState, isSet, noDeadline])
      (by simp) id
  have unregistered : state.registered = false := by
    by_contra registered
    exact isSet ((inv.agrees alarm).booked hasState (by simpa using registered)).1
  obtain ⟨next, performed, nextInv⟩ :=
    (inv.put_of_unregistered hasState unregistered
      { state with deadlineUs := newDeadlineUs } unregistered).registerAlarm
      (world.put_alarms alarm _) unregistered noDeadline newDeadlineUs
  exact .of_ok next (by
    simpa [World.set, get, hasState, isSet, noDeadline]
      using performed) nextInv id

theorem Invariant.cancel (inv : world.Invariant)
    (hasState : world.alarms alarm = some state) :
    Outcome (world.cancel alarm) (world.Waits alarm) := by
  cases registered : state.registered with
  | false =>
      have calm := (inv.agrees alarm).calm hasState registered
      by_cases isSet : state.IsSet
      · refine .of_ok _ ?_ (inv.put_of_unregistered hasState registered
          { state with deadlineUs := 0 } registered) calm
        simp [World.cancel, unregisterIfRegistered, get, hasState, isSet, registered]
      · exact .of_ok world (by simp [World.cancel, get, hasState, isSet]) inv calm
  | true =>
      obtain ⟨isSet, hasEngine, _⟩ := (inv.agrees alarm).booked hasState registered
      obtain ⟨node, token, books, place⟩ := inv.token hasState registered
      have entered : world.cancel alarm =
          (world.put alarm { state with deadlineUs := 0 }).unregisterIfRegistered alarm := by
        simp [World.cancel, get, hasState, isSet]
      rcases place with ⟨waits, dangling⟩ | ⟨calm, inMap⟩
      · exact .of_stale (entered.trans (unregisterIfRegistered_stale
          (world.put_alarms alarm _) registered hasEngine token dangling)) waits
      · obtain ⟨machine, machineInv, sameFrame, newMap, performed⟩ :=
          unregisterIfRegistered_live (world.put alarm { state with deadlineUs := 0 })
            inv.machine (world.put_alarms alarm _) registered hasEngine token inMap
            books.mem.2
        refine .of_ok _ (entered.trans performed)
          (inv.drop books inMap machineInv sameFrame newMap ?_ ?_) calm
        · intro other different
          simp [put, different]
        · intro newState hasNew
          rw [put_alarms, Option.some.injEq] at hasNew
          rw [← hasNew]
          rfl

theorem Invariant.destroy (inv : world.Invariant)
    (hasState : world.alarms alarm = some state) :
    Outcome (world.destroy alarm) (world.Waits alarm) := by
  cases registered : state.registered with
  | false =>
      have calm := (inv.agrees alarm).calm hasState registered
      refine .of_ok { world with alarms := Function.update world.alarms alarm none } ?_ ?_ calm
      · simp [World.destroy, unregisterIfRegistered, get, hasState, registered]
      · refine inv.alter inv.machine alarm (fun other different => by simp [different])
          (fun _ _ => Iff.rfl) ?_
        exact .gone (by simp) ((inv.agrees alarm).absent hasState registered)
  | true =>
      obtain ⟨_, hasEngine, _⟩ := (inv.agrees alarm).booked hasState registered
      obtain ⟨node, token, books, place⟩ := inv.token hasState registered
      rcases place with ⟨waits, dangling⟩ | ⟨calm, inMap⟩
      · refine .of_stale ?_ waits
        simp [World.destroy, unregisterIfRegistered_stale hasState registered hasEngine token
          dangling]
      · obtain ⟨machine, machineInv, sameFrame, newMap, performed⟩ :=
          unregisterIfRegistered_live world inv.machine hasState registered hasEngine token inMap
            books.mem.2
        refine .of_ok ⟨machine, Function.update world.alarms alarm none⟩ ?_
          (inv.drop books inMap machineInv sameFrame newMap ?_ ?_) calm
        · simp [World.destroy, performed, put]
        · intro other different
          simp [different]
        · simp

theorem Invariant.reregisterAlarm (inv : world.Invariant)
    (hasState : world.alarms alarm = some state) (registered : state.registered = true)
    (timeoutUs : Int) :
    Outcome (world.reregisterAlarm alarm timeoutUs) (world.Waits alarm) := by
  obtain ⟨isSet, hasEngine, _⟩ := (inv.agrees alarm).booked hasState registered
  obtain ⟨node, token, books, place⟩ := inv.token hasState registered
  rcases place with ⟨waits, dangling⟩ | ⟨calm, inMap⟩
  · exact .of_stale (reregisterAlarm_stale hasState hasEngine token dangling timeoutUs) waits
  · cases result : world.machine.reregister node.id timeoutUs with
    | error fault =>
        refine .of_fault (.engine fault) ?_ ?_ calm
        · simp [World.reregisterAlarm, get, hasState, hasEngine, token, result, Except.mapError]
        · rintro same
          rw [AlarmFault.engine.inj same] at result
          exact inv.machine.engine.reregisterAlarm_ne_stale inMap timeoutUs
            (Machine.reregister_eq_error_iff.mp result)
    | ok pair =>
        obtain ⟨machine, newToken⟩ := pair
        obtain ⟨machineInv, sameFrame, rfl, newMap⟩ := inv.machine.of_reregister inMap result
        rw [books.mem.2] at newMap
        refine .of_ok ({ world with machine := machine }.put alarm
          { state with token := some world.machine.engine.alarmMap.nextId }) ?_ ?_ calm
        · simp [World.reregisterAlarm, get, hasState, hasEngine, token, result, Except.mapError]
        · exact inv.move books inMap machineInv sameFrame newMap
            (fun _ => put_alarms_of_ne _) (put_alarms _ _ _) registered isSet hasEngine rfl

/-- An update that does nothing because of its granularity. -/
def Negligible (state : Ns3Alarm) (newDeadlineUs granularityUs : Int) : Prop :=
  newDeadlineUs ≠ 0 ∧ state.Within newDeadlineUs granularityUs

theorem Invariant.update (inv : world.Invariant)
    (hasState : world.alarms alarm = some state) (newDeadlineUs granularityUs : Int) :
    Outcome (world.update alarm newDeadlineUs granularityUs)
      (world.Waits alarm ∧ ¬Negligible state newDeadlineUs granularityUs) := by
  by_cases noDeadline : newDeadlineUs = 0
  · simpa [World.update, noDeadline, Negligible] using inv.cancel hasState
  by_cases close : state.Within newDeadlineUs granularityUs
  · exact .of_ok world (by simp [World.update, get, hasState, noDeadline, close]) inv
      (by simp [Negligible, noDeadline, close])
  have moves : ¬Negligible state newDeadlineUs granularityUs := fun negligible =>
    close negligible.2
  have entered : world.update alarm newDeadlineUs granularityUs =
      if state.registered then
        (world.put alarm { state with deadlineUs := newDeadlineUs }).reregisterAlarm alarm
          newDeadlineUs
      else
        (world.put alarm { state with deadlineUs := newDeadlineUs }).registerAlarm
          newDeadlineUs alarm := by
    cases registered : state.registered with
    | false =>
        by_cases isSet : state.IsSet <;>
          simp [World.update, updateImpl, get, hasState, noDeadline, close, isSet, registered]
    | true =>
        have isSet := ((inv.agrees alarm).booked hasState registered).1
        simp [World.update, updateImpl, get, hasState, noDeadline, close, isSet, registered]
  rw [entered]
  by_cases registered : state.registered = true
  · have outcome : Outcome _ (world.Waits alarm) :=
      (inv.put_deadline hasState registered noDeadline).reregisterAlarm
        (world.put_alarms alarm _) registered newDeadlineUs
    rw [if_pos registered, and_iff_left moves]
    exact outcome
  · rw [if_neg registered]
    rw [Bool.not_eq_true] at registered
    obtain ⟨next, performed, nextInv⟩ :=
      (inv.put_of_unregistered hasState registered
        { state with deadlineUs := newDeadlineUs } registered).registerAlarm
        (world.put_alarms alarm _) registered noDeadline newDeadlineUs
    exact .of_ok next performed nextInv fun stale =>
      (inv.agrees alarm).calm hasState registered stale.1

theorem foldl_onShutdown (cbs : List Alarm) (alarms : Alarm → Option Ns3Alarm)
    (alarm : Alarm) :
    cbs.foldl (fun alarms cb =>
        Function.update alarms cb ((alarms cb).map Ns3Alarm.onShutdown)) alarms alarm =
      if alarm ∈ cbs then (alarms alarm).map Ns3Alarm.onShutdown else alarms alarm := by
  induction cbs generalizing alarms with
  | nil => simp
  | cons cb rest inductionHypothesis =>
      rw [List.foldl_cons, inductionHypothesis]
      by_cases same : alarm = cb
      · subst same
        have again : Ns3Alarm.onShutdown ∘ Ns3Alarm.onShutdown = Ns3Alarm.onShutdown := rfl
        simp [Option.map_map, again]
      · simp [same]

theorem shutdown_alarms (world : World Alarm) (alarm : Alarm) :
    world.shutdown.alarms alarm =
      if ∃ node ∈ world.machine.engine.alarmMap.nodes, node.value = alarm then
        (world.alarms alarm).map Ns3Alarm.onShutdown
      else
        world.alarms alarm := by
  simp [shutdown, Machine.shutdown, Ns3QuicAlarmEngine.shutdown, foldl_onShutdown]

theorem entries_shutdown (world : World Alarm) :
    world.shutdown.entries = world.machine.waiting := by
  simp [entries, shutdown, Machine.shutdown, Ns3QuicAlarmEngine.shutdown, Machine.waiting]

theorem Invariant.shutdown (inv : world.Invariant) : world.shutdown.Invariant := by
  refine ⟨inv.machine.shutdown, fun alarm => ?_⟩
  have fewer : world.Absent alarm → world.shutdown.Absent alarm := by
    intro absent node waits
    rw [entries_shutdown] at waits
    exact absent node (List.mem_append_left _ waits)
  have untouched : world.Absent alarm →
      world.shutdown.alarms alarm = world.alarms alarm := by
    intro absent
    rw [shutdown_alarms, if_neg]
    rintro ⟨node, inMap, value⟩
    exact absent node (List.mem_append_right _ inMap) value
  cases inv.agrees alarm with
  | gone noState absent => exact .gone ((untouched absent).trans noState) (fewer absent)
  | idle hasState unregistered absent =>
      exact .idle ((untouched absent).trans hasState) unregistered (fewer absent)
  | @armed state node hasState registered isSet hasEngine token books =>
      rcases List.mem_append.mp books.mem.1 with waits | inMap
      · -- the entry waits, so `Shutdown` does not find it
        refine .armed node ?_ registered isSet hasEngine token ?_
        · rw [shutdown_alarms, if_neg, hasState]
          rintro ⟨other, inMap, value⟩
          have same := (books other).mp ⟨List.mem_append_right _ inMap, value⟩
          exact inv.not_mem_waiting inMap waits (by rw [same])
        · intro other
          rw [entries_shutdown]
          constructor
          · rintro ⟨otherWaits, value⟩
            exact (books other).mp ⟨List.mem_append_left _ otherWaits, value⟩
          · rintro rfl
            exact ⟨waits, books.mem.2⟩
      · have told : world.shutdown.alarms alarm = some state.onShutdown := by
          rw [shutdown_alarms, if_pos ⟨node, inMap, books.mem.2⟩, hasState]
          rfl
        refine .idle told rfl ?_
        intro other otherWaits value
        rw [entries_shutdown] at otherWaits
        have same := (books other).mp ⟨List.mem_append_left _ otherWaits, value⟩
        exact inv.not_mem_waiting inMap otherWaits (by rw [same])

theorem Invariant.onAlarm (inv : world.Invariant) {node : Node Int Alarm}
    {rest : List (Node Int Alarm)} {current : Option (Node Int Alarm)}
    (frame : world.machine.frame = some ⟨node :: rest, current⟩) :
    Outcome world.onAlarm False := by
  have waiting : world.machine.waiting = node :: rest := by simp [Machine.waiting, frame]
  have before : world.entries =
      node :: (rest ++ world.machine.engine.alarmMap.nodes) := by
    simp [entries, waiting]
  have distinct : (world.entries.map Node.id).Nodup := by
    have agenda := inv.machine.nodup_agenda
    rw [Machine.agenda, List.append_assoc, List.map_append] at agenda
    exact (List.nodup_append.mp agenda).2.1
  rw [before, List.map_cons, List.nodup_cons] at distinct
  have present : node ∈ world.entries := by simp [before]
  cases inv.agrees node.value with
  | gone _ absent => exact absurd rfl (absent node present)
  | idle _ _ absent => exact absurd rfl (absent node present)
  | @armed state booked hasState registered isSet hasEngine token books =>
      have own := (books node).mp ⟨present, rfl⟩
      subst own
      refine .of_ok ({ world with machine := world.machine.onAlarm }.put node.value
        state.onAlarm) ?_ ?_ id
      · simp [World.onAlarm, waiting, get, hasState]
      · have after : ({ world with machine := world.machine.onAlarm }.put node.value
            state.onAlarm).entries = rest ++ world.machine.engine.alarmMap.nodes := by
          simp [entries, put, Machine.onAlarm, frame, Machine.waiting]
        refine inv.alter (inv.machine.onAlarm frame) node.value
          (fun _ => put_alarms_of_ne _) ?_ (.idle (put_alarms _ _ _) ?_ ?_)
        · intro other different
          rw [after, before, List.mem_cons]
          refine (or_iff_right ?_).symm
          rintro rfl
          exact different rfl
        · simp only [Ns3Alarm.onAlarm]
          split <;> rfl
        · intro other remains value
          rw [after] at remains
          have same := (books other).mp ⟨by rw [before]; exact .tail _ remains, value⟩
          exact distinct.1 (same ▸ List.mem_map_of_mem remains)

omit [DecidableEq Alarm] in
theorem Invariant.ofMachine (inv : world.Invariant) {machine : Machine Alarm}
    (machineInv : machine.Invariant)
    (entries : machine.waiting ++ machine.engine.alarmMap.nodes = world.entries) :
    Outcome (world.ofMachine (.ok machine)) False :=
  .of_ok { world with machine := machine } rfl
    (inv.keep machineInv rfl fun node => by rw [World.entries, entries]) id

end Outcomes

section Runs

variable [DecidableEq Alarm]

/-- The action does not make the engine use the token of an alarm that waits
for its callback. -/
def Careful (world : World Alarm) : WorldAction Alarm → Prop
  | .cancel alarm | .destroy alarm => ¬world.Waits alarm
  | .update alarm newDeadlineUs granularityUs =>
      ∀ state ∈ world.alarms alarm, world.Waits alarm →
        Negligible state newDeadlineUs granularityUs
  | _ => True

theorem Invariant.perform (inv : world.Invariant) {action : WorldAction Alarm}
    (enabled : world.Enabled action) :
    Outcome (world.perform action) (¬world.Careful action) := by
  cases action with
  | construct alarm =>
      refine .of_ok (world.construct alarm) rfl ?_ (by simp [Careful])
      have absent : world.Absent alarm := by
        cases inv.agrees alarm with
        | gone _ absent => exact absent
        | idle _ _ absent => exact absent
        | armed _ hasState => simp [enabled.2] at hasState
      exact inv.alter inv.machine alarm (fun _ => put_alarms_of_ne _) (fun _ _ => Iff.rfl)
        (.idle (put_alarms _ _ _) rfl absent)
  | set alarm newDeadlineUs =>
      obtain ⟨state, hasState⟩ := Option.isSome_iff_exists.mp enabled.2
      simpa [Careful, World.perform] using inv.set hasState newDeadlineUs
  | cancel alarm =>
      obtain ⟨state, hasState⟩ := Option.isSome_iff_exists.mp enabled.2
      simpa [Careful, World.perform] using inv.cancel hasState
  | update alarm newDeadlineUs granularityUs =>
      obtain ⟨state, hasState⟩ := Option.isSome_iff_exists.mp enabled.2
      simpa [Careful, World.perform, hasState] using
        inv.update hasState newDeadlineUs granularityUs
  | destroy alarm =>
      obtain ⟨state, hasState⟩ := Option.isSome_iff_exists.mp enabled.2
      simpa [Careful, World.perform] using inv.destroy hasState
  | shutdown => exact .of_ok world.shutdown rfl inv.shutdown (by simp [Careful])
  | advance delay =>
      simpa [Careful, World.perform, Machine.perform] using
        inv.ofMachine (inv.machine.advance enabled.1 enabled.2) rfl
  | timerExpires =>
      obtain ⟨machineInv, due, frame, cut⟩ := inv.machine.timerExpires enabled.1 enabled.2
      have top : world.machine.frame = none := enabled.1
      simpa [Careful, World.perform, Machine.perform] using
        inv.ofMachine machineInv (by simp [Machine.waiting, frame, cut, entries, top])
  | onAlarm =>
      obtain ⟨node, rest, frame⟩ := enabled
      simpa [Careful, World.perform] using inv.onAlarm frame
  | onAlarmReturns =>
      obtain ⟨cbs, node, frame⟩ := enabled
      have outcome := inv.ofMachine (inv.machine.leaveCallback frame)
        (by simp [Machine.waiting, frame, entries])
      simpa [Careful, World.perform, Machine.perform, Machine.onAlarmReturns, frame] using
        outcome
  | endOfTimeout =>
      obtain ⟨machine, performed, machineInv, top, sameMap⟩ :=
        inv.machine.endOfTimeout enabled
      have outcome := inv.ofMachine machineInv (by
        have frame : world.machine.frame = some ⟨[], none⟩ := enabled
        simp [Machine.waiting, top, frame, sameMap, entries])
      simpa [Careful, World.perform, Machine.perform, performed] using outcome

theorem invariant_of_run {now : Nat} {actions : List (WorldAction Alarm)}
    (run : Run Step (create now) actions world) : world.Invariant :=
  run.invariant Invariant (invariant_create now) fun _ _ next inv step =>
    (inv.perform step.1).invariant next step.2

/-- In every run, an action makes `UnregisterAlarm` or `ReregisterAlarm` use a
dangling token exactly if it is not careful.  An alarm believes to be
registered exactly if it has an entry in the map, which its token designates,
or waits for its callback. -/
theorem stale_token_iff_not_careful {now : Nat} {actions : List (WorldAction Alarm)}
    (run : Run Step (create now) actions world) :
    (∀ action, world.Enabled action →
      (world.perform action = .error (.engine .staleToken) ↔ ¬world.Careful action)) ∧
    (∀ alarm state, world.alarms alarm = some state → ¬world.Waits alarm →
      (state.registered = true ↔
        ∃ node ∈ world.machine.engine.alarmMap.nodes, node.value = alarm) ∧
      ∀ node ∈ world.machine.engine.alarmMap.nodes, node.value = alarm →
        state.token = some node.id) ∧
    (∀ alarm, world.Waits alarm →
      (∃ state, world.alarms alarm = some state ∧ state.registered = true) ∧
      ∀ node ∈ world.machine.engine.alarmMap.nodes, node.value ≠ alarm) := by
  have inv := invariant_of_run run
  refine ⟨fun action enabled => (inv.perform enabled).stale, ?_, ?_⟩
  · intro alarm state hasState calm
    cases registered : state.registered with
    | false =>
        have absent := (inv.agrees alarm).absent hasState registered
        refine ⟨by simpa using fun node inMap => absent node (List.mem_append_right _ inMap), ?_⟩
        exact fun node inMap value => absurd value (absent node (List.mem_append_right _ inMap))
    | true =>
        obtain ⟨node, token, books, place⟩ := inv.token hasState registered
        have inMap := (place.resolve_left fun waits => calm waits.1).2
        refine ⟨by simpa using ⟨node, inMap, books.mem.2⟩, fun other otherIn value => ?_⟩
        rw [token, (books other).mp ⟨List.mem_append_right _ otherIn, value⟩]
  · intro alarm waits
    have held := waits
    obtain ⟨node, present, value⟩ := held
    cases inv.agrees alarm with
    | gone _ absent => exact absurd value (absent node (List.mem_append_left _ present))
    | idle _ _ absent => exact absurd value (absent node (List.mem_append_left _ present))
    | armed booked hasState registered _ _ _ books =>
        refine ⟨⟨_, hasState, registered⟩, fun other inMap otherValue => ?_⟩
        have same := (books other).mp ⟨List.mem_append_right _ inMap, otherValue⟩
        have own := (books node).mp ⟨List.mem_append_left _ present, value⟩
        exact inv.not_mem_waiting inMap present (by rw [same, own])

/-- While nothing is due, an alarm can be cancelled. -/
theorem stale_token_iff_not_careful_ahead :
    ∃ world : World Bool,
      Run Step (create 0) [.construct true, .set true 1] world ∧
      world.perform (.cancel true) ≠ .error (.engine .staleToken) := by
  have run : Run Step (create 0 : World Bool) _ _ :=
    Run.of_execute [.construct true, .set true 1] rfl
  refine ⟨_, run, fun stale => ?_⟩
  exact ((stale_token_iff_not_careful run).1 (.cancel true) (by decide)).mp stale
    (show ¬Waits _ true by decide)

/-- The callback of one alarm cancels another one that is due in the same
microsecond, and the engine dereferences an erased iterator. -/
theorem cancel_in_callback_uses_stale_token :
    ∃ world : World Bool,
      Run Step (create 0)
        [.construct true, .construct false, .set true 1, .set false 1, .advance 1000,
          .timerExpires, .onAlarm] world ∧
      world.Enabled (.cancel false) ∧
      world.perform (.cancel false) = .error (.engine .staleToken) := by
  have run : Run Step (create 0 : World Bool) _ _ := Run.of_execute
    [.construct true, .construct false, .set true 1, .set false 1, .advance 1000,
      .timerExpires, .onAlarm] rfl
  exact ⟨_, run, by decide, rfl⟩

end Runs

end World

end Ns3Quic.Alarm
