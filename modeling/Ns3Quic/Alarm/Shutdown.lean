import Ns3Quic.Alarm.Tokens

/-!
# Shutting the engine down

`Shutdown` empties the alarm map and tells every alarm it finds there.  It
does not touch `timer_`, and it does not see the alarms that `OnTimeout` has
taken out of the map.  So an `OnTimeout` event outlives the engine unless the
timer was not running in the first place.
-/

namespace Ns3Quic.Alarm

open EventQueue OrderedMultimap TransitionSystem

namespace World

variable {Alarm : Type} {world : World Alarm}

/-- Nothing links the engine, the alarms that were registered and the
simulator any more. -/
structure Released (before after : World Alarm) : Prop where
  emptyMap : after.machine.engine.alarmMap.nodes = []
  noAlarms : after.machine.engine.allAlarms = ∅
  unlinked : ∀ alarm state, before.alarms alarm = some state → state.registered = true →
    ∃ unlinked, after.alarms alarm = some unlinked ∧
      unlinked.registered = false ∧ unlinked.hasEngine = false
  stopped : after.machine.engine.timerIsRunning = false
  silent : ¬after.machine.engine.clock.Executes

theorem Invariant.executes_iff (inv : world.Invariant) :
    world.machine.engine.clock.Executes ↔ world.machine.engine.timerIsRunning = true := by
  rw [Clock.executes_iff _ inv.machine.engine.timer.ahead,
    Ns3QuicAlarmEngine.timerIsRunning_iff inv.machine.engine.timer.owned]

variable [DecidableEq Alarm]

/-- `Shutdown` reaches every registered alarm exactly if none waits. -/
theorem Invariant.shutdown_unlinks_iff (inv : world.Invariant) :
    (∀ alarm state, world.alarms alarm = some state → state.registered = true →
      ∃ unlinked, world.shutdown.alarms alarm = some unlinked ∧
        unlinked.registered = false ∧ unlinked.hasEngine = false) ↔
      world.machine.waiting = [] := by
  constructor
  · intro unlinks
    by_contra nonempty
    obtain ⟨node, waits⟩ := List.exists_mem_of_ne_nil _ nonempty
    cases inv.shutdown.agrees node.value with
    | gone _ absent =>
        exact absent node (by rw [entries_shutdown]; exact waits) rfl
    | idle _ _ absent =>
        exact absent node (by rw [entries_shutdown]; exact waits) rfl
    | armed _ hasState registered =>
        cases inv.agrees node.value with
        | gone _ absent => exact absent node (List.mem_append_left _ waits) rfl
        | idle _ _ absent => exact absent node (List.mem_append_left _ waits) rfl
        | armed _ hadState wasRegistered =>
            obtain ⟨unlinked, hasUnlinked, unregistered, _⟩ :=
              unlinks _ _ hadState wasRegistered
            rw [hasState, Option.some.injEq] at hasUnlinked
            simp [← hasUnlinked, registered] at unregistered
  · intro calm alarm state hasState registered
    obtain ⟨node, _, books, place⟩ := inv.token hasState registered
    have inMap : node ∈ world.machine.engine.alarmMap.nodes := by
      simpa [entries, calm] using books.mem.1
    refine ⟨state.onShutdown, ?_, rfl, rfl⟩
    rw [shutdown_alarms, if_pos ⟨node, inMap, books.mem.2⟩, hasState]
    rfl

/-- In every reachable state, `Shutdown` releases the engine exactly if the
timer is not running and no alarm waits for its callback. -/
theorem shutdown_releases_iff {now : Nat} {actions : List (WorldAction Alarm)}
    (run : Run Step (create now) actions world) :
    Released world world.shutdown ↔
      world.machine.engine.timerIsRunning = false ∧ world.machine.waiting = [] := by
  have inv := invariant_of_run run
  constructor
  · intro released
    exact ⟨released.stopped, inv.shutdown_unlinks_iff.mp released.unlinked⟩
  · rintro ⟨stopped, calm⟩
    exact {
      emptyMap := by simp [shutdown, Machine.shutdown, Ns3QuicAlarmEngine.shutdown]
      noAlarms := inv.machine.engine.shutdown_allAlarms
      unlinked := inv.shutdown_unlinks_iff.mpr calm
      stopped := stopped
      silent := fun executes =>
        Bool.false_ne_true (stopped.symm.trans (inv.shutdown.executes_iff.mp executes)) }

/-- An alarm that was set and cancelled leaves the timer running; once the
timer has expired, nothing is in flight. -/
theorem shutdown_releases_iff_expired :
    ∃ world : World Bool,
      Run Step (create 0)
        [.construct true, .set true 1, .cancel true, .advance 1000, .timerExpires,
          .endOfTimeout] world ∧
      Released world world.shutdown := by
  have run : Run Step (create 0 : World Bool) _ _ := Run.of_execute
    [.construct true, .set true 1, .cancel true, .advance 1000, .timerExpires,
      .endOfTimeout] rfl
  exact ⟨_, run, (shutdown_releases_iff run).mpr ⟨rfl, rfl⟩⟩

/-- With one alarm set, the event of the timer executes after `Shutdown`. -/
theorem shutdown_leaves_timer_running :
    ∃ world : World Bool,
      Run Step (create 0) [.construct true, .set true 1] world ∧
      world.shutdown.machine.engine.timerIsRunning = true ∧
      world.shutdown.machine.engine.clock.Executes := by
  have run : Run Step (create 0 : World Bool) _ _ :=
    Run.of_execute [.construct true, .set true 1] rfl
  refine ⟨_, run, rfl, ?_⟩
  exact (invariant_of_run run).shutdown.executes_iff.mpr rfl

end World

end Ns3Quic.Alarm
