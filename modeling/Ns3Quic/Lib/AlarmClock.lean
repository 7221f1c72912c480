import Ns3Quic.Lib.Run
import Mathlib.Logic.Function.Basic
import Mathlib.Order.Lattice

/-!
# Alarm clocks

What alarms are for.  A clock shows the time and, for every armed alarm, the
time at which it is due.  Alarms are armed for now or later, time does not pass
an alarm that is due, and an alarm rings when it is due and is then no longer
armed.
-/

namespace AlarmClock

open TransitionSystem

universe u v

structure Clock (Alarm : Type u) (Time : Type v) where
  now : Time
  due : Alarm → Option Time

inductive Event (Alarm : Type u) (Time : Type v) where
  | arm (alarm : Alarm) (time : Time)
  | disarm (alarm : Alarm)
  | pass (time : Time)
  | ring (alarm : Alarm) (time : Time)

namespace Clock

variable {Alarm : Type u} [DecidableEq Alarm] {Time : Type v} [LinearOrder Time]

def arm (clock : Clock Alarm Time) (alarm : Alarm) (time : Time) : Clock Alarm Time :=
  { clock with due := Function.update clock.due alarm (some time) }

def disarm (clock : Clock Alarm Time) (alarm : Alarm) : Clock Alarm Time :=
  { clock with due := Function.update clock.due alarm none }

def Ticks (clock : Clock Alarm Time) : Event Alarm Time → Clock Alarm Time → Prop
  | .arm alarm time, next => clock.now ≤ time ∧ next = clock.arm alarm time
  | .disarm alarm, next => next = clock.disarm alarm
  | .pass time, next =>
      clock.now ≤ time ∧ (∀ alarm due, clock.due alarm = some due → time ≤ due) ∧
        next = { clock with now := time }
  | .ring alarm time, next =>
      time = clock.now ∧ clock.due alarm = some time ∧ next = clock.disarm alarm

end Clock

namespace Event

variable {Alarm : Type u} {Time : Type v}

def Touches (alarm : Alarm) : Event Alarm Time → Prop
  | .arm other _ | .disarm other => other = alarm
  | .pass _ | .ring _ _ => False

variable [DecidableEq Alarm]

def rungAt (alarm : Alarm) : Event Alarm Time → Option Time
  | .ring other time => if other = alarm then some time else none
  | .arm _ _ | .disarm _ | .pass _ => none

def rings (alarm : Alarm) (events : List (Event Alarm Time)) : List Time :=
  events.filterMap (rungAt alarm)

theorem rings_append (alarm : Alarm) (events more : List (Event Alarm Time)) :
    rings alarm (events ++ more) = rings alarm events ++ rings alarm more :=
  List.filterMap_append

end Event

namespace Clock

variable {Alarm : Type u} [DecidableEq Alarm] {Time : Type v} [LinearOrder Time]
  {clock next last : Clock Alarm Time} {alarm : Alarm} {time : Time}
  {events : List (Event Alarm Time)}

theorem run_disarm (clock : Clock Alarm Time) (alarms : List Alarm) :
    Run Ticks clock (alarms.map .disarm) (alarms.foldl disarm clock) := by
  induction alarms generalizing clock with
  | nil => exact .start
  | cons alarm rest inductionHypothesis =>
      exact .cons rfl (inductionHypothesis (clock.disarm alarm))

omit [LinearOrder Time] in
theorem foldl_disarm (clock : Clock Alarm Time) (alarms : List Alarm) :
    alarms.foldl disarm clock =
      { clock with due := fun alarm => if alarm ∈ alarms then none else clock.due alarm } := by
  induction alarms generalizing clock with
  | nil => simp
  | cons first rest inductionHypothesis =>
      rw [List.foldl_cons, inductionHypothesis]
      simp only [disarm, Clock.mk.injEq, true_and]
      funext alarm
      by_cases same : alarm = first <;> simp [same]

/-- Nobody has touched the alarm since it was armed for `time`: it is still
armed, or it has rung at that time and not again. -/
def RingsOnce (clock : Clock Alarm Time) (alarm : Alarm) (time : Time)
    (events : List (Event Alarm Time)) : Prop :=
  (clock.due alarm = some time ∧ clock.now ≤ time ∧ Event.rings alarm events = []) ∨
    (clock.due alarm = none ∧ time ≤ clock.now ∧ Event.rings alarm events = [time])

theorem RingsOnce.skip (before : clock.RingsOnce alarm time events) {event : Event Alarm Time}
    (silent : event.rungAt alarm = none) (kept : next.due alarm = clock.due alarm)
    (sameTime : next.now = clock.now) : next.RingsOnce alarm time (events ++ [event]) := by
  have rings : Event.rings alarm (events ++ [event]) = Event.rings alarm events := by
    simp [Event.rings, silent]
  unfold RingsOnce
  rw [rings, kept, sameTime]
  exact before

theorem RingsOnce.tick (before : clock.RingsOnce alarm time events) {event : Event Alarm Time}
    (untouched : ¬event.Touches alarm) (tick : clock.Ticks event next) :
    next.RingsOnce alarm time (events ++ [event]) := by
  cases event with
  | arm other armedFor =>
      obtain ⟨_, rfl⟩ := tick
      exact before.skip rfl (Function.update_of_ne (Ne.symm untouched) _ _) rfl
  | disarm other =>
      obtain rfl := tick
      exact before.skip rfl (Function.update_of_ne (Ne.symm untouched) _ _) rfl
  | pass later =>
      obtain ⟨forward, notPassed, rfl⟩ := tick
      have rings : Event.rings alarm (events ++ [.pass later]) = Event.rings alarm events := by
        simp [Event.rings, Event.rungAt]
      rcases before with ⟨armed, _, silent⟩ | ⟨rung, behind, once⟩
      · exact Or.inl ⟨armed, notPassed alarm time armed, rings.trans silent⟩
      · exact Or.inr ⟨rung, behind.trans forward, rings.trans once⟩
  | ring other atTime =>
      obtain ⟨rfl, dueNow, rfl⟩ := tick
      by_cases own : other = alarm
      · subst own
        rcases before with ⟨armed, _, silent⟩ | ⟨rung, _⟩
        · obtain rfl : clock.now = time := Option.some.inj (dueNow.symm.trans armed)
          refine Or.inr ⟨Function.update_self _ _ _, le_refl _, ?_⟩
          rw [Event.rings_append, silent]
          simp [Event.rings, Event.rungAt]
        · cases rung.symm.trans dueNow
      · exact before.skip (if_neg own) (Function.update_of_ne (Ne.symm own) _ _) rfl

/-- An armed alarm that nobody touches rings once, when it is due, and time
does not pass it before. -/
theorem ringsOnce_of_run (armed : clock.due alarm = some time) (ahead : clock.now ≤ time)
    (run : Run Ticks clock events last) (untouched : ∀ event ∈ events, ¬event.Touches alarm) :
    last.RingsOnce alarm time events := by
  induction run with
  | start => exact Or.inl ⟨armed, ahead, rfl⟩
  | snoc earlier tick inductionHypothesis =>
      refine (inductionHypothesis fun event present => ?_).tick ?_ tick
      · exact untouched event (List.mem_append_left _ present)
      · exact untouched _ (List.mem_append_right _ (List.mem_singleton_self _))

theorem silent_of_run (off : clock.due alarm = none) (run : Run Ticks clock events last)
    (untouched : ∀ event ∈ events, ¬event.Touches alarm) :
    last.due alarm = none ∧ Event.rings alarm events = [] := by
  induction run with
  | start => exact ⟨off, rfl⟩
  | @snoc earlier event middle last before tick inductionHypothesis =>
      obtain ⟨middleOff, silent⟩ := inductionHypothesis fun event present =>
        untouched event (List.mem_append_left _ present)
      have own := untouched event (List.mem_append_right _ (List.mem_singleton_self _))
      rw [Event.rings_append, silent, List.nil_append]
      cases event with
      | arm other armedFor =>
          obtain ⟨_, rfl⟩ := tick
          exact ⟨(Function.update_of_ne (Ne.symm own) _ _).trans middleOff, rfl⟩
      | disarm other =>
          obtain rfl := tick
          exact ⟨(Function.update_of_ne (Ne.symm own) _ _).trans middleOff, rfl⟩
      | pass later =>
          obtain ⟨_, _, rfl⟩ := tick
          exact ⟨middleOff, rfl⟩
      | ring other atTime =>
          obtain ⟨_, dueNow, rfl⟩ := tick
          have different : other ≠ alarm := by
            rintro rfl
            cases middleOff.symm.trans dueNow
          refine ⟨(Function.update_of_ne (Ne.symm different) _ _).trans middleOff, ?_⟩
          simp [Event.rings, Event.rungAt, different]

theorem now_of_run (run : Run Ticks clock events last) :
    clock.now ≤ last.now ∧ ((∀ time, .pass time ∉ events) → last.now = clock.now) := by
  induction run with
  | start => exact ⟨le_refl _, fun _ => rfl⟩
  | @snoc earlier event middle last before tick inductionHypothesis =>
      obtain ⟨forward, still⟩ := inductionHypothesis
      have tickForward : middle.now ≤ last.now ∧
          ((∀ time, event ≠ .pass time) → last.now = middle.now) := by
        cases event with
        | arm other armedFor =>
            obtain ⟨_, rfl⟩ := tick
            exact ⟨le_refl _, fun _ => rfl⟩
        | disarm other =>
            obtain rfl := tick
            exact ⟨le_refl _, fun _ => rfl⟩
        | pass later =>
            obtain ⟨ahead, _, rfl⟩ := tick
            exact ⟨ahead, fun other => absurd rfl (other later)⟩
        | ring other atTime =>
            obtain ⟨_, _, rfl⟩ := tick
            exact ⟨le_refl _, fun _ => rfl⟩
      refine ⟨forward.trans tickForward.1, fun absent => ?_⟩
      rw [tickForward.2, still]
      · exact fun time present => absent time (List.mem_append_left _ present)
      · rintro time rfl
        exact absent time (List.mem_append_right _ (List.mem_singleton_self _))

end Clock

end AlarmClock
