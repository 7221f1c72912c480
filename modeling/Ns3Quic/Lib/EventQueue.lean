import Ns3Quic.Lib.Run
import Mathlib.Data.List.MinMax

/-!
# Discrete-event clocks

A clock holds the current time and the events that are scheduled and have
been neither executed nor cancelled.  Time only moves up to the next pending
event, so that no event is passed over, and an event leaves the queue before
it executes.
-/

namespace EventQueue

open TransitionSystem

structure Event where
  uid : Nat
  ts : Nat
  deriving DecidableEq

structure Clock where
  now : Nat
  nextUid : Nat
  pending : List Event
  deriving DecidableEq

namespace Clock

/-- Schedule an event `delay` from now.  Its identity is `clock.nextUid`. -/
def schedule (clock : Clock) (delay : Nat) : Clock :=
  { clock with
    nextUid := clock.nextUid + 1
    pending := ⟨clock.nextUid, clock.now + delay⟩ :: clock.pending }

def remove (clock : Clock) (uid : Nat) : Clock :=
  { clock with pending := clock.pending.filter fun event => event.uid != uid }

def isPending (clock : Clock) (uid : Nat) : Bool :=
  clock.pending.any fun event => event.uid == uid

def advance (clock : Clock) (delay : Nat) : Clock :=
  { clock with now := clock.now + delay }

def due? (clock : Clock) : Option Event :=
  clock.pending.find? fun event => event.ts == clock.now

/-- Moving the time by `delay` does not pass a pending event. -/
def MayAdvance (clock : Clock) (delay : Nat) : Prop :=
  ∀ event ∈ clock.pending, clock.now + delay ≤ event.ts

instance (clock : Clock) (delay : Nat) : Decidable (clock.MayAdvance delay) :=
  inferInstanceAs (Decidable (∀ event ∈ clock.pending, _))

@[simp]
theorem isPending_iff (clock : Clock) (uid : Nat) :
    clock.isPending uid = true ↔ ∃ event ∈ clock.pending, event.uid = uid := by
  simp [isPending]

@[simp]
theorem mem_remove_iff (clock : Clock) (uid : Nat) (event : Event) :
    event ∈ (clock.remove uid).pending ↔
      event ∈ clock.pending ∧ event.uid ≠ uid := by
  simp [remove]

end Clock

/-- What a clock does when nobody schedules or cancels anything any more. -/
inductive Tick where
  | advance (delay : Nat)
  | execute (uid : Nat)

def Clock.Ticks (clock : Clock) : Tick → Clock → Prop
  | .advance delay, next =>
      clock.MayAdvance delay ∧ next = clock.advance delay
  | .execute uid, next =>
      (∃ event ∈ clock.pending, event.uid = uid ∧ event.ts = clock.now) ∧
        next = clock.remove uid

def Clock.Executes (clock : Clock) : Prop :=
  ∃ ticks last uid, Run Clock.Ticks clock ticks last ∧ Tick.execute uid ∈ ticks

/-- Nothing executes in any continuation of an empty queue, and the earliest
event of a non-empty queue executes in some continuation. -/
theorem Clock.executes_iff (clock : Clock)
    (future : ∀ event ∈ clock.pending, clock.now ≤ event.ts) :
    clock.Executes ↔ clock.pending ≠ [] := by
  constructor
  · rintro ⟨ticks, last, uid, run, executed⟩ nothingPending
    have silent : last.pending = [] ∧ Tick.execute uid ∉ ticks := by
      clear executed
      induction run with
      | start => exact ⟨nothingPending, by simp⟩
      | @snoc ticks tick middle last earlier taken inductionHypothesis =>
          obtain ⟨middleEmpty, absent⟩ := inductionHypothesis
          cases tick with
          | advance delay =>
              obtain ⟨_, rfl⟩ := taken
              exact ⟨middleEmpty, by simp [absent]⟩
          | execute other =>
              obtain ⟨⟨event, membership, _⟩, _⟩ := taken
              simp [middleEmpty] at membership
    exact silent.2 executed
  · intro somethingPending
    obtain ⟨first, found⟩ : ∃ first, first ∈ clock.pending.argmin Event.ts := by
      cases shape : clock.pending.argmin Event.ts with
      | none => exact absurd (List.argmin_eq_none.mp shape) somethingPending
      | some first => exact ⟨first, rfl⟩
    have membership := List.argmin_mem found
    have earliest : ∀ event ∈ clock.pending, first.ts ≤ event.ts :=
      fun event present => List.le_of_mem_argmin present found
    have reaches : clock.now + (first.ts - clock.now) = first.ts :=
      Nat.add_sub_cancel' (future first membership)
    -- wait for the earliest event, then execute it
    refine ⟨[] ++ [.advance (first.ts - clock.now)] ++ [.execute first.uid],
      (clock.advance (first.ts - clock.now)).remove first.uid, first.uid, ?_, by simp⟩
    refine .snoc (.snoc .start ⟨?_, rfl⟩) ⟨⟨first, membership, rfl, ?_⟩, rfl⟩
    · intro event present
      rw [reaches]
      exact earliest event present
    · exact reaches.symm

end EventQueue
