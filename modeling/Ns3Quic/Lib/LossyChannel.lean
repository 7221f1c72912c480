import Mathlib.Data.List.Perm.Basic

/-!
# A channel that loses messages

Messages are delivered in the order in which they were handed to the channel,
each at most once; any of them may be dropped on the way.  The channel
remembers what has become of every message.

If the messages are numbered from one without a gap, the number of the last
message received says how many have been dropped before it.
-/

namespace LossyChannel

universe u

structure Channel (Message : Type u) where
  handed : List Message
  received : List Message
  inFlight : List Message
  dropped : List Message
  inOrder : (received ++ inFlight).Sublist handed
  conserved : handed.Perm (received ++ inFlight ++ dropped)

namespace Channel

variable {Message : Type u}

def empty : Channel Message := ⟨[], [], [], [], List.Sublist.refl _, List.Perm.refl _⟩

def send (channel : Channel Message) (message : Message) : Channel Message where
  handed := channel.handed ++ [message]
  received := channel.received
  inFlight := channel.inFlight ++ [message]
  dropped := channel.dropped
  inOrder := by
    rw [← List.append_assoc]
    exact channel.inOrder.append (List.Sublist.refl _)
  conserved := by
    have moved : (channel.received ++ channel.inFlight ++ channel.dropped ++ [message]).Perm
        (channel.received ++ (channel.inFlight ++ [message]) ++ channel.dropped) := by
      simp only [List.append_assoc]
      exact (List.perm_append_comm.append_left _).append_left _
    exact (channel.conserved.append_right [message]).trans moved

/-- The first message in flight arrives. -/
def deliver (channel : Channel Message) : Channel Message :=
  match shape : channel.inFlight with
  | [] => channel
  | message :: rest =>
      { channel with
        received := channel.received ++ [message]
        inFlight := rest
        inOrder := by
          have inOrder := channel.inOrder
          rw [shape] at inOrder
          simpa using inOrder
        conserved := by
          have conserved := channel.conserved
          rw [shape] at conserved
          simpa using conserved }

def drop (channel : Channel Message) (index : Nat) : Channel Message :=
  match found : channel.inFlight[index]? with
  | none => channel
  | some message =>
      { channel with
        inFlight := channel.inFlight.eraseIdx index
        dropped := message :: channel.dropped
        inOrder := ((List.eraseIdx_sublist _ _).append_left _).trans channel.inOrder
        conserved := by
          obtain ⟨inside, rfl⟩ := List.getElem?_eq_some_iff.mp found
          have extracted := (List.getElem_cons_eraseIdx_perm inside).symm
          have moved : (channel.inFlight ++ channel.dropped).Perm
              (channel.inFlight.eraseIdx index ++
                channel.inFlight[index] :: channel.dropped) :=
            (extracted.append_right _).trans List.perm_middle.symm
          have conserved := channel.conserved
          rw [List.append_assoc] at conserved ⊢
          exact conserved.trans (moved.append_left _) }

@[simp]
theorem handed_deliver (channel : Channel Message) : channel.deliver.handed = channel.handed := by
  unfold deliver
  split <;> rfl

@[simp]
theorem handed_drop (channel : Channel Message) (index : Nat) :
    (channel.drop index).handed = channel.handed := by
  unfold drop
  split <;> rfl

@[simp]
theorem received_drop (channel : Channel Message) (index : Nat) :
    (channel.drop index).received = channel.received := by
  unfold drop
  split <;> rfl

theorem received_deliver {channel : Channel Message} {message : Message}
    {rest : List Message} (shape : channel.inFlight = message :: rest) :
    channel.deliver.received = channel.received ++ [message] := by
  unfold deliver
  split
  next empty =>
    rw [shape] at empty
    cases empty
  next first others found =>
    rw [shape] at found
    rw [(List.cons.inj found).1]

section Numbered

variable (number : Message → Nat) {channel : Channel Message}

/-- The messages handed to the channel are numbered from one without a gap. -/
def Numbered (channel : Channel Message) : Prop :=
  channel.handed.map number = List.range' 1 channel.handed.length

def lastReceived (channel : Channel Message) : Nat :=
  ((channel.received.map number).getLast?).getD 0

variable {number}

theorem Numbered.increasing (numbered : channel.Numbered number) :
    ((channel.received ++ channel.inFlight).map number).Pairwise (· < ·) := by
  have sublist := channel.inOrder.map number
  rw [numbered] at sublist
  exact List.Pairwise.sublist sublist List.pairwise_lt_range'

theorem Numbered.bounds (numbered : channel.Numbered number) {message : Message}
    (membership : message ∈ channel.handed) :
    1 ≤ number message ∧ number message ≤ channel.handed.length := by
  have inRange : number message ∈ channel.handed.map number := List.mem_map_of_mem membership
  rw [numbered, List.mem_range'_1] at inRange
  omega

theorem lastReceived_eq_zero (empty : channel.received = []) :
    channel.lastReceived number = 0 := by
  simp [lastReceived, empty]

theorem lastReceived_concat {earlier : List Message} {last : Message}
    (shape : channel.received = earlier ++ [last]) :
    channel.lastReceived number = number last := by
  simp [lastReceived, shape]

/-- Everything received is numbered up to the last, everything in flight
beyond it. -/
theorem Numbered.separated (numbered : channel.Numbered number) :
    (∀ message ∈ channel.received, number message ≤ channel.lastReceived number) ∧
      ∀ message ∈ channel.inFlight, channel.lastReceived number < number message := by
  have increasing := numbered.increasing
  rw [List.map_append, List.pairwise_append] at increasing
  rcases List.eq_nil_or_concat channel.received with empty | ⟨earlier, last, shape⟩
  · rw [lastReceived_eq_zero empty, empty]
    refine ⟨by simp, fun message membership => ?_⟩
    have inHanded := channel.inOrder.subset (List.mem_append_right _ membership)
    exact (numbered.bounds inHanded).1
  · rw [List.concat_eq_append] at shape
    rw [lastReceived_concat shape]
    obtain ⟨received, _, across⟩ := increasing
    rw [shape, List.map_append, List.pairwise_append] at received
    constructor
    · intro message membership
      rw [shape, List.mem_append, List.mem_singleton] at membership
      rcases membership with before | rfl
      · exact Nat.le_of_lt
          (received.2.2 _ (List.mem_map_of_mem before) (number last) (by simp))
      · exact Nat.le_refl _
    · intro message membership
      exact across _ (List.mem_map_of_mem (by simp [shape])) _ (List.mem_map_of_mem membership)

theorem lastReceived_le (numbered : channel.Numbered number) :
    channel.lastReceived number ≤ channel.handed.length := by
  rcases List.eq_nil_or_concat channel.received with empty | ⟨earlier, last, shape⟩
  · rw [lastReceived_eq_zero empty]
    exact Nat.zero_le _
  · rw [List.concat_eq_append] at shape
    rw [lastReceived_concat shape]
    have inHanded : last ∈ channel.handed :=
      channel.inOrder.subset (List.mem_append_left _ (by simp [shape]))
    exact (numbered.bounds inHanded).2

theorem countP_range' (bound length : Nat) :
    (List.range' 1 length).countP (fun number => decide (number ≤ bound)) =
      min bound length := by
  induction length with
  | zero => simp
  | succ length inductionHypothesis =>
      rw [List.range'_1_concat, List.countP_append, inductionHypothesis, List.countP_singleton]
      split
      next inside =>
        have small : 1 + length ≤ bound := by simpa using inside
        omega
      next outside =>
        have large : bound < 1 + length := by simpa using outside
        omega

/-- The messages dropped before the last one received are those missing among
the messages received. -/
theorem Numbered.dropped_add_received (numbered : channel.Numbered number) :
    (channel.dropped.countP fun message =>
        decide (number message ≤ channel.lastReceived number)) +
      channel.received.length = channel.lastReceived number := by
  obtain ⟨upTo, beyond⟩ := numbered.separated
  have total : (channel.handed.countP fun message =>
      decide (number message ≤ channel.lastReceived number)) =
        channel.lastReceived number := by
    have counted := countP_range' (channel.lastReceived number) channel.handed.length
    rw [← numbered, List.countP_map] at counted
    exact counted.trans (Nat.min_eq_left (lastReceived_le numbered))
  have allReceived : (channel.received.countP fun message =>
      decide (number message ≤ channel.lastReceived number)) = channel.received.length := by
    rw [List.countP_eq_length]
    intro message membership
    exact decide_eq_true (upTo message membership)
  have noneInFlight : (channel.inFlight.countP fun message =>
      decide (number message ≤ channel.lastReceived number)) = 0 := by
    rw [List.countP_eq_zero]
    intro message membership
    simpa using beyond message membership
  have parts := channel.conserved.countP_eq fun message =>
    decide (number message ≤ channel.lastReceived number)
  rw [List.countP_append, List.countP_append] at parts
  omega

end Numbered

end Channel

end LossyChannel
