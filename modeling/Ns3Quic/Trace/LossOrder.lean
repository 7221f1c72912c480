import Ns3Quic.Trace.Goodput
import Mathlib.Data.List.Perm.Basic
import Mathlib.Order.MinMax

/-!
# Loss statistics and the order of arrival

A packet is late if a larger number arrived before it.  A trace counts as lost
every number up to the largest one, less the packets that were not late: a late
packet stays counted as lost, and a packet that repeats the largest number so
far is taken off once more.
-/

namespace Ns3Quic.Trace

/-! ## Largest number and late arrivals -/

def largestArrival (largest : Int) (numbers : List Int) : Int := numbers.foldl max largest

def timelyArrivals (largest : Int) : List Int → Nat
  | [] => 0
  | seq :: rest => (if largest ≤ seq then 1 else 0) + timelyArrivals (max largest seq) rest

theorem largestArrival_perm {left right : List Int} (permuted : left.Perm right) (largest : Int) :
    largestArrival largest left = largestArrival largest right :=
  permuted.foldl_eq' (fun first _ second _ current => max_right_comm current first second) largest

theorem le_largestArrival (largest : Int) (numbers : List Int) :
    largest ≤ largestArrival largest numbers ∧
      ∀ seq ∈ numbers, seq ≤ largestArrival largest numbers := by
  induction numbers generalizing largest with
  | nil => exact ⟨le_refl _, fun _ impossible => nomatch impossible⟩
  | cons first rest inductionHypothesis =>
      obtain ⟨before, later⟩ := inductionHypothesis (max largest first)
      refine ⟨le_trans (le_max_left _ _) before, List.forall_mem_cons.mpr ⟨?_, later⟩⟩
      exact le_trans (le_max_right _ _) before

theorem largestArrival_mem (largest : Int) (numbers : List Int) :
    largestArrival largest numbers = largest ∨ largestArrival largest numbers ∈ numbers := by
  induction numbers generalizing largest with
  | nil => exact .inl rfl
  | cons first rest inductionHypothesis =>
      rw [largestArrival, List.foldl_cons, ← largestArrival]
      rcases inductionHypothesis (max largest first) with same | later
      · rw [same]
        rcases max_choice largest first with old | new
        · exact .inl old
        · rw [new]
          exact .inr List.mem_cons_self
      · exact .inr (List.mem_cons_of_mem first later)

namespace Ns3QuicServerTrace

/-! ## The counters of a trace -/

/-- The loss counters when `largest` is the largest number so far and `timely`
packets were not late. -/
structure CountsArrivals (trace : Ns3QuicServerTrace) (largest : Int) (timely : Nat) : Prop where
  lostOpen : trace.lostOpen = true
  lastSeq : trace.lastSeq = largest
  largestSeq : trace.largestSeq = largest
  lostPackets : trace.lostPackets = largest - timely

theorem countsArrivals_create {e : UInt8} (enabled : (e &&& enableLost != 0) = true) :
    (create e).CountsArrivals 0 0 :=
  ⟨enabled, rfl, rfl, rfl⟩

theorem CountsArrivals.onOwd {trace : Ns3QuicServerTrace} {largest : Int} {timely : Nat}
    (counts : trace.CountsArrivals largest timely) (goodputInterval now : Nat)
    (seq owd len : Int) :
    (trace.onOwd goodputInterval now seq owd len).CountsArrivals (max largest seq)
      (timely + if largest ≤ seq then 1 else 0) := by
  obtain ⟨lostOpen, lastSeq, largestSeq, lostPackets⟩ := counts
  obtain ⟨sameOpen, sameLast, sameLargest, sameLost⟩ :=
    trace.logArrival_frame goodputInterval now seq owd len
  have larger : (if largest < seq then seq else largest) = max largest seq := by
    rw [max_def_lt]
  unfold Ns3QuicServerTrace.onOwd countLost
  rw [if_pos (sameOpen.trans lostOpen), sameLast, sameLargest, sameLost, lastSeq, largestSeq,
    lostPackets, larger]
  refine ⟨sameOpen.trans lostOpen, rfl, rfl, ?_⟩
  dsimp only
  by_cases timelyNow : largest ≤ seq
  · rw [if_pos (by omega), if_pos timelyNow, max_eq_right timelyNow]
    omega
  · rw [if_neg (by omega), if_neg timelyNow, max_eq_left (le_of_not_ge timelyNow)]
    omega

theorem CountsArrivals.afterCalls {trace : Ns3QuicServerTrace} {largest : Int} {timely : Nat}
    (counts : trace.CountsArrivals largest timely) (interval : Nat) (calls : List OwdCall) :
    (trace.afterCalls interval calls).CountsArrivals
      (largestArrival largest (calls.map OwdCall.seq))
      (timely + timelyArrivals largest (calls.map OwdCall.seq)) := by
  induction calls generalizing trace largest timely with
  | nil => exact counts
  | cons call rest inductionHypothesis =>
      have next := inductionHypothesis
        (counts.onOwd interval call.now call.seq call.owd call.len)
      rw [Nat.add_assoc] at next
      exact next

/-! ## Order and repetition -/

def SameLosses (left right : Ns3QuicServerTrace) : Prop :=
  left.lostPackets = right.lostPackets ∧ left.largestSeq = right.largestSeq

instance (left right : Ns3QuicServerTrace) : Decidable (SameLosses left right) :=
  inferInstanceAs (Decidable (_ ∧ _))

/-- Two orders of arrival leave the same statistics exactly if equally many
packets are late in both, and a packet that arrives again changes nothing
exactly if it is late. -/
theorem losses_independent_of_order_iff {e : UInt8}
    (enabled : (e &&& enableLost != 0) = true) (interval : Nat) :
    (∀ left right : List OwdCall,
        (left.map OwdCall.seq).Perm (right.map OwdCall.seq) →
        (SameLosses ((create e).afterCalls interval left)
            ((create e).afterCalls interval right) ↔
          timelyArrivals 0 (left.map OwdCall.seq) =
            timelyArrivals 0 (right.map OwdCall.seq))) ∧
      ∀ (calls : List OwdCall) (again : OwdCall), 0 < again.seq →
        again.seq ∈ calls.map OwdCall.seq →
        (SameLosses ((create e).afterCalls interval calls)
            ((create e).afterCalls interval (calls ++ [again])) ↔
          ∃ seq ∈ calls.map OwdCall.seq, again.seq < seq) := by
  have counts (calls : List OwdCall) :=
    (countsArrivals_create enabled).afterCalls interval calls
  constructor
  · intro left right permuted
    obtain ⟨_, _, leftLargest, leftLost⟩ := counts left
    obtain ⟨_, _, rightLargest, rightLost⟩ := counts right
    rw [SameLosses, leftLost, rightLost, leftLargest, rightLargest,
      largestArrival_perm permuted]
    omega
  · intro calls again positive repeated
    obtain ⟨_, _, largest, lost⟩ := counts calls
    obtain ⟨_, _, nextLargest, nextLost⟩ :=
      (counts calls).onOwd interval again.now again.seq again.owd again.len
    have atMost := (le_largestArrival 0 (calls.map OwdCall.seq)).2 again.seq repeated
    have late_iff : again.seq < largestArrival 0 (calls.map OwdCall.seq) ↔
        ∃ seq ∈ calls.map OwdCall.seq, again.seq < seq := by
      constructor
      · intro late
        rcases largestArrival_mem 0 (calls.map OwdCall.seq) with noneArrived | arrived
        · omega
        · exact ⟨_, arrived, late⟩
      · rintro ⟨seq, arrived, later⟩
        exact lt_of_lt_of_le later ((le_largestArrival 0 _).2 seq arrived)
    have appended : (create e).afterCalls interval (calls ++ [again]) =
        ((create e).afterCalls interval calls).onOwd interval again.now again.seq again.owd
          again.len :=
      List.foldl_append
    rw [SameLosses, appended, lost, nextLost, largest, nextLargest, max_eq_left atMost,
      ← late_iff]
    split
    next timely => omega
    next late => omega

def arrival (seq : Int) : OwdCall := ⟨1000000, seq, 5, 100⟩

/-- Two orders with two late packets each, and a late packet that arrives twice. -/
theorem losses_independent_of_order_late :
    SameLosses ((create enableLost).afterCalls 100 [arrival 5, arrival 2, arrival 3])
        ((create enableLost).afterCalls 100 [arrival 5, arrival 3, arrival 2]) ∧
      SameLosses ((create enableLost).afterCalls 100 [arrival 2, arrival 3])
        ((create enableLost).afterCalls 100 ([arrival 2, arrival 3] ++ [arrival 2])) :=
  ⟨((losses_independent_of_order_iff (by decide) 100).1 _ _ (by decide)).mpr (by decide),
    ((losses_independent_of_order_iff (by decide) 100).2 [arrival 2, arrival 3] (arrival 2)
      (by decide) (by decide)).mpr (by decide)⟩

/-- No packet is missing, but one is counted as lost if the two arrive in the
other order, and minus one if the only packet arrives twice. -/
theorem late_packet_stays_lost :
    ((create enableLost).afterCalls 100 [arrival 1, arrival 2]).lostPackets = 0 ∧
      ((create enableLost).afterCalls 100 [arrival 2, arrival 1]).lostPackets = 1 ∧
      ((create enableLost).afterCalls 100 [arrival 1]).lostPackets = 0 ∧
      ((create enableLost).afterCalls 100 [arrival 1, arrival 1]).lostPackets = -1 := by
  decide

end Ns3QuicServerTrace

end Ns3Quic.Trace
