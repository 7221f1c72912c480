import Ns3Quic.Trace.ServerTrace
import Mathlib.Algebra.BigOperators.Group.List.Basic
import Mathlib.Data.Int.Basic
import Mathlib.Data.List.TakeWhile

/-!
# The goodput samples of a flow

`samples` says which samples a trace takes of a flow from the arrivals alone.
A period of the flow begins at its first arrival, and ends with the first
arrival at least an interval later, which is sampled and begins the next
period.  What is left when the trace is destroyed is sampled if its arrivals
are later than the beginning of the period.

A trace that logs delays and goodput takes these samples.  A trace that logs
the goodput only does not, as the time of the last receipt is kept with the log
of the delays.
-/

namespace Ns3Quic.Trace

structure OwdCall where
  now : Nat
  seq : Int
  owd : Int
  len : Int
  deriving DecidableEq

/-- Whether the call is made at time zero, which is taken for an unset time. -/
def OwdCall.atZero (call : OwdCall) : Bool := call.now == 0

theorem OwdCall.atZero_iff {call : OwdCall} : call.atZero = true ↔ call.now = 0 :=
  beq_iff_eq

def GoodputLine.milliseconds (line : GoodputLine) : Nat := line.delta / 1000000

/-- The beginning of the current period at an arrival, where zero is unset. -/
def periodStart (base now : Nat) : Nat := if base = 0 then now else base

/-- The samples of the arrivals that remain, when the current period began at
`base`, the latest arrival was at `latest` and `pending` bytes are not sampled. -/
def samples (interval base latest : Nat) (pending : Int) : List OwdCall → List GoodputLine
  | [] => if base < latest then [⟨latest, pending, latest - base⟩] else []
  | call :: rest =>
      if periodStart base call.now + interval ≤ call.now then
        ⟨call.now, pending + call.len, call.now - periodStart base call.now⟩ ::
          samples interval call.now call.now 0 rest
      else
        samples interval (periodStart base call.now) call.now (pending + call.len) rest

def lastArrival (latest : Nat) (calls : List OwdCall) : Nat :=
  calls.foldl (fun _ call => call.now) latest

def lastPeriod (interval base : Nat) (calls : List OwdCall) : Nat :=
  calls.foldl (fun base call =>
    if periodStart base call.now + interval ≤ call.now then call.now
    else periodStart base call.now) base

namespace Ns3QuicServerTrace

def afterCalls (trace : Ns3QuicServerTrace) (interval : Nat) (calls : List OwdCall) :
    Ns3QuicServerTrace :=
  calls.foldl (fun trace call =>
    trace.onOwd interval call.now call.seq call.owd call.len) trace

/-- All samples that a trace writes, the one of the destructor included. -/
def goodputSamples (e : UInt8) (interval : Nat) (calls : List OwdCall) : List GoodputLine :=
  ((create e).afterCalls interval calls).logGoodputDtor.goodputLog

/-! ## Traces and samples -/

/-- The state of a goodput log: `log` was written, the current period began at
`base`, the last receipt was at `latest`, and `pending` bytes are not sampled.
Without the log of the delays there is no receipt. -/
structure Measures (trace : Ns3QuicServerTrace) (owd : Bool) (log : List GoodputLine)
    (base latest : Nat) (pending : Int) : Prop where
  owdOpen : trace.owdOpen = owd
  goodputOpen : trace.goodputOpen = true
  firstPacketTime : trace.firstPacketTime = 0 ↔ base = 0
  lastRateTime : trace.lastRateTime = base
  receiptTime : trace.receiptTime = latest
  unreceived : owd = false → latest = 0
  pending : trace.readBytes - trace.lastRateBytes = pending
  log : trace.goodputLog = log

theorem measures_create {e : UInt8} (goodput : (e &&& enableGoodput != 0) = true) :
    (create e).Measures (e &&& enableOwd != 0) [] 0 0 0 :=
  ⟨rfl, goodput, Iff.rfl, rfl, rfl, fun _ => rfl, rfl, rfl⟩

namespace Measures

variable {trace : Ns3QuicServerTrace} {owd : Bool} {log : List GoodputLine}
  {base latest : Nat} {pending : Int}

theorem countLost (measures : trace.Measures owd log base latest pending) (seq : Int) :
    (trace.countLost seq).Measures owd log base latest pending := by
  unfold Ns3QuicServerTrace.countLost
  split
  next => exact { measures with }
  next => exact measures

theorem start (measures : trace.Measures owd log base latest pending) (now : Nat) :
    (if trace.firstPacketTime = 0 then
        { trace with firstPacketTime := now, lastRateTime := now }
      else trace).Measures owd log (periodStart base now) latest pending := by
  unfold periodStart
  by_cases first : trace.firstPacketTime = 0
  · rw [if_pos first, if_pos (measures.firstPacketTime.mp first)]
    exact { measures with firstPacketTime := Iff.rfl, lastRateTime := rfl }
  · rw [if_neg first, if_neg (measures.firstPacketTime.not.mp first)]
    exact measures

theorem count (measures : trace.Measures owd log base latest pending) (len : Int) :
    { trace with readBytes := trace.readBytes + len }.Measures owd log base latest
      (pending + len) :=
  { measures with
    pending := by
      dsimp only
      rw [← measures.pending]
      omega }

theorem receive (measures : trace.Measures owd log base latest pending) (now : Nat)
    (line : OwdLine) :
    (if trace.owdOpen then
        { trace with owdLog := trace.owdLog ++ [line], receiptTime := now }
      else trace).Measures owd log base (if owd then now else latest) pending := by
  cases owd with
  | false =>
      rw [if_neg (by rw [measures.owdOpen]; exact Bool.false_ne_true)]
      exact measures
  | true =>
      rw [if_pos measures.owdOpen]
      exact { measures with receiptTime := rfl, unreceived := fun closed => nomatch closed }

theorem sample_due (measures : trace.Measures owd log base latest pending) {interval : Nat}
    (due : base + interval ≤ latest) (unset : base = 0 → latest = 0) :
    (trace.logGoodput interval).Measures owd (log ++ [⟨latest, pending, latest - base⟩])
      latest latest 0 := by
  unfold logGoodput
  rw [measures.lastRateTime, measures.receiptTime, measures.pending, measures.log,
    if_pos ⟨measures.goodputOpen, due⟩]
  have started : trace.firstPacketTime = 0 ↔ latest = 0 := by
    rw [measures.firstPacketTime]
    omega
  exact { measures with
    firstPacketTime := started
    lastRateTime := rfl
    receiptTime := rfl
    pending := Int.sub_self _
    log := rfl }

theorem sample_early (measures : trace.Measures owd log base latest pending) {interval : Nat}
    (early : ¬base + interval ≤ latest) :
    (trace.logGoodput interval).Measures owd log base latest pending := by
  unfold logGoodput
  rw [measures.lastRateTime, measures.receiptTime, if_neg (fun both => early both.2)]
  exact measures

theorem logArrival (measures : trace.Measures owd log base latest pending) (interval now : Nat)
    (seq delay len : Int) :
    ∃ received : Ns3QuicServerTrace,
      trace.logArrival interval now seq delay len = received.logGoodput interval ∧
      received.Measures owd log (periodStart base now) (if owd then now else latest)
        (pending + len) := by
  refine ⟨_, ?_, ((measures.start now).count len).receive now ⟨now, seq, delay, len⟩⟩
  unfold Ns3QuicServerTrace.logArrival
  rw [if_pos (by rw [measures.goodputOpen, Bool.or_true])]

theorem onOwd_due (measures : trace.Measures owd log base latest pending) {interval : Nat}
    (call : OwdCall)
    (due : periodStart base call.now + interval ≤ if owd then call.now else latest) :
    (trace.onOwd interval call.now call.seq call.owd call.len).Measures owd
      (log ++ [⟨if owd then call.now else latest, pending + call.len,
        (if owd then call.now else latest) - periodStart base call.now⟩])
      (if owd then call.now else latest) (if owd then call.now else latest) 0 := by
  obtain ⟨received, shape, arrived⟩ :=
    measures.logArrival interval call.now call.seq call.owd call.len
  have unset : periodStart base call.now = 0 → (if owd then call.now else latest) = 0 := by
    unfold periodStart
    cases owd with
    | false => exact fun _ => measures.unreceived rfl
    | true =>
        split
        next => exact id
        next started => exact fun ended => absurd ended started
  unfold Ns3QuicServerTrace.onOwd
  rw [shape]
  exact (arrived.sample_due due unset).countLost call.seq

theorem onOwd_early (measures : trace.Measures owd log base latest pending) {interval : Nat}
    (call : OwdCall)
    (early : ¬periodStart base call.now + interval ≤ if owd then call.now else latest) :
    (trace.onOwd interval call.now call.seq call.owd call.len).Measures owd log
      (periodStart base call.now) (if owd then call.now else latest) (pending + call.len) := by
  obtain ⟨received, shape, arrived⟩ :=
    measures.logArrival interval call.now call.seq call.owd call.len
  unfold Ns3QuicServerTrace.onOwd
  rw [shape]
  exact (arrived.sample_early early).countLost call.seq

theorem goodputLog_dtor (measures : trace.Measures owd log base latest pending)
    (interval : Nat) :
    trace.logGoodputDtor.goodputLog = log ++ samples interval base latest pending [] := by
  unfold logGoodputDtor samples
  rw [measures.lastRateTime, measures.receiptTime, measures.pending, measures.log]
  by_cases later : base < latest
  · rw [if_pos ⟨measures.goodputOpen, later⟩, if_pos later]
  · rw [if_neg (fun both => later both.2), if_neg later, List.append_nil]
    exact measures.log

theorem goodputLog_eq_samples (measures : trace.Measures true log base latest pending)
    (interval : Nat) (calls : List OwdCall) :
    (trace.afterCalls interval calls).logGoodputDtor.goodputLog =
      log ++ samples interval base latest pending calls := by
  induction calls generalizing trace log base latest pending with
  | nil => exact measures.goodputLog_dtor interval
  | cons call rest inductionHypothesis =>
      unfold samples
      by_cases due : periodStart base call.now + interval ≤ call.now
      · rw [if_pos due, List.append_cons]
        exact inductionHypothesis (measures.onOwd_due call due)
      · rw [if_neg due]
        exact inductionHypothesis (measures.onOwd_early call due)

theorem goodputLog_unreceived (measures : trace.Measures false log base latest pending)
    (started : base ≠ 0) (interval : Nat) (calls : List OwdCall) :
    (trace.afterCalls interval calls).logGoodputDtor.goodputLog = log := by
  have unreceived := measures.unreceived rfl
  induction calls generalizing trace base latest pending with
  | nil =>
      rw [unreceived] at measures
      rw [afterCalls, List.foldl_nil, measures.goodputLog_dtor interval]
      exact List.append_nil log
  | cons call rest inductionHypothesis =>
      have same : periodStart base call.now = base := if_neg started
      have early : ¬periodStart base call.now + interval ≤
          if false then call.now else latest := by
        rw [same, if_neg Bool.false_ne_true]
        omega
      have next := measures.onOwd_early call early
      rw [same] at next
      exact inductionHypothesis next started unreceived

/-- A trace that does not log the delays takes the samples of the arrivals at
time zero. -/
theorem goodputLog_eq_samples_takeWhile
    (measures : trace.Measures false log 0 0 pending) (interval : Nat)
    (calls : List OwdCall) :
    (trace.afterCalls interval calls).logGoodputDtor.goodputLog =
      log ++ samples interval 0 0 pending (calls.takeWhile OwdCall.atZero) := by
  induction calls generalizing trace log pending with
  | nil => exact measures.goodputLog_dtor interval
  | cons call rest inductionHypothesis =>
      obtain ⟨now, seq, delay, len⟩ := call
      by_cases zero : now = 0
      · subst zero
        rw [List.takeWhile_cons_of_pos rfl]
        unfold samples
        by_cases due : 0 + interval ≤ 0
        · have next := inductionHypothesis (measures.onOwd_due ⟨0, seq, delay, len⟩ due)
          rw [← List.append_cons] at next
          exact next.trans (congrArg _ (if_pos due).symm)
        · have next := inductionHypothesis (measures.onOwd_early ⟨0, seq, delay, len⟩ due)
          exact next.trans (congrArg _ (if_neg due).symm)
      · rw [List.takeWhile_cons_of_neg (OwdCall.atZero_iff.not.mpr zero)]
        have early : ¬now + interval ≤ 0 := by omega
        have next := measures.onOwd_early ⟨now, seq, delay, len⟩ early
        exact (next.goodputLog_unreceived zero interval rest).trans (List.append_nil log).symm

end Measures

theorem logGoodput_closed {trace : Ns3QuicServerTrace} (closed : trace.goodputOpen = false)
    (interval : Nat) : trace.logGoodput interval = trace := by
  unfold logGoodput
  rw [closed, if_neg (fun both => Bool.false_ne_true both.1)]

theorem onOwd_closed {trace : Ns3QuicServerTrace} (closed : trace.goodputOpen = false)
    (interval now : Nat) (seq owd len : Int) :
    (trace.onOwd interval now seq owd len).goodputOpen = false ∧
      (trace.onOwd interval now seq owd len).goodputLog = trace.goodputLog := by
  have arrival : (trace.logArrival interval now seq owd len).goodputOpen = false ∧
      (trace.logArrival interval now seq owd len).goodputLog = trace.goodputLog := by
    unfold logArrival
    split
    next =>
      dsimp only
      rw [logGoodput_closed (by split <;> split <;> exact closed)]
      split <;> split <;> exact ⟨closed, rfl⟩
    next => exact ⟨closed, rfl⟩
  unfold onOwd countLost
  split
  next => exact arrival
  next => exact arrival

theorem afterCalls_closed {trace : Ns3QuicServerTrace} (closed : trace.goodputOpen = false)
    (interval : Nat) (calls : List OwdCall) :
    (trace.afterCalls interval calls).logGoodputDtor.goodputLog = trace.goodputLog := by
  induction calls generalizing trace with
  | nil =>
      unfold afterCalls logGoodputDtor
      rw [List.foldl_nil, closed, if_neg (fun both => Bool.false_ne_true both.1)]
  | cons call rest inductionHypothesis =>
      obtain ⟨stillClosed, sameLog⟩ :=
        onOwd_closed closed interval call.now call.seq call.owd call.len
      exact (inductionHypothesis stillClosed).trans sameLog

section Samples

variable {e : UInt8}

theorem goodputSamples_eq (owd : (e &&& enableOwd != 0) = true)
    (goodput : (e &&& enableGoodput != 0) = true) (interval : Nat) (calls : List OwdCall) :
    goodputSamples e interval calls = samples interval 0 0 0 calls := by
  have measures := measures_create goodput
  rw [owd] at measures
  exact measures.goodputLog_eq_samples interval calls

/-- Without the delays, only arrivals at time zero are sampled. -/
theorem goodputSamples_eq_takeWhile (owd : (e &&& enableOwd != 0) = false)
    (goodput : (e &&& enableGoodput != 0) = true) (interval : Nat) (calls : List OwdCall) :
    goodputSamples e interval calls =
      samples interval 0 0 0 (calls.takeWhile OwdCall.atZero) := by
  have measures := measures_create goodput
  rw [owd] at measures
  exact measures.goodputLog_eq_samples_takeWhile interval calls

theorem goodputSamples_eq_nil (goodput : (e &&& enableGoodput != 0) = false) (interval : Nat)
    (calls : List OwdCall) : goodputSamples e interval calls = [] :=
  afterCalls_closed goodput interval calls

end Samples

end Ns3QuicServerTrace

/-! ## Totals of the samples -/

/-- The samples of arrivals in order of time account for every byte and for the
time since `base`, unless all of them are at `base`. -/
theorem samples_account (interval : Nat) {base latest : Nat} (pending : Int)
    {calls : List OwdCall} (started : base ≠ 0) (begun : base ≤ latest)
    (settled : calls = [] → base = latest → pending = 0)
    (increasing : calls.Pairwise (·.now < ·.now)) (later : ∀ call ∈ calls, latest < call.now) :
    ((samples interval base latest pending calls).map GoodputLine.bytes).sum =
        pending + (calls.map OwdCall.len).sum ∧
      base + ((samples interval base latest pending calls).map GoodputLine.delta).sum =
        lastArrival latest calls := by
  induction calls generalizing base latest pending with
  | nil =>
      unfold samples
      split
      next more =>
        rw [List.map_singleton, List.map_singleton, List.sum_singleton, List.sum_singleton]
        exact ⟨(Int.add_zero pending).symm, Nat.add_sub_cancel' begun⟩
      next tooShort =>
        have same : base = latest := by omega
        rw [settled rfl same]
        exact ⟨rfl, same⟩
  | cons call rest inductionHypothesis =>
      have same : periodStart base call.now = base := if_neg started
      have after := later call List.mem_cons_self
      obtain ⟨afterCall, increasing⟩ := List.pairwise_cons.mp increasing
      unfold samples
      rw [same]
      split
      next due =>
        have ⟨bytes, delta⟩ := @inductionHypothesis call.now call.now 0 (by omega) le_rfl
          (fun _ _ => rfl) increasing afterCall
        simp only [List.map_cons, List.sum_cons]
        change _ ∧ _ = lastArrival call.now rest
        omega
      next early =>
        have ⟨bytes, delta⟩ := @inductionHypothesis base call.now (pending + call.len) started
          (by omega) (fun _ same => by omega) increasing afterCall
        rw [List.map_cons, List.sum_cons, bytes]
        exact ⟨Int.add_assoc _ _ _, delta⟩

namespace Ns3QuicServerTrace

/-- Over the life of a trace that logs delays and goodput, every byte of a flow of
at least two packets is in one sample, and the samples cover the time from the
first packet to the last. -/
theorem goodput_samples_account {e : UInt8} (owd : (e &&& enableOwd != 0) = true)
    (goodput : (e &&& enableGoodput != 0) = true) (interval : Nat) (first second : OwdCall)
    (rest : List OwdCall) (positive : ∀ call ∈ first :: second :: rest, 0 < call.now)
    (increasing : (first :: second :: rest).Pairwise (·.now < ·.now)) :
    ((goodputSamples e interval (first :: second :: rest)).map GoodputLine.bytes).sum =
        ((first :: second :: rest).map OwdCall.len).sum ∧
      ((goodputSamples e interval (first :: second :: rest)).map GoodputLine.delta).sum =
        lastArrival 0 (first :: second :: rest) - first.now := by
  have started : first.now ≠ 0 := Nat.ne_of_gt (positive first List.mem_cons_self)
  obtain ⟨later, increasing⟩ := List.pairwise_cons.mp increasing
  have account (pending : Int) := samples_account interval pending started le_rfl
    (fun empty => absurd empty (List.cons_ne_nil second rest)) increasing later
  rw [goodputSamples_eq owd goodput]
  unfold samples
  rw [show periodStart 0 first.now = first.now from if_pos rfl, List.map_cons, List.sum_cons]
  change _ ∧ _ = lastArrival first.now (second :: rest) - first.now
  split
  next =>
    -- with an interval of zero, the first packet is a sample of its own
    obtain ⟨bytes, delta⟩ := account 0
    simp only [List.map_cons, List.sum_cons] at bytes ⊢
    omega
  next =>
    obtain ⟨bytes, delta⟩ := account (0 + first.len)
    rw [bytes, ← delta]
    omega

/-- Three packets of which the second is sampled, and the third by the
destructor. -/
theorem goodput_samples_account_three :
    goodputSamples 3 1000 [⟨1, 1, 0, 100⟩, ⟨1001, 2, 0, 200⟩, ⟨1501, 3, 0, 300⟩] =
        [⟨1001, 300, 1000⟩, ⟨1501, 300, 500⟩] ∧
      ((goodputSamples 3 1000 [⟨1, 1, 0, 100⟩, ⟨1001, 2, 0, 200⟩,
        ⟨1501, 3, 0, 300⟩]).map GoodputLine.bytes).sum = 600 :=
  ⟨by decide, (goodput_samples_account (by decide) (by decide) 1000 ⟨1, 1, 0, 100⟩
    ⟨1001, 2, 0, 200⟩ [⟨1501, 3, 0, 300⟩] (by decide) (by decide)).1⟩

end Ns3QuicServerTrace

/-! ## Goodput without delays -/

/-- Nothing is sampled if no arrival is an interval after the beginning of the
period and the last one is not later than it. -/
theorem samples_eq_nil_iff {interval base latest : Nat} {pending : Int} {calls : List OwdCall}
    (started : base ≠ 0) :
    samples interval base latest pending calls = [] ↔
      (∀ call ∈ calls, call.now < base + interval) ∧ lastArrival latest calls ≤ base := by
  induction calls generalizing latest pending with
  | nil =>
      unfold samples
      split
      next more =>
        exact iff_of_false (List.cons_ne_nil _ _)
          (fun both => absurd both.2 (Nat.not_le.mpr more))
      next tooShort => exact iff_of_true rfl ⟨List.forall_mem_nil _, Nat.not_lt.mp tooShort⟩
  | cons call rest inductionHypothesis =>
      have same : periodStart base call.now = base := if_neg started
      unfold samples
      rw [same, List.forall_mem_cons]
      split
      next due =>
        exact iff_of_false (List.cons_ne_nil _ _)
          (fun both => absurd both.1.1 (Nat.not_lt.mpr due))
      next early =>
        rw [inductionHypothesis]
        exact and_congr_left fun _ => (and_iff_right (Nat.not_le.mp early)).symm

/-- No arrival from the first one at a positive time on is sampled. -/
def Unsampled (interval : Nat) (calls : List OwdCall) : Prop :=
  match calls.dropWhile OwdCall.atZero with
  | [] => True
  | first :: rest =>
      0 < interval ∧ (∀ call ∈ rest, call.now < first.now + interval) ∧
        lastArrival first.now rest ≤ first.now

instance (interval : Nat) (calls : List OwdCall) : Decidable (Unsampled interval calls) := by
  unfold Unsampled
  split
  · infer_instance
  · infer_instance

theorem le_lastArrival {latest : Nat} {calls : List OwdCall}
    (ordered : calls.Pairwise (·.now ≤ ·.now)) {call : OwdCall} (membership : call ∈ calls) :
    call.now ≤ lastArrival latest calls := by
  induction calls generalizing latest call with
  | nil => cases membership
  | cons first rest inductionHypothesis =>
      obtain ⟨later, remaining⟩ := List.pairwise_cons.mp ordered
      rcases List.mem_cons.mp membership with rfl | among
      · cases rest with
        | nil => exact Nat.le_refl _
        | cons second rest =>
            exact (later second List.mem_cons_self).trans
              (@inductionHypothesis call.now remaining second List.mem_cons_self)
      · exact inductionHypothesis remaining among

theorem lastArrival_eq_of_simultaneous {latest : Nat} {calls : List OwdCall}
    (simultaneous : ∀ call ∈ calls, call.now = latest) : lastArrival latest calls = latest := by
  induction calls with
  | nil => rfl
  | cons call rest inductionHypothesis =>
      obtain ⟨now, simultaneous⟩ := List.forall_mem_cons.mp simultaneous
      rw [lastArrival, List.foldl_cons, now]
      exact inductionHypothesis simultaneous

/-- As time does not run back, the interval is positive and the arrivals at
positive times are at one time. -/
theorem unsampled_iff_of_ordered {interval : Nat} {calls : List OwdCall}
    (ordered : calls.Pairwise (·.now ≤ ·.now)) :
    Unsampled interval calls ↔
      ∀ first ∈ calls, ∀ second ∈ calls, 0 < first.now → 0 < second.now →
        0 < interval ∧ first.now = second.now := by
  induction calls with
  | nil => exact iff_of_true trivial (List.forall_mem_nil _)
  | cons call rest inductionHypothesis =>
      obtain ⟨later, ordered⟩ := List.pairwise_cons.mp ordered
      by_cases zero : call.atZero = true
      · have atZero := OwdCall.atZero_iff.mp zero
        unfold Unsampled
        rw [List.dropWhile_cons_of_pos zero]
        simp only [List.forall_mem_cons, atZero, Nat.lt_irrefl, false_implies, implies_true,
          true_and]
        exact inductionHypothesis ordered
      · have timed : 0 < call.now := Nat.pos_of_ne_zero (OwdCall.atZero_iff.not.mp zero)
        unfold Unsampled
        rw [List.dropWhile_cons_of_neg zero]
        constructor
        · rintro ⟨positive, -, last⟩
          have same (other : OwdCall) (membership : other ∈ call :: rest) :
              other.now = call.now := by
            rcases List.mem_cons.mp membership with rfl | among
            · rfl
            · exact ((le_lastArrival ordered among).trans last).antisymm (later other among)
          intro first firstMember second secondMember _ _
          exact ⟨positive, (same first firstMember).trans (same second secondMember).symm⟩
        · intro same
          have positive := (same call List.mem_cons_self call List.mem_cons_self timed timed).1
          have equal (other : OwdCall) (among : other ∈ rest) : other.now = call.now :=
            (same other (List.mem_cons_of_mem _ among) call List.mem_cons_self
              (timed.trans_le (later other among)) timed).2
          refine ⟨positive, fun other among => ?_, ?_⟩
          · rw [equal other among]
            exact Nat.lt_add_of_pos_right positive
          · exact (lastArrival_eq_of_simultaneous equal).le

theorem samples_eq_takeWhile_iff (interval : Nat) (pending : Int) (calls : List OwdCall) :
    samples interval 0 0 pending (calls.takeWhile OwdCall.atZero) =
        samples interval 0 0 pending calls ↔
      Unsampled interval calls := by
  induction calls generalizing pending with
  | nil => exact iff_of_true rfl trivial
  | cons call rest inductionHypothesis =>
      obtain ⟨now, seq, delay, len⟩ := call
      by_cases zero : now = 0
      · subst zero
        rw [List.takeWhile_cons_of_pos rfl]
        unfold samples
        change (if 0 + interval ≤ 0 then _ else _) = (if 0 + interval ≤ 0 then _ else _) ↔
          Unsampled interval rest
        by_cases due : 0 + interval ≤ 0
        · rw [if_pos due, if_pos due, List.cons_inj_right]
          exact inductionHypothesis 0
        · rw [if_neg due, if_neg due]
          exact inductionHypothesis (pending + len)
      · have timed : ¬OwdCall.atZero ⟨now, seq, delay, len⟩ = true :=
          OwdCall.atZero_iff.not.mpr zero
        unfold Unsampled
        rw [List.takeWhile_cons_of_neg timed, List.dropWhile_cons_of_neg timed]
        change [] = (if now + interval ≤ now then _ else samples interval now now _ rest) ↔ _
        split
        next due =>
          have zero : interval = 0 := by omega
          exact iff_of_false (List.cons_ne_nil _ _).symm
            (fun both => absurd both.1 (zero ▸ Nat.lt_irrefl 0))
        next early =>
          have positive : 0 < interval := by omega
          rw [eq_comm, samples_eq_nil_iff zero]
          exact (and_iff_right positive).symm

namespace Ns3QuicServerTrace

/-- Logging the goodput alone gives the samples that logging the delays as well
gives if and only if none of these has to be taken.  Only the log of the delays
keeps the time of the last receipt. -/
theorem goodput_independent_of_owd_iff (interval : Nat) (calls : List OwdCall) :
    goodputSamples enableGoodput interval calls =
        goodputSamples (enableOwd ||| enableGoodput) interval calls ↔
      Unsampled interval calls := by
  rw [goodputSamples_eq_takeWhile (by decide) (by decide),
    goodputSamples_eq (by decide) (by decide)]
  exact samples_eq_takeWhile_iff interval 0 calls

/-- Two packets a second apart. -/
theorem goodput_lost_without_owd :
    goodputSamples enableGoodput 1000000000
        [⟨1000000000, 1, 0, 100⟩, ⟨2000000000, 2, 0, 200⟩] = [] ∧
      goodputSamples (enableOwd ||| enableGoodput) 1000000000
        [⟨1000000000, 1, 0, 100⟩, ⟨2000000000, 2, 0, 200⟩] =
        [⟨2000000000, 300, 1000000000⟩] := by
  decide

end Ns3QuicServerTrace

/-! ## Times that samples divide by -/

theorem lastArrival_takeWhile (calls : List OwdCall) :
    lastArrival 0 (calls.takeWhile OwdCall.atZero) = 0 :=
  lastArrival_eq_of_simultaneous fun _ among =>
    OwdCall.atZero_iff.mp (List.mem_takeWhile_imp among)

/-- Samples of whole periods divide by at least a millisecond.  What is left in the
end may be less. -/
theorem milliseconds_positive_iff {interval base latest : Nat} {pending : Int}
    {calls : List OwdCall} (millisecond : 1000000 ≤ interval) :
    (∀ line ∈ samples interval base latest pending calls, 0 < line.milliseconds) ↔
      lastArrival latest calls ≤ lastPeriod interval base calls ∨
        lastPeriod interval base calls + 1000000 ≤ lastArrival latest calls := by
  induction calls generalizing base latest pending with
  | nil =>
      change _ ↔ latest ≤ base ∨ base + 1000000 ≤ latest
      unfold samples
      split
      next more =>
        rw [List.forall_mem_singleton]
        unfold GoodputLine.milliseconds
        dsimp only
        omega
      next tooShort => exact iff_of_true (List.forall_mem_nil _) (.inl (Nat.not_lt.mp tooShort))
  | cons call rest inductionHypothesis =>
      change _ ↔ lastArrival call.now rest ≤ lastPeriod interval (if _ then _ else _) rest ∨
        lastPeriod interval (if _ then _ else _) rest + 1000000 ≤ lastArrival call.now rest
      unfold samples
      split
      next due =>
        have whole : 0 < (call.now - periodStart base call.now) / 1000000 := by omega
        rw [List.forall_mem_cons, inductionHypothesis]
        exact and_iff_right whole
      next early => exact inductionHypothesis

namespace Ns3QuicServerTrace

/-- For an interval of at least a millisecond, every sample divides by a positive
number of milliseconds if and only if the last arrival is not within a millisecond
after the beginning of its period. -/
theorem samples_divide_by_positive_iff (e : UInt8) {interval : Nat}
    (millisecond : 1000000 ≤ interval) (calls : List OwdCall) :
    (∀ line ∈ goodputSamples e interval calls, 0 < line.milliseconds) ↔
      ((e &&& enableOwd != 0) = true → (e &&& enableGoodput != 0) = true →
        lastArrival 0 calls ≤ lastPeriod interval 0 calls ∨
          lastPeriod interval 0 calls + 1000000 ≤ lastArrival 0 calls) := by
  cases goodput : e &&& enableGoodput != 0 with
  | false =>
      rw [goodputSamples_eq_nil goodput]
      exact iff_of_true (List.forall_mem_nil _) (fun _ closed => nomatch closed)
  | true =>
      cases owd : e &&& enableOwd != 0 with
      | false =>
          rw [goodputSamples_eq_takeWhile owd goodput, milliseconds_positive_iff millisecond,
            lastArrival_takeWhile]
          exact iff_of_true (.inl (Nat.zero_le _)) (fun closed => nomatch closed)
      | true =>
          rw [goodputSamples_eq owd goodput, milliseconds_positive_iff millisecond]
          exact ⟨fun holds _ _ => holds, fun holds => holds rfl rfl⟩

/-- Packets at one, two and four milliseconds, sampled every two. -/
theorem samples_divide_by_positive_iff_whole :
    goodputSamples 3 2000000 [⟨1000000, 1, 0, 100⟩, ⟨2000000, 2, 0, 200⟩,
        ⟨4000000, 3, 0, 300⟩] = [⟨4000000, 600, 3000000⟩] ∧
      ∀ line ∈ goodputSamples 3 2000000 [⟨1000000, 1, 0, 100⟩, ⟨2000000, 2, 0, 200⟩,
        ⟨4000000, 3, 0, 300⟩], 0 < line.milliseconds :=
  ⟨by decide, (samples_divide_by_positive_iff 3 (by decide) _).mpr (by decide)⟩

/-- Two packets half a millisecond apart, which only the destructor samples. -/
theorem destructor_divides_by_zero :
    (goodputSamples 3 1000000 [⟨1000000, 1, 0, 100⟩, ⟨1500000, 2, 0, 200⟩]).map
      (fun line => (line, line.milliseconds)) = [(⟨1500000, 300, 500000⟩, 0)] := by
  decide

end Ns3QuicServerTrace

end Ns3Quic.Trace
