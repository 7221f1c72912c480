import Ns3Quic.Lib.Run
import Ns3Quic.Tcp.TcpSink
import Ns3Quic.Tcp.TcpTracer

/-!
# Finished sessions

The sinks of an experiment report the end of their sessions to one `InfoPriv`,
which counts them.  A sink compares the bytes received with the registered
number at the end of every `HandleRead`, so it reports again whenever it is
called after the last byte.
-/

namespace Ns3Quic.Tcp

open TransitionSystem

namespace TcpSink

def finished (sink : TcpSink) : Bool :=
  decide (0 < sink.totalBytes ∧ sink.totalBytes = sink.rxBytes)

def finishedBytes (sink : TcpSink) : Nat := if sink.finished then sink.totalBytes.toNat else 0

theorem finished_iff {sink : TcpSink} :
    sink.finished = true ↔ 0 < sink.totalBytes ∧ sink.totalBytes = sink.rxBytes :=
  decide_eq_true_iff

theorem le_receive (rxBytes : Nat) (packets : List Nat) : rxBytes ≤ receive rxBytes packets := by
  induction packets generalizing rxBytes with
  | nil => exact le_refl rxBytes
  | cons size rest inductionHypothesis =>
      rw [receive]
      split
      next => exact le_refl rxBytes
      next => exact le_trans (Nat.le_add_right _ _) (inductionHypothesis _)

theorem countRate_frame (sink : TcpSink) (rateCountGap now : Nat) :
    (sink.countRate rateCountGap now).rxBytes = sink.rxBytes ∧
      (sink.countRate rateCountGap now).totalBytes = sink.totalBytes ∧
      (sink.countRate rateCountGap now).sessionStops = sink.sessionStops := by
  unfold countRate
  dsimp only
  split <;> split <;> exact ⟨rfl, rfl, rfl⟩

theorem handleRead_spec (sink : TcpSink) (rateCountGap now : Nat) (packets : List Nat) :
    (sink.handleRead rateCountGap now packets).totalBytes = sink.totalBytes ∧
      (sink.handleRead rateCountGap now packets).rxBytes = receive sink.rxBytes packets ∧
      (sink.handleRead rateCountGap now packets).sessionStops = sink.sessionStops ++
        if (sink.handleRead rateCountGap now packets).finished then
          [⟨receive sink.rxBytes packets % 2 ^ 32, now⟩]
        else
          [] := by
  have report (counted : TcpSink) : (counted.reportStop now).totalBytes = counted.totalBytes ∧
      (counted.reportStop now).rxBytes = counted.rxBytes ∧
      (counted.reportStop now).sessionStops = counted.sessionStops ++
        if (counted.reportStop now).finished then [⟨counted.rxBytes % 2 ^ 32, now⟩] else [] := by
    unfold reportStop
    split
    next complete => exact ⟨rfl, rfl, by rw [if_pos (by simpa [finished] using complete)]⟩
    next incomplete =>
      refine ⟨rfl, rfl, ?_⟩
      rw [if_neg (by simpa [finished] using incomplete), List.append_nil]
  unfold handleRead
  dsimp only
  split
  next =>
    obtain ⟨rxBytes, totalBytes, sessionStops⟩ :=
      countRate_frame { sink with rxBytes := receive sink.rxBytes packets } rateCountGap now
    obtain ⟨sameTotal, sameRx, stops⟩ :=
      report (countRate { sink with rxBytes := receive sink.rxBytes packets } rateCountGap now)
    exact ⟨sameTotal.trans totalBytes, sameRx.trans rxBytes,
      by rw [stops, rxBytes, sessionStops]⟩
  next => exact report { sink with rxBytes := receive sink.rxBytes packets }

end TcpSink

/-! ## The experiment -/

/-- A call of `HandleRead`; the packets are given by their sizes. -/
structure SinkRead where
  session : Nat
  now : Nat
  packets : List Nat
  deriving DecidableEq

structure TcpExperiment where
  info : InfoPriv
  sinks : List TcpSink
  deriving DecidableEq

namespace TcpExperiment

def accept (info : InfoPriv) (logRate : Bool) (keys : List TcpSessionKey) : TcpExperiment where
  info := info
  sinks := keys.map fun key =>
    .create logRate (if info.isEnableBandwidthUtility then info.getBulkBytes key else 0)

/-- `HandleRead` of one of the sinks, with its calls of `OnSessionStop`. -/
def handleRead (rateCountGap : Nat) (experiment : TcpExperiment) (read : SinkRead) :
    TcpExperiment :=
  match experiment.sinks[read.session]? with
  | none => experiment
  | some sink =>
      let next := sink.handleRead rateCountGap read.now read.packets
      let stops := next.sessionStops.drop sink.sessionStops.length
      { info := stops.foldl (fun info stop =>
          info.onSessionStop (UInt32.ofNat stop.bytes) stop.stop) experiment.info
        sinks := experiment.sinks.set read.session next }

def afterReads (experiment : TcpExperiment) (rateCountGap : Nat) (reads : List SinkRead) :
    TcpExperiment :=
  reads.foldl (handleRead rateCountGap) experiment

/-- Every session has been reported once if it is finished and not at all
otherwise, and `InfoPriv` has counted the finished sessions. -/
structure StopsCounted (experiment : TcpExperiment) : Prop where
  once : ∀ sink ∈ experiment.sinks,
    sink.sessionStops.length = if sink.finished then 1 else 0
  flowCount : experiment.info.flowCount.toNat ≤ experiment.sinks.countP TcpSink.finished
  bytes : experiment.info.bytes.toNat =
    (experiment.sinks.map TcpSink.finishedBytes).sum % 2 ^ 64

def WithinTargets (experiment : TcpExperiment) : Prop :=
  ∀ sink ∈ experiment.sinks, 0 < sink.totalBytes → (sink.rxBytes : Int) ≤ sink.totalBytes

def Unfinished (experiment : TcpExperiment) (read : SinkRead) : Prop :=
  ∀ sink, experiment.sinks[read.session]? = some sink → sink.finished = false

instance (experiment : TcpExperiment) : Decidable experiment.WithinTargets :=
  inferInstanceAs (Decidable (∀ sink ∈ experiment.sinks, _ → _))

instance (experiment : TcpExperiment) (read : SinkRead) :
    Decidable (experiment.Unfinished read) :=
  decidable_of_iff (∀ sink ∈ experiment.sinks[read.session]?, sink.finished = false) Iff.rfl

/-- The registered numbers have 32 bits, and are positive only if `InfoPriv`
takes reports. -/
structure Prepared (experiment : TcpExperiment) : Prop where
  small : ∀ sink ∈ experiment.sinks, sink.totalBytes < 2 ^ 32
  enabled : ∀ sink ∈ experiment.sinks, 0 < sink.totalBytes → experiment.info.flows ≠ 0

/-! ## One call -/

variable {experiment : TcpExperiment} {read : SinkRead} {sink : TcpSink}

theorem forall_mem_replaced {property : TcpSink → Prop} {front back : List TcpSink}
    {next : TcpSink} (all : ∀ other ∈ front ++ sink :: back, property other)
    (replacement : property next) : ∀ other ∈ front ++ next :: back, property other := by
  intro other membership
  rcases List.mem_append.mp membership with inFront | rest
  · exact all other (List.mem_append_left _ inFront)
  · rcases List.mem_cons.mp rest with rfl | inBack
    · exact replacement
    · exact all other (List.mem_append_right _ (List.mem_cons_of_mem _ inBack))

theorem handleRead_eq (rateCountGap : Nat)
    (found : experiment.sinks[read.session]? = some sink) :
    ∃ front back, experiment.sinks = front ++ sink :: back ∧
      experiment.handleRead rateCountGap read =
        { info :=
            if (sink.handleRead rateCountGap read.now read.packets).finished then
              experiment.info.onSessionStop
                (UInt32.ofNat (TcpSink.receive sink.rxBytes read.packets % 2 ^ 32)) read.now
            else
              experiment.info
          sinks := front ++ sink.handleRead rateCountGap read.now read.packets :: back } := by
  obtain ⟨inside, here⟩ := List.getElem?_eq_some_iff.mp found
  obtain ⟨front, back, shape, _, replaced⟩ :=
    @List.exists_of_set _ _ (sink.handleRead rateCountGap read.now read.packets) _ inside
  rw [here] at shape
  obtain ⟨_, _, stops⟩ := sink.handleRead_spec rateCountGap read.now read.packets
  refine ⟨front, back, shape, ?_⟩
  unfold handleRead
  rw [found]
  dsimp only
  rw [replaced, stops, List.drop_left]
  split <;> rfl

theorem flows_handleRead (rateCountGap : Nat) (experiment : TcpExperiment) (read : SinkRead) :
    (experiment.handleRead rateCountGap read).info.flows = experiment.info.flows := by
  cases found : experiment.sinks[read.session]? with
  | none =>
      unfold handleRead
      rw [found]
  | some sink =>
      obtain ⟨_, _, _, result⟩ := handleRead_eq rateCountGap found
      rw [result]
      dsimp only
      split
      next => exact InfoPriv.flows_onSessionStop _ _ _
      next => rfl

theorem Prepared.handleRead (prepared : experiment.Prepared) (rateCountGap : Nat)
    (read : SinkRead) : (experiment.handleRead rateCountGap read).Prepared := by
  have flows := flows_handleRead rateCountGap experiment read
  cases found : experiment.sinks[read.session]? with
  | none =>
      unfold TcpExperiment.handleRead
      rw [found]
      exact prepared
  | some sink =>
      obtain ⟨front, back, shape, result⟩ := handleRead_eq rateCountGap found
      obtain ⟨total, _, _⟩ := sink.handleRead_spec rateCountGap read.now read.packets
      obtain ⟨small, enabled⟩ := prepared
      have inside : sink ∈ experiment.sinks := List.mem_of_getElem? found
      have smallHere := small sink inside
      have enabledHere := enabled sink inside
      rw [shape] at small enabled
      constructor
      · rw [result]
        exact forall_mem_replaced small (by rwa [total])
      · rw [flows, result]
        exact forall_mem_replaced enabled (by rwa [total])

/-- A finished session is reported with all its bytes: the conversions to 32 bits
lose nothing. -/
theorem reported_bytes (prepared : experiment.Prepared) (inside : sink ∈ experiment.sinks)
    (rateCountGap now : Nat) (packets : List Nat)
    (ended : (sink.handleRead rateCountGap now packets).finished = true) :
    (UInt32.ofNat (TcpSink.receive sink.rxBytes packets % 2 ^ 32)).toNat =
      (sink.handleRead rateCountGap now packets).finishedBytes := by
  obtain ⟨total, received, -⟩ := sink.handleRead_spec rateCountGap now packets
  obtain ⟨positive, complete⟩ := TcpSink.finished_iff.mp ended
  have small := prepared.small sink inside
  rw [UInt32.toNat_ofNat', TcpSink.finishedBytes, if_pos ended]
  omega

/-- A call for a session that is not finished reports its end exactly if it
finishes it. -/
theorem StopsCounted.handleRead (counted : experiment.StopsCounted)
    (prepared : experiment.Prepared) (rateCountGap : Nat)
    (found : experiment.sinks[read.session]? = some sink) (unfinished : sink.finished = false) :
    (experiment.handleRead rateCountGap read).StopsCounted := by
  obtain ⟨front, back, shape, result⟩ := handleRead_eq rateCountGap found
  obtain ⟨total, -, stops⟩ := sink.handleRead_spec rateCountGap read.now read.packets
  obtain ⟨once, flowCount, bytes⟩ := counted
  have inside : sink ∈ experiment.sinks := List.mem_of_getElem? found
  have silent : sink.sessionStops = [] := by
    have nothing := once sink inside
    rw [unfinished] at nothing
    exact List.length_eq_zero_iff.mp nothing
  have nothing : sink.finishedBytes = 0 := by
    rw [TcpSink.finishedBytes, unfinished]
    rfl
  have target := reported_bytes prepared inside rateCountGap read.now read.packets
  rw [silent, List.nil_append] at stops
  rw [shape, List.countP_append, List.countP_cons_of_neg (by simp [unfinished])] at flowCount
  rw [shape, List.map_append, List.map_cons, List.sum_append, List.sum_cons, nothing,
    Nat.zero_add] at bytes
  rw [shape] at once
  generalize sink.handleRead rateCountGap read.now read.packets = next at *
  have reported : ∀ after ∈ front ++ next :: back,
      after.sessionStops.length = if after.finished then 1 else 0 := by
    refine forall_mem_replaced once ?_
    rw [stops]
    split <;> rfl
  rw [result]
  cases ended : next.finished with
  | false =>
      refine ⟨reported, ?_, ?_⟩
      · simpa [ended] using flowCount
      · simpa [TcpSink.finishedBytes, ended] using bytes
  | true =>
      obtain ⟨positive, -⟩ := TcpSink.finished_iff.mp ended
      obtain ⟨added, counted⟩ := InfoPriv.onSessionStop_counts
        (prepared.enabled sink inside (total ▸ positive))
        (UInt32.ofNat (TcpSink.receive sink.rxBytes read.packets % 2 ^ 32)) read.now
      refine ⟨reported, ?_, ?_⟩
      · rw [if_pos rfl, counted, UInt32.toNat_add, List.countP_append,
          List.countP_cons_of_pos ended]
        have wrapped := Nat.mod_le (experiment.info.flowCount.toNat + UInt32.toNat 1) (2 ^ 32)
        have one : UInt32.toNat 1 = 1 := rfl
        omega
      · rw [if_pos rfl, added, UInt64.toNat_add, UInt32.toNat_toUInt64, target ended, bytes,
          List.map_append, List.map_cons, List.sum_append, List.sum_cons]
        omega

theorem not_stopsCounted_handleRead (counted : experiment.StopsCounted) (rateCountGap : Nat)
    (within : (experiment.handleRead rateCountGap read).WithinTargets)
    (found : experiment.sinks[read.session]? = some sink) (finished : sink.finished = true) :
    ¬(experiment.handleRead rateCountGap read).StopsCounted := by
  intro countedAfter
  obtain ⟨front, back, shape, result⟩ := handleRead_eq rateCountGap found
  obtain ⟨total, received, stops⟩ := sink.handleRead_spec rateCountGap read.now read.packets
  have inside : sink.handleRead rateCountGap read.now read.packets ∈
      (experiment.handleRead rateCountGap read).sinks := by
    rw [result]
    simp
  obtain ⟨positive, complete⟩ := TcpSink.finished_iff.mp finished
  have atLeast := TcpSink.le_receive sink.rxBytes read.packets
  have atMost := within _ inside (total ▸ positive)
  have still : (sink.handleRead rateCountGap read.now read.packets).finished = true :=
    TcpSink.finished_iff.mpr ⟨by omega, by omega⟩
  have before := counted.once sink (List.mem_of_getElem? found)
  have after := countedAfter.once _ inside
  rw [stops, still, List.length_append, if_pos rfl, if_pos rfl, List.length_singleton] at after
  rw [finished, if_pos rfl] at before
  omega

theorem stopsCounted_handleRead_iff (counted : experiment.StopsCounted)
    (prepared : experiment.Prepared) (rateCountGap : Nat) (read : SinkRead)
    (within : (experiment.handleRead rateCountGap read).WithinTargets) :
    (experiment.handleRead rateCountGap read).StopsCounted ↔ experiment.Unfinished read := by
  cases found : experiment.sinks[read.session]? with
  | none =>
      have same : experiment.handleRead rateCountGap read = experiment := by
        unfold TcpExperiment.handleRead
        rw [found]
      rw [same, Unfinished, found]
      exact iff_of_true counted fun _ impossible => nomatch impossible
  | some sink =>
      rw [Unfinished, found]
      cases finished : sink.finished with
      | false =>
          refine iff_of_true (counted.handleRead prepared rateCountGap found finished) ?_
          intro other same
          rw [← Option.some.inj same]
          exact finished
      | true =>
          refine iff_of_false (not_stopsCounted_handleRead counted rateCountGap within found
            finished) fun unfinished => ?_
          rw [unfinished sink rfl] at finished
          cases finished

/-! ## All calls -/

/-- The experiment of flows whose clients have registered their sessions. -/
def start (flows bandwidth : UInt32) (sessions : List BulkSession) (logRate : Bool)
    (keys : List TcpSessionKey) : TcpExperiment :=
  accept ((InfoPriv.create.setExperimentInfo flows bandwidth).registerAll sessions) logRate keys

section Start

variable (flows bandwidth : UInt32) (sessions : List BulkSession) (logRate : Bool)
  (keys : List TcpSessionKey)

theorem prepared_start : (start flows bandwidth sessions logRate keys).Prepared := by
  constructor
  · intro sink membership
    obtain ⟨key, _, rfl⟩ := List.mem_map.mp membership
    dsimp only [TcpSink.create]
    split
    next => exact InfoPriv.getBulkBytes_lt _ key
    next => decide
  · intro sink membership positive
    obtain ⟨key, _, rfl⟩ := List.mem_map.mp membership
    dsimp only [TcpSink.create] at positive
    split at positive
    next enabled =>
      exact UInt32.pos_iff_ne_zero.mp (of_decide_eq_true enabled)
    next => omega

theorem stopsCounted_start : (start flows bandwidth sessions logRate keys).StopsCounted := by
  have unfinished : ∀ sink ∈ (start flows bandwidth sessions logRate keys).sinks,
      sink.sessionStops = [] ∧ sink.finished = false := by
    intro sink membership
    obtain ⟨key, _, rfl⟩ := List.mem_map.mp membership
    refine ⟨rfl, decide_eq_false ?_⟩
    rintro ⟨positive, complete⟩
    rw [complete] at positive
    exact Int.lt_irrefl 0 positive
  obtain ⟨flowCount, bytes⟩ := InfoPriv.counters_registerAll
    (InfoPriv.create.setExperimentInfo flows bandwidth) sessions
  refine ⟨?_, ?_, ?_⟩
  · intro sink membership
    obtain ⟨silent, running⟩ := unfinished sink membership
    rw [silent, running]
    rfl
  · exact le_trans (le_of_eq (congrArg UInt32.toNat flowCount)) (Nat.zero_le _)
  · have nothing : (start flows bandwidth sessions logRate keys).sinks.map TcpSink.finishedBytes =
        (start flows bandwidth sessions logRate keys).sinks.map fun _ => 0 :=
      List.map_congr_left fun sink membership => by
        rw [TcpSink.finishedBytes, (unfinished sink membership).2]
        rfl
    rw [nothing, List.map_const', List.sum_replicate_nat, Nat.mul_zero]
    exact congrArg UInt64.toNat bytes

end Start

/-- While no session receives more than its target, every session is reported
once, by the call that receives its last byte, and `InfoPriv` counts the
finished sessions, exactly if no sink is called again after its last byte. -/
theorem session_stops_counted_iff (flows bandwidth : UInt32) (sessions : List BulkSession)
    (logRate : Bool) (keys : List TcpSessionKey) (rateCountGap : Nat) (reads : List SinkRead)
    (within : ∀ before, before <+: reads →
      ((start flows bandwidth sessions logRate keys).afterReads rateCountGap
        before).WithinTargets) :
    (∀ before, before <+: reads →
      ((start flows bandwidth sessions logRate keys).afterReads rateCountGap
        before).StopsCounted) ↔
    ∀ before read, before ++ [read] <+: reads →
      ((start flows bandwidth sessions logRate keys).afterReads rateCountGap
        before).Unfinished read := by
  have prepared (before : List SinkRead) :
      ((start flows bandwidth sessions logRate keys).afterReads rateCountGap before).Prepared := by
    induction before using List.reverseRecOn with
    | nil => exact prepared_start flows bandwidth sessions logRate keys
    | append_singleton before read inductionHypothesis =>
        rw [afterReads, List.foldl_append]
        exact inductionHypothesis.handleRead rateCountGap read
  apply forall_prefix_iff (stopsCounted_start flows bandwidth sessions logRate keys)
  intro before read front counted
  have later := within (before ++ [read]) front
  rw [afterReads, List.foldl_append] at later
  exact stopsCounted_handleRead_iff counted (prepared before) rateCountGap read later

def sampleStart : TcpExperiment :=
  start 1 1000000 [⟨⟨0x0A000001, 0x0A000002, 1000, 2000⟩, 3000⟩] true
    [⟨0x0A000001, 0x0A000002, 1000, 2000⟩]

/-- The second of two reads receives the last byte and reports it. -/
theorem session_stops_counted_two_reads :
    (sampleStart.afterReads 1000000000 [⟨0, 5, [1500]⟩, ⟨0, 6, [1000, 500]⟩]).StopsCounted := by
  refine (session_stops_counted_iff 1 1000000 [⟨⟨0x0A000001, 0x0A000002, 1000, 2000⟩, 3000⟩] true
    [⟨0x0A000001, 0x0A000002, 1000, 2000⟩] 1000000000
    [⟨0, 5, [1500]⟩, ⟨0, 6, [1000, 500]⟩] ?_).mpr ?_ _ (List.prefix_refl _)
  · intro before front
    have states : ∀ count ≤ 2, (sampleStart.afterReads 1000000000
        ([⟨0, 5, [1500]⟩, ⟨0, 6, [1000, 500]⟩].take count)).WithinTargets := by decide
    rw [List.prefix_iff_eq_take.mp front]
    exact states before.length front.length_le
  · intro before read front
    have states : ∀ count ≤ 2, ∀ read ∈
        [(⟨0, 5, [1500]⟩ : SinkRead), ⟨0, 6, [1000, 500]⟩][count]?,
        (sampleStart.afterReads 1000000000
          ([⟨0, 5, [1500]⟩, ⟨0, 6, [1000, 500]⟩].take count)).Unfinished read := by decide
    obtain ⟨taken, here⟩ := eq_take_of_prefix_concat front
    rw [taken]
    exact states before.length ((List.prefix_append before [read]).trans front).length_le read here

/-- A call after the last byte, which delivers nothing, is counted as the end
of a second session. -/
theorem finished_session_reported_again :
    (sampleStart.afterReads 1000000000 [⟨0, 5, [1500, 1500]⟩]).info.flowCount = 1 ∧
      (sampleStart.afterReads 1000000000 [⟨0, 5, [1500, 1500]⟩]).info.bytes = 3000 ∧
      (sampleStart.afterReads 1000000000
        [⟨0, 5, [1500, 1500]⟩, ⟨0, 6, []⟩]).info.flowCount = 2 ∧
      (sampleStart.afterReads 1000000000 [⟨0, 5, [1500, 1500]⟩, ⟨0, 6, []⟩]).info.bytes = 6000 ∧
      (sampleStart.afterReads 1000000000
        [⟨0, 5, [1500, 1500]⟩, ⟨0, 6, []⟩]).sinks.countP TcpSink.finished = 1 := by
  decide

end TcpExperiment

end Ns3Quic.Tcp
