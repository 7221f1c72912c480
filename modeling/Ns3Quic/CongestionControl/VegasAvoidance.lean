import Ns3Quic.CongestionControl.VegasRounds
import Ns3Quic.Lib.Iteration
import Mathlib.Order.Interval.Set.Defs

/-!
# Congestion avoidance with steady round-trip times

Outside slow start the end of a round with enough samples adds a segment,
takes one away or keeps the window.  With the same round-trip times in every
round this is the iteration of one function, `endRound`.  One segment is at
most a quarter of the window, so a step towards the band between
`kAlphaCongestionWindow` and `kBetaCongestionWindow` never crosses it: a
window that is not beyond the band stays so, and neither does a window that
has reached it fall short of it again.
-/

namespace Ns3Quic.CongestionControl

open LoopRules Iteration

namespace VegasWindow

variable {window : VegasWindow} {baseRtt minRtt : Nat}

/-- The window after a round with more than two samples. -/
def endRound (baseRtt minRtt : Nat) (window : VegasWindow) : VegasWindow :=
  (window.adjust baseRtt minRtt).clamp

/-- A window of congestion avoidance whose queueing delay fits in 64 bits. -/
structure Steady (baseRtt minRtt : Nat) (window : VegasWindow) : Prop where
  avoidance : window.inSlowStart = false
  floor : kDefaultMinimumCongestionWindow ≤ window.congestionWindow
  fits : window.congestionWindow * (minRtt - baseRtt) < 2 ^ 64

theorem Steady.diff_eq (steady : Steady baseRtt minRtt window) :
    window.diff baseRtt minRtt =
      window.congestionWindow * (minRtt - baseRtt) / baseRtt := by
  unfold diff
  rw [mulU64_of_lt steady.fits]

theorem Steady.beyond_iff (steady : Steady baseRtt minRtt window) (positive : 0 < baseRtt)
    (level : Nat) :
    level < window.diff baseRtt minRtt ↔
      (level + 1) * baseRtt ≤ window.congestionWindow * (minRtt - baseRtt) := by
  rw [steady.diff_eq, ← Nat.succ_le_iff, Nat.le_div_iff_mul_le positive]

theorem Steady.short_iff (steady : Steady baseRtt minRtt window) (positive : 0 < baseRtt)
    (level : Nat) :
    window.diff baseRtt minRtt < level ↔
      window.congestionWindow * (minRtt - baseRtt) < level * baseRtt := by
  rw [steady.diff_eq, Nat.div_lt_iff_lt_mul positive]

def loweredWindow (window : VegasWindow) : VegasWindow :=
  { window with
    congestionWindow := max (window.congestionWindow - kDefaultTCPMSS)
      kDefaultMinimumCongestionWindow
    slowstartThreshold := window.congestionWindow - kDefaultTCPMSS }

inductive RoundStep (baseRtt minRtt : Nat) (window : VegasWindow) : Prop where
  | lowers : kBetaCongestionWindow < window.diff baseRtt minRtt →
      kDefaultMinimumCongestionWindow < window.congestionWindow →
      window.endRound baseRtt minRtt = window.loweredWindow → RoundStep baseRtt minRtt window
  | atFloor : kBetaCongestionWindow < window.diff baseRtt minRtt →
      window.congestionWindow = kDefaultMinimumCongestionWindow →
      window.endRound baseRtt minRtt = window → RoundStep baseRtt minRtt window
  | raises : window.diff baseRtt minRtt < kAlphaCongestionWindow →
      window.endRound baseRtt minRtt = window.grow.clamp → RoundStep baseRtt minRtt window
  | holds : kAlphaCongestionWindow ≤ window.diff baseRtt minRtt →
      window.diff baseRtt minRtt ≤ kBetaCongestionWindow →
      window.endRound baseRtt minRtt = window → RoundStep baseRtt minRtt window

theorem Steady.roundStep (steady : Steady baseRtt minRtt window) :
    RoundStep baseRtt minRtt window := by
  have shape : window.endRound baseRtt minRtt =
      (if kBetaCongestionWindow < window.diff baseRtt minRtt then
        if kDefaultMinimumCongestionWindow < window.congestionWindow then
          { window with
            congestionWindow := window.congestionWindow - kDefaultTCPMSS
            slowstartThreshold := window.congestionWindow - kDefaultTCPMSS }
        else window
      else if window.diff baseRtt minRtt < kAlphaCongestionWindow then window.grow
      else window).clamp := by
    unfold endRound adjust
    simp only [steady.avoidance, Bool.false_eq_true, and_false, if_false]
  have kept := clamp_eq_self steady.floor
  split at shape
  next beyond =>
    split at shape
    next above => exact .lowers beyond above shape
    next bottom =>
      exact .atFloor beyond (le_antisymm (not_lt.mp bottom) steady.floor) (shape.trans kept)
  next within =>
    split at shape
    next short => exact .raises short shape
    next reached => exact .holds (not_lt.mp reached) (not_lt.mp within) (shape.trans kept)

structure Rising (baseRtt minRtt : Nat) (window : VegasWindow) : Prop
    extends Steady baseRtt minRtt window where
  within : window.diff baseRtt minRtt ≤ kBetaCongestionWindow

structure Falling (baseRtt minRtt : Nat) (window : VegasWindow) : Prop
    extends Steady baseRtt minRtt window where
  reached : kAlphaCongestionWindow ≤ window.diff baseRtt minRtt

theorem Steady.rising_or_falling (steady : Steady baseRtt minRtt window) :
    Rising baseRtt minRtt window ∨ Falling baseRtt minRtt window := by
  rcases Nat.lt_or_ge (window.diff baseRtt minRtt) kAlphaCongestionWindow with short | reached
  · refine Or.inl ⟨steady, short.le.trans ?_⟩
    decide
  · exact Or.inr ⟨steady, reached⟩

theorem grow_clamp_eq (floor : kDefaultMinimumCongestionWindow ≤ window.congestionWindow)
    (fits : window.congestionWindow + kDefaultTCPMSS < 2 ^ 64) :
    window.grow.clamp =
      { window with congestionWindow := window.congestionWindow + kDefaultTCPMSS } := by
  unfold grow clamp
  rw [addU64_of_lt fits]
  dsimp only
  rw [max_eq_left (Nat.le_add_right_of_le floor)]

theorem Steady.passed (steady : Steady baseRtt minRtt window) :
    window.slowstartThreshold ≤ window.congestionWindow :=
  inSlowStart_eq_false_iff.mp steady.avoidance

/-- A window beyond the band and above the floor reaches the band still after
it is lowered. -/
theorem Steady.lowered (steady : Steady baseRtt minRtt window) (positive : 0 < baseRtt)
    (beyond : kBetaCongestionWindow < window.diff baseRtt minRtt)
    (above : kDefaultMinimumCongestionWindow < window.congestionWindow) :
    window.loweredWindow.congestionWindow < window.congestionWindow ∧
      Falling baseRtt minRtt window.loweredWindow := by
  have much := (steady.beyond_iff positive _).mp beyond
  have lower : window.loweredWindow.congestionWindow < window.congestionWindow := by
    unfold loweredWindow kDefaultMinimumCongestionWindow kDefaultTCPMSS at *
    dsimp only
    omega
  -- one segment is at most a quarter of the window
  have quarter : window.congestionWindow * 3 ≤ window.loweredWindow.congestionWindow * 4 := by
    unfold loweredWindow kDefaultMinimumCongestionWindow kDefaultTCPMSS at *
    dsimp only
    omega
  have next : Steady baseRtt minRtt window.loweredWindow := by
    refine ⟨?_, le_max_right _ _, ?_⟩
    · exact inSlowStart_eq_false_iff.mpr (le_max_left _ _)
    · exact (Nat.mul_le_mul_right _ lower.le).trans_lt steady.fits
  refine ⟨lower, next, ?_⟩
  have product := Nat.mul_le_mul_right (minRtt - baseRtt) quarter
  rw [Nat.mul_right_comm, Nat.mul_right_comm _ 4] at product
  rw [← not_lt, next.short_iff positive]
  unfold kAlphaCongestionWindow kBetaCongestionWindow kDefaultTCPMSS at *
  omega

section Delayed

variable (positive : 0 < baseRtt) (delayed : baseRtt < minRtt)
  (room : kDefaultMinimumCongestionWindow * minRtt < 2 ^ 64)

include positive delayed room

theorem Steady.raised (steady : Steady baseRtt minRtt window)
    (short : window.diff baseRtt minRtt < kAlphaCongestionWindow) :
    window.congestionWindow < kAlphaCongestionWindow * baseRtt ∧
      window.grow.clamp =
        { window with congestionWindow := window.congestionWindow + kDefaultTCPMSS } ∧
      Rising baseRtt minRtt window.grow.clamp := by
  have little := (steady.short_iff positive _).mp short
  have floor := steady.floor
  have passed := steady.passed
  have quarter := Nat.mul_le_mul_right (minRtt - baseRtt) floor
  have product : (window.congestionWindow + kDefaultTCPMSS) * (minRtt - baseRtt) =
      window.congestionWindow * (minRtt - baseRtt) + kDefaultTCPMSS * (minRtt - baseRtt) :=
    Nat.add_mul _ _ _
  have small : window.congestionWindow ≤ window.congestionWindow * (minRtt - baseRtt) :=
    Nat.le_mul_of_pos_right _ (Nat.sub_pos_of_lt delayed)
  unfold kAlphaCongestionWindow kDefaultMinimumCongestionWindow kDefaultTCPMSS at *
  have shape := grow_clamp_eq steady.floor (by unfold kDefaultTCPMSS; omega)
  have next : Steady baseRtt minRtt window.grow.clamp := by
    rw [shape]
    refine ⟨?_, Nat.le_add_right_of_le steady.floor, ?_⟩
    · exact inSlowStart_eq_false_iff.mpr (Nat.le_add_right_of_le passed)
    · dsimp only
      unfold kDefaultTCPMSS
      omega
  refine ⟨by omega, shape, next, ?_⟩
  rw [← Nat.lt_succ_iff, next.short_iff positive, shape]
  dsimp only
  unfold kBetaCongestionWindow kDefaultTCPMSS
  omega

theorem Rising.endRound (rising : Rising baseRtt minRtt window) :
    Rising baseRtt minRtt (window.endRound baseRtt minRtt) ∧
      window.congestionWindow ≤ (window.endRound baseRtt minRtt).congestionWindow ∧
      (window.endRound baseRtt minRtt = window ∨
        window.congestionWindow < kAlphaCongestionWindow * baseRtt ∧
          window.congestionWindow < (window.endRound baseRtt minRtt).congestionWindow) := by
  cases rising.toSteady.roundStep with
  | lowers beyond => exact absurd beyond (not_lt.mpr rising.within)
  | atFloor beyond => exact absurd beyond (not_lt.mpr rising.within)
  | raises short shape =>
      obtain ⟨small, grown, next⟩ := rising.toSteady.raised positive delayed room short
      have larger :
          window.congestionWindow < (window.endRound baseRtt minRtt).congestionWindow := by
        rw [shape, grown]
        exact Nat.lt_add_of_pos_right (by decide)
      exact ⟨shape ▸ next, larger.le, Or.inr ⟨small, larger⟩⟩
  | holds _ _ same =>
      rw [same]
      exact ⟨rising, le_refl _, Or.inl rfl⟩

omit delayed room in
/-- A window that does not fall short of the band shrinks, or has come to rest
in it or at the floor. -/
theorem Falling.endRound (falling : Falling baseRtt minRtt window) :
    Falling baseRtt minRtt (window.endRound baseRtt minRtt) ∧
      (window.endRound baseRtt minRtt = window ∨
        (window.endRound baseRtt minRtt).congestionWindow < window.congestionWindow) := by
  cases falling.toSteady.roundStep with
  | lowers beyond above shape =>
      obtain ⟨lower, next⟩ := falling.toSteady.lowered positive beyond above
      exact ⟨shape ▸ next, Or.inr (shape ▸ lower)⟩
  | atFloor _ _ same =>
      rw [same]
      exact ⟨falling, Or.inl rfl⟩
  | raises short => exact absurd short (not_lt.mpr falling.reached)
  | holds _ _ same =>
      rw [same]
      exact ⟨falling, Or.inl rfl⟩

theorem Steady.of_fixed (steady : Steady baseRtt minRtt window)
    (fixed : window.endRound baseRtt minRtt = window) :
    (kAlphaCongestionWindow ≤ window.diff baseRtt minRtt ∧
        window.diff baseRtt minRtt ≤ kBetaCongestionWindow) ∨
      (window.congestionWindow = kDefaultMinimumCongestionWindow ∧
        kBetaCongestionWindow < window.diff baseRtt minRtt) := by
  cases steady.roundStep with
  | lowers beyond above shape =>
      have lower := (steady.lowered positive beyond above).1
      rw [← shape, fixed] at lower
      exact absurd lower (lt_irrefl _)
  | atFloor beyond bottom _ => exact Or.inr ⟨bottom, beyond⟩
  | raises short shape =>
      have grown := (steady.raised positive delayed room short).2.1
      rw [← shape, fixed] at grown
      have same := congrArg VegasWindow.congestionWindow grown
      exact absurd same.symm (Nat.ne_of_gt (Nat.lt_add_of_pos_right (by decide)))
  | holds reached within _ => exact Or.inl ⟨reached, within⟩

variable {windows : Nat → VegasWindow}

theorem Steady.orbit (orbit : Orbit (endRound baseRtt minRtt) windows)
    (initially : Steady baseRtt minRtt (windows 0)) :
    ((Monotone fun round => (windows round).congestionWindow) ∨
        Antitone fun round => (windows round).congestionWindow) ∧
      ∃ settled, Steady baseRtt minRtt (windows settled) ∧
        (windows settled).endRound baseRtt minRtt = windows settled := by
  rcases initially.rising_or_falling with rising | falling
  · have preserved := fun window (holds : Rising baseRtt minRtt window) =>
      (holds.endRound positive delayed room).1
    refine ⟨Or.inl (orbit.monotone _ congestionWindow preserved
      (fun window holds => (holds.endRound positive delayed room).2.1) rising), ?_⟩
    obtain ⟨settled, fixed⟩ := orbit.settles (Rising baseRtt minRtt)
      (fun window => kAlphaCongestionWindow * baseRtt - window.congestionWindow) preserved
      (fun window holds => (holds.endRound positive delayed room).2.2.imp_right
        fun grows => Nat.sub_lt_sub_left grows.1 grows.2) rising
    exact ⟨settled, (orbit.invariant _ preserved rising settled).toSteady, fixed⟩
  · have preserved := fun window (holds : Falling baseRtt minRtt window) =>
      (holds.endRound positive).1
    have lowers := fun window (holds : Falling baseRtt minRtt window) =>
      (holds.endRound positive).2
    refine ⟨Or.inr (orbit.antitone _ congestionWindow preserved (fun window holds => ?_)
      falling), ?_⟩
    · rcases lowers window holds with same | lower
      · rw [same]
      · exact lower.le
    · obtain ⟨settled, fixed⟩ := orbit.settles _ congestionWindow preserved lowers falling
      exact ⟨settled, (orbit.invariant _ preserved falling settled).toSteady, fixed⟩

end Delayed

theorem orbit_without_delay {windows : Nat → VegasWindow}
    (orbit : Orbit (endRound baseRtt baseRtt) windows)
    (initially : Steady baseRtt baseRtt (windows 0)) (rounds : Nat)
    (fits : (windows 0).congestionWindow + rounds * kDefaultTCPMSS < 2 ^ 64) :
    windows rounds = { windows 0 with
      congestionWindow := (windows 0).congestionWindow + rounds * kDefaultTCPMSS } := by
  induction rounds with
  | zero => simp
  | succ rounds inductionHypothesis =>
      rw [Nat.succ_mul, ← Nat.add_assoc] at fits ⊢
      have before := inductionHypothesis (by omega)
      have steady : Steady baseRtt baseRtt (windows rounds) := by
        rw [before]
        exact ⟨inSlowStart_eq_false_iff.mpr (Nat.le_add_right_of_le initially.passed),
          Nat.le_add_right_of_le initially.floor, by simp⟩
      have noDiff : (windows rounds).diff baseRtt baseRtt = 0 := by
        rw [steady.diff_eq, Nat.sub_self, Nat.mul_zero, Nat.zero_div]
      rw [orbit rounds]
      cases steady.roundStep with
      | lowers beyond => simp [noDiff] at beyond
      | atFloor beyond => simp [noDiff] at beyond
      | raises _ shape =>
          rw [shape, grow_clamp_eq steady.floor (by rw [before]; exact fits), before]
      | holds reached =>
          rw [noDiff] at reached
          exact absurd reached (by decide)

end VegasWindow

namespace VegasSender

/-- The packet ends a round of the sender that has more than two samples, with
the given round-trip times. -/
structure EndsRound (sender : VegasSender) (packet baseRtt minRtt : Nat) : Prop where
  vegasMode : sender.vegasMode = true
  due : ∃ beg, sender.begSendNext = some beg ∧ beg ≤ packet
  samples : 2 < sender.rttCount
  baseRtt : sender.baseRttFilter.getBest = baseRtt
  minRtt : sender.minRtt = minRtt

theorem EndsRound.onPacketAcked {sender : VegasSender} {packet baseRtt minRtt : Nat}
    (ends : sender.EndsRound packet baseRtt minRtt) (positive : 0 < baseRtt)
    (ordered : baseRtt ≤ minRtt) :
    ∃ next, sender.onPacketAcked packet = .ok next ∧
      next.toVegasWindow = sender.toVegasWindow.endRound baseRtt minRtt := by
  obtain ⟨vegasMode, ⟨beg, known, reached⟩, samples, base, min⟩ := ends
  unfold VegasSender.onPacketAcked roundEnd VegasWindow.checkedAdjust
  dsimp only
  rw [vegasMode, known, base, min, if_neg (by simp)]
  dsimp only
  rw [if_pos reached, if_neg (by omega), if_neg (by omega), if_neg (by omega), if_neg (by omega)]
  exact ⟨_, rfl, rfl⟩

end VegasSender

open VegasSender VegasWindow

/-- The windows from round to round, while the round-trip times stay the same:
each is what `OnPacketAcked` makes of the one before. -/
def SteadyRounds (baseRtt minRtt : Nat) (windows : Nat → VegasWindow) : Prop :=
  ∀ round, ∃ sender packet next, EndsRound sender packet baseRtt minRtt ∧
    sender.toVegasWindow = windows round ∧ sender.onPacketAcked packet = .ok next ∧
    next.toVegasWindow = windows (round + 1)

section SteadyRounds

variable {baseRtt minRtt : Nat} {windows : Nat → VegasWindow}

theorem SteadyRounds.orbit (rounds : SteadyRounds baseRtt minRtt windows)
    (positive : 0 < baseRtt) (ordered : baseRtt ≤ minRtt) :
    Orbit (endRound baseRtt minRtt) windows := by
  intro round
  obtain ⟨sender, packet, next, ends, before, acked, after⟩ := rounds round
  obtain ⟨other, sameAcked, shape⟩ := ends.onPacketAcked positive ordered
  rw [acked] at sameAcked
  rw [← after, Except.ok.inj sameAcked, shape, before]

/-- Every orbit is one of rounds that senders make. -/
theorem steadyRounds_of_orbit (orbit : Orbit (endRound baseRtt minRtt) windows)
    (positive : 0 < baseRtt) (ordered : baseRtt ≤ minRtt) :
    SteadyRounds baseRtt minRtt windows := by
  intro round
  let sender : VegasSender := { VegasSender.create 10 10 with
    toVegasWindow := windows round
    baseRttFilter := .create kMinRTTWindowLength baseRtt 0
    minRtt := minRtt
    rttCount := 3
    begSendNext := some 1 }
  have ends : EndsRound sender 1 baseRtt minRtt :=
    ⟨rfl, ⟨1, rfl, le_refl _⟩, Nat.lt_succ_self 2, rfl, rfl⟩
  obtain ⟨next, acked, shape⟩ := ends.onPacketAcked positive ordered
  exact ⟨sender, 1, next, ends, rfl, acked, shape.trans (orbit round).symm⟩

/-- Congestion avoidance does not oscillate on steady round-trip times.  With
queueing delay the window moves in one direction and comes to rest in the band
or at the floor; without it the window grows as long as it fits in 64 bits. -/
theorem steady_rounds_settle (rounds : SteadyRounds baseRtt minRtt windows)
    (positive : 0 < baseRtt) (ordered : baseRtt ≤ minRtt)
    (avoidance : (windows 0).inSlowStart = false)
    (floor : kDefaultMinimumCongestionWindow ≤ (windows 0).congestionWindow)
    (fits : (windows 0).congestionWindow * minRtt < 2 ^ 64) :
    (baseRtt = minRtt → ∀ bound,
      (windows 0).congestionWindow + bound * kDefaultTCPMSS < 2 ^ 64 →
      MonotoneOn (fun round => (windows round).congestionWindow) (Set.Iic bound)) ∧
    (baseRtt < minRtt →
      ((Monotone fun round => (windows round).congestionWindow) ∨
        Antitone fun round => (windows round).congestionWindow) ∧
      ∃ settled,
        (∀ later, settled ≤ later →
          (windows later).congestionWindow = (windows settled).congestionWindow) ∧
        ((kAlphaCongestionWindow ≤ (windows settled).diff baseRtt minRtt ∧
            (windows settled).diff baseRtt minRtt ≤ kBetaCongestionWindow) ∨
          ((windows settled).congestionWindow = kDefaultMinimumCongestionWindow ∧
            kBetaCongestionWindow < (windows settled).diff baseRtt minRtt))) := by
  have orbit := rounds.orbit positive ordered
  have initially : Steady baseRtt minRtt (windows 0) :=
    ⟨avoidance, floor, (Nat.mul_le_mul_left _ (Nat.sub_le _ _)).trans_lt fits⟩
  constructor
  · rintro rfl bound within round _ later bounded earlier
    have first : round * kDefaultTCPMSS ≤ later * kDefaultTCPMSS :=
      Nat.mul_le_mul_right _ earlier
    have last : later * kDefaultTCPMSS ≤ bound * kDefaultTCPMSS :=
      Nat.mul_le_mul_right _ bounded
    dsimp only
    rw [orbit_without_delay orbit initially round (by omega),
      orbit_without_delay orbit initially later (by omega)]
    exact Nat.add_le_add_left first _
  · intro delayed
    have room := (Nat.mul_le_mul_right minRtt floor).trans_lt fits
    obtain ⟨direction, settled, steady, fixed⟩ := Steady.orbit positive delayed room orbit initially
    refine ⟨direction, settled, fun later after => ?_,
      steady.of_fixed positive delayed room fixed⟩
    rw [orbit.stays fixed after]

/-- Ten segments with half as much delay again come down to eight. -/
theorem steady_rounds_settle_falling :
    ∃ windows : Nat → VegasWindow, SteadyRounds 100 150 windows ∧
      (windows 0).congestionWindow = 10 * kDefaultTCPMSS ∧
      (windows 2).congestionWindow = 8 * kDefaultTCPMSS ∧
      ∃ settled, ∀ later, settled ≤ later →
        (windows later).congestionWindow = (windows settled).congestionWindow := by
  have rounds : SteadyRounds 100 150
      fun round => (endRound 100 150)^[round] ⟨14600, 14600, 0⟩ :=
    steadyRounds_of_orbit (fun _ => Function.iterate_succ_apply' _ _ _) (by decide) (by decide)
  have settles := (steady_rounds_settle rounds (by decide) (by decide) rfl (by decide)
    (by decide)).2 (by decide)
  obtain ⟨_, settled, stays, _⟩ := settles
  exact ⟨_, rounds, rfl, rfl, settled, stays⟩

end SteadyRounds

end Ns3Quic.CongestionControl
