import Ns3Quic.CongestionControl.VegasIncrease
import Mathlib.Data.Finset.Card
import Mathlib.Data.Finset.Range
import Mathlib.Tactic.Linarith
import Mathlib.Tactic.Ring

/-!
# Bounds of the Vegas window

Acknowledgements in Vegas mode end with a clamp of the window, those in Reno
mode do not, and `congestion_window_` is an unsigned number that wraps.  That
it does not wrap in Reno mode follows from the pace of Reno: after a reduction
the window is at most `2 ^ 63`, and each further segment costs as many
acknowledgements as the window has segments, so the segments gained since the
reduction grow with the square root of the number of acknowledgements.
-/

namespace Ns3Quic.CongestionControl

open TransitionSystem LoopRules

namespace VegasWindow

variable {window : VegasWindow} {acks gained slack : Nat}

/-- The window some time after a reduction: it has gained `gained` segments
through Reno and at most `slack` bytes otherwise, at the price of at least
`gained * (gained - 1) / 2` of the acknowledgements. -/
structure Regrown (window : VegasWindow) (acks gained slack : Nat) : Prop where
  threshold : window.slowstartThreshold ≤ window.congestionWindow
  floor : 5840 ≤ window.congestionWindow
  lower : 1460 * gained ≤ window.congestionWindow
  upper : window.congestionWindow ≤ 2 ^ 63 + 1460 * gained + slack
  effort : gained * gained + 2 * window.numAckedPackets ≤ 2 * acks + gained

theorem Regrown.mono (regrown : Regrown window acks gained slack) {moreAcks moreSlack : Nat}
    (acksGrow : acks ≤ moreAcks) (slackGrows : slack ≤ moreSlack) :
    Regrown window moreAcks gained moreSlack :=
  { regrown with
    upper := regrown.upper.trans (by omega)
    effort := regrown.effort.trans (by omega) }

theorem Regrown.fits (regrown : Regrown window acks gained slack) (few : acks ≤ 2 ^ 64)
    (small : slack ≤ 1460) : window.congestionWindow + 1460 < 2 ^ 64 := by
  have effort := regrown.effort
  have upper := regrown.upper
  have gainedFew : gained < 2 ^ 33 := by
    by_contra many
    have square : 2 ^ 33 * gained ≤ gained * gained :=
      Nat.mul_le_mul_right gained (by omega)
    omega
  omega

theorem regrown_cutBack (bounded : window.congestionWindow < 2 ^ 64) (acks : Nat) :
    Regrown window.cutBack acks 0 0 := by
  constructor
  all_goals simp only [cutBack, kDefaultMinimumCongestionWindow, kDefaultTCPMSS]
  all_goals omega

theorem Regrown.not_inSlowStart (regrown : Regrown window acks gained slack) :
    window.inSlowStart = false :=
  inSlowStart_eq_false_iff.mpr regrown.threshold

theorem Regrown.clamp_eq (regrown : Regrown window acks gained slack) :
    window.clamp = window :=
  clamp_eq_self regrown.floor

theorem clamp_bounded (bounded : window.congestionWindow < 2 ^ 64) :
    window.clamp.congestionWindow < 2 ^ 64 :=
  max_lt bounded (by decide)

theorem increaseAsReno_cases (window : VegasWindow) :
    window.increaseCongestionWindowAsReno.congestionWindow = window.congestionWindow ∨
      window.increaseCongestionWindowAsReno.congestionWindow =
        window.grow.congestionWindow := by
  unfold increaseCongestionWindowAsReno
  split
  next => exact Or.inr rfl
  next =>
    dsimp only
    split
    next => exact Or.inr rfl
    next => exact Or.inl rfl

theorem Regrown.increaseAsReno (regrown : Regrown window acks gained slack)
    (few : acks + 1 ≤ 2 ^ 64) (small : slack ≤ 1460) :
    ∃ moreGained,
      Regrown window.increaseCongestionWindowAsReno (acks + 1) moreGained slack := by
  have fits := regrown.fits (by omega) small
  have noSlowStart := regrown.not_inSlowStart
  obtain ⟨threshold, floor, lower, upper, effort⟩ := regrown
  have counted : addU64 window.numAckedPackets 1 ≤ window.numAckedPackets + 1 :=
    Nat.mod_le _ _
  unfold increaseCongestionWindowAsReno
  rw [noSlowStart, if_neg (by simp)]
  dsimp only
  split
  next enough =>
    -- a whole window was acknowledged, which pays for the new segment
    have paid := mulU64_le (addU64 window.numAckedPackets 1) kDefaultTCPMSS
    unfold kDefaultTCPMSS at enough paid
    refine ⟨gained + 1, ?_⟩
    constructor
    all_goals simp only [grow, kDefaultTCPMSS, addU64_of_lt fits]
    case threshold => omega
    case floor => omega
    case lower => omega
    case upper => omega
    case effort =>
      have expand : (gained + 1) * (gained + 1) = gained * gained + 2 * gained + 1 := by ring
      omega
  next =>
    refine ⟨gained, threshold, floor, lower, upper, ?_⟩
    dsimp only
    omega

theorem Regrown.adjust (regrown : Regrown window acks gained 0) (few : acks ≤ 2 ^ 64)
    (baseRtt minRtt : Nat) :
    ∃ otherGained,
      Regrown (window.adjust baseRtt minRtt).clamp (acks + 1) otherGained 1460 := by
  have fits := regrown.fits few (by omega)
  have same : Regrown window.clamp (acks + 1) gained 1460 := by
    rw [regrown.clamp_eq]
    exact regrown.mono (by omega) (by omega)
  have noSlowStart := regrown.not_inSlowStart
  obtain ⟨threshold, floor, lower, upper, effort⟩ := regrown
  unfold VegasWindow.adjust
  simp only [noSlowStart, Bool.false_eq_true, and_false, if_false]
  split
  next =>
    split
    next above =>
      -- one segment less: the last one gained is given back
      refine ⟨gained - 1, ?_⟩
      constructor
      all_goals simp only [clamp, kDefaultMinimumCongestionWindow, kDefaultTCPMSS]
      case threshold => omega
      case floor => omega
      case lower => omega
      case upper => omega
      case effort =>
        cases gained with
        | zero => omega
        | succ fewer =>
            have expand : (fewer + 1) * (fewer + 1) = fewer * fewer + 2 * fewer + 1 := by ring
            simp only [Nat.add_sub_cancel]
            omega
    next => exact ⟨gained, same⟩
  next =>
    split
    next =>
      refine ⟨gained, ?_⟩
      constructor
      all_goals simp only [clamp, grow, kDefaultMinimumCongestionWindow, kDefaultTCPMSS,
        addU64_of_lt fits]
      all_goals omega
    next => exact ⟨gained, same⟩

end VegasWindow

namespace VegasSender

variable {sender next : VegasSender} {acks : Nat}

/-- Nothing sent after the last reduction has been acknowledged. -/
def Fresh (sender : VegasSender) : Prop :=
  ∃ cutback, sender.largestSentAtLastCutback = some cutback ∧
    ∀ acked, sender.largestAckedPacketNumber = some acked → acked ≤ cutback

/-- What Vegas may have added since the last reduction: nothing before the
first acknowledgement and while the current round can still end with an
adjustment. -/
def slack (sender : VegasSender) : Nat :=
  if sender.largestAckedPacketNumber = none ∨
      sender.vegasMode = true ∧ 2 < sender.rttCount then 0 else 1460

/-- The window in the middle of an event, after `acks` acknowledgements. -/
structure InEvent (sender : VegasSender) (acks : Nat) : Prop where
  bounded : sender.congestionWindow < 2 ^ 64
  floor : sender.largestSentAtLastCutback ≠ none → 5840 ≤ sender.congestionWindow
  regrown : sender.vegasMode = false ∨ sender.Fresh →
    ∃ gained, sender.toVegasWindow.Regrown acks gained sender.slack

theorem slack_le (sender : VegasSender) : sender.slack ≤ 1460 := by
  unfold slack
  split <;> omega

/-- An acknowledgement does not tighten the slack, unless it begins a round
that can end with an adjustment. -/
theorem slack_le_slack {other : VegasSender} (acked : other.largestAckedPacketNumber ≠ none)
    (rounds : other.vegasMode = true ∧ 2 < other.rttCount →
      sender.vegasMode = true ∧ 2 < sender.rttCount) : sender.slack ≤ other.slack := by
  unfold slack
  by_cases adjusting : other.vegasMode = true ∧ 2 < other.rttCount
  · rw [if_pos (Or.inr (rounds adjusting))]
    exact Nat.zero_le _
  · rw [if_neg (not_or.mpr ⟨acked, adjusting⟩)]
    exact sender.slack_le

theorem InEvent.onPacketLost (inEvent : sender.InEvent acks) (packet : Nat) :
    (sender.onPacketLost packet).InEvent acks := by
  rcases sender.onPacketLost_cases packet with ⟨same, _⟩ | shape
  · rw [same]
    exact inEvent
  · rw [shape]
    have cut := VegasWindow.regrown_cutBack inEvent.bounded acks
    refine ⟨?_, fun _ => cut.floor, fun _ => ⟨0, cut.mono (le_refl _) (Nat.zero_le _)⟩⟩
    have upper := cut.upper
    dsimp only
    omega

theorem InEvent.losses (inEvent : sender.InEvent acks) (lostPackets : List Nat) :
    (lostPackets.foldl VegasSender.onPacketLost sender).InEvent acks :=
  losses_invariant (fun state => state.InEvent acks)
    (fun _ packet holds => holds.onPacketLost packet) inEvent lostPackets

theorem fresh_of_updateMax {largest : Option Nat} {packet cutback : Nat}
    (fresh : ∀ acked, updateMax largest packet = some acked → acked ≤ cutback) :
    ∀ acked, largest = some acked → acked ≤ cutback := by
  intro acked known
  have newest := fresh (max acked packet) (by simp [updateMax, known])
  omega

theorem regrown_ackStep {gained packet : Nat}
    (regrown : sender.toVegasWindow.Regrown acks gained sender.slack)
    (few : acks + 1 ≤ 2 ^ 64) (step : AckStep sender packet next) :
    ∃ otherGained, next.toVegasWindow.Regrown (acks + 1) otherGained next.slack := by
  have acked : updateMax sender.largestAckedPacketNumber packet ≠ none := by
    unfold updateMax
    split <;> simp
  cases step with
  | reno renoMode =>
      obtain ⟨otherGained, after⟩ := regrown.increaseAsReno few sender.slack_le
      exact ⟨otherGained, after.mono (le_refl _) (slack_le_slack acked id)⟩
  | within beg vegasMode _ _ =>
      refine ⟨gained, ?_⟩
      simp only [regrown.not_inSlowStart, Bool.false_eq_true, if_false, regrown.clamp_eq]
      exact regrown.mono (by omega) (slack_le_slack acked id)
  | roundEnds beg window vegasMode _ _ ended =>
      have loose : slack { sender with
          largestAckedPacketNumber := updateMax sender.largestAckedPacketNumber packet
          toVegasWindow := window.clamp
          begSendNext := sender.largestSentPacketNumber
          minRtt := infiniteUs
          rttCount := 0 } = 1460 := if_neg (by simp [acked])
      rw [loose]
      unfold roundEnd at ended
      split at ended
      next =>
        rw [← Except.ok.inj ended]
        obtain ⟨otherGained, after⟩ := regrown.increaseAsReno few sender.slack_le
        refine ⟨otherGained, ?_⟩
        dsimp only
        rw [after.clamp_eq]
        exact after.mono (le_refl _) sender.slack_le
      next enough =>
        -- the adjustment may add a segment, which the slack of the round allows
        have tight : sender.slack = 0 := if_pos (Or.inr ⟨vegasMode, by omega⟩)
        rw [tight] at regrown
        rw [VegasWindow.checkedAdjust_eq_ok ended]
        exact regrown.adjust (by omega) _ _

theorem AckStep.bounded {packet : Nat} (bounded : sender.congestionWindow < 2 ^ 64)
    (step : AckStep sender packet next) : next.congestionWindow < 2 ^ 64 := by
  obtain ⟨window, moved, shape⟩ := step.moved
  have small := moved.bounded bounded
  rcases shape with plain | clamped
  · rw [plain]
    exact small
  · rw [clamped]
    exact VegasWindow.clamp_bounded small

theorem InEvent.ackStep (inEvent : sender.InEvent acks) (few : acks + 1 ≤ 2 ^ 64)
    {packet : Nat} (step : AckStep sender packet next) : next.InEvent (acks + 1) := by
  have regrown : next.vegasMode = false ∨ next.Fresh →
      ∃ gained, next.toVegasWindow.Regrown (acks + 1) gained next.slack := by
    intro recovering
    have before : sender.vegasMode = false ∨ sender.Fresh := by
      cases step with
      | reno renoMode => exact Or.inl renoMode
      | within | roundEnds =>
          exact recovering.imp id fun ⟨cutback, known, fresh⟩ =>
            ⟨cutback, known, fresh_of_updateMax fresh⟩
    obtain ⟨gained, held⟩ := inEvent.regrown before
    exact regrown_ackStep held few step
  refine ⟨step.bounded inEvent.bounded, ?_, regrown⟩
  intro _
  cases step with
  | reno renoMode =>
      obtain ⟨gained, held⟩ := regrown (Or.inl renoMode)
      exact held.floor
  | within => exact le_max_right _ _
  | roundEnds => exact le_max_right _ _

structure AtRest (sender : VegasSender) (acks : Nat) : Prop where
  bounded : sender.congestionWindow < 2 ^ 64
  floor : sender.largestSentAtLastCutback ≠ none → 5840 ≤ sender.congestionWindow
  regrown : sender.Fresh → ∃ gained, sender.toVegasWindow.Regrown acks gained
    (if sender.largestAckedPacketNumber = none then 0 else 1460)

theorem fresh_of_inRecovery (recovers : sender.inRecovery = true) : sender.Fresh := by
  unfold inRecovery at recovers
  split at recovers
  next acked cutback ackedKnown cutbackKnown =>
    refine ⟨cutback, cutbackKnown, ?_⟩
    intro other known
    rw [ackedKnown, Option.some.injEq] at known
    simpa [← known] using recovers
  next => cases recovers

theorem inRecovery_of_fresh (fresh : sender.Fresh)
    (acked : sender.largestAckedPacketNumber ≠ none) : sender.inRecovery = true := by
  obtain ⟨cutback, cutbackKnown, covers⟩ := fresh
  obtain ⟨largest, ackedKnown⟩ := Option.ne_none_iff_exists'.mp acked
  simpa [inRecovery, cutbackKnown, ackedKnown] using covers largest ackedKnown

theorem AtRest.inEvent (atRest : sender.AtRest acks)
    (mode : sender.vegasMode = !sender.inRecovery) {collected : VegasSender}
    (same : SameNumbers sender collected) : collected.InEvent acks := by
  constructor
  case bounded => rw [same.window]; exact atRest.bounded
  case floor => rw [same.window, same.cutback]; exact atRest.floor
  case regrown =>
    rw [same.window, same.mode]
    intro recovering
    have fresh : sender.Fresh := by
      rcases recovering with renoMode | fresh
      · apply fresh_of_inRecovery
        simpa [renoMode] using mode
      · unfold Fresh at fresh
        rwa [same.cutback, same.acked] at fresh
    obtain ⟨gained, regrown⟩ := atRest.regrown fresh
    refine ⟨gained, regrown.mono (le_refl _) ?_⟩
    split
    next => exact Nat.zero_le _
    next acked =>
      -- the first acknowledgement has ended Vegas mode
      have renoMode : collected.vegasMode = false := by
        rw [same.mode, mode, inRecovery_of_fresh fresh acked]
        rfl
      unfold slack
      rw [if_neg (by simp [same.acked, acked, renoMode])]

theorem InEvent.switchMode (inEvent : sender.InEvent acks) (before : Bool) :
    (sender.switchMode before).AtRest acks := by
  obtain ⟨sameWindow, sameAcked, sameCutback⟩ := sender.switchMode_window before
  constructor
  case bounded => rw [sameWindow]; exact inEvent.bounded
  case floor => rw [sameWindow, sameCutback]; exact inEvent.floor
  case regrown =>
    unfold Fresh
    rw [sameWindow, sameAcked, sameCutback]
    intro fresh
    obtain ⟨gained, regrown⟩ := inEvent.regrown (Or.inr fresh)
    refine ⟨gained, regrown.mono (le_refl _) ?_⟩
    split
    next unacked => rw [slack, if_pos (Or.inl unacked)]
    next => exact sender.slack_le

theorem InEvent.ackLoop {ackedPackets : List Nat} (inEvent : sender.InEvent acks)
    (few : acks + ackedPackets.length ≤ 2 ^ 64)
    (result : ackedPackets.foldlM onPacketAcked sender = .ok next) :
    next.InEvent (acks + ackedPackets.length) := by
  refine foldlM_invariant (fun count state => count ≤ 2 ^ 64 → state.InEvent count)
    ackedPackets ?_ acks (fun _ => inEvent) result few
  intro count state packet after _ holds step fewer
  exact (holds (by omega)).ackStep fewer (ackStep_of_ok step)

theorem AtRest.onCongestionEvent (atRest : sender.AtRest acks)
    (mode : sender.vegasMode = !sender.inRecovery)
    {latestRtt eventTime : Nat} {ackedPackets lostPackets : List Nat}
    (few : acks + ackedPackets.length ≤ 2 ^ 64)
    (result : sender.onCongestionEvent latestRtt eventTime ackedPackets lostPackets =
      .ok next) : next.AtRest (acks + ackedPackets.length) := by
  obtain ⟨collected, after, rfl, loop, rfl⟩ := onCongestionEvent_eq_ok result
  have same := sameNumbers_collect sender latestRtt eventTime ackedPackets
  exact (((atRest.inEvent mode same).losses lostPackets).ackLoop few loop).switchMode _

theorem losses_cutback (lostPackets : List Nat)
    (sent : sender.largestSentPacketNumber ≠ none)
    (known : sender.largestSentAtLastCutback ≠ none ∨ lostPackets ≠ []) :
    (lostPackets.foldl onPacketLost sender).largestSentAtLastCutback ≠ none := by
  induction lostPackets generalizing sender with
  | nil => exact known.resolve_right (not_not_intro rfl)
  | cons packet rest inductionHypothesis =>
      rw [List.foldl_cons]
      rcases sender.onPacketLost_cases packet with ⟨same, cutback, covered, _⟩ | shape
      · rw [same]
        exact inductionHypothesis sent (Or.inl (by simp [covered]))
      · rw [shape]
        exact inductionHypothesis sent (Or.inl sent)

theorem AtRest.floor_after (atRest : sender.AtRest acks)
    (mode : sender.vegasMode = !sender.inRecovery)
    {latestRtt eventTime : Nat} {ackedPackets lostPackets : List Nat}
    (few : acks + ackedPackets.length ≤ 2 ^ 64)
    (known : lostPackets ≠ [] → sender.largestSentPacketNumber ≠ none)
    (result : sender.onCongestionEvent latestRtt eventTime ackedPackets lostPackets =
      .ok next) (something : ackedPackets ≠ [] ∨ lostPackets ≠ []) :
    5840 ≤ next.congestionWindow := by
  obtain ⟨collected, after, shape, loop, rfl⟩ := onCongestionEvent_eq_ok result
  have same := sameNumbers_collect sender latestRtt eventTime ackedPackets
  rw [← shape] at same
  have lossesInEvent := (atRest.inEvent mode same).losses lostPackets
  have afterInEvent := lossesInEvent.ackLoop few loop
  obtain ⟨_, sameCutback, _, sameMode⟩ := acks_frame loop
  rw [(after.switchMode_window _).1]
  cases modeAfter : after.vegasMode with
  | false =>
      obtain ⟨gained, regrown⟩ := afterInEvent.regrown (Or.inl modeAfter)
      exact regrown.floor
  | true =>
      by_cases acked : ackedPackets = []
      · apply afterInEvent.floor
        rw [sameCutback]
        have lost := something.resolve_left (not_not_intro acked)
        exact losses_cutback lostPackets (same.sent ▸ known lost) (Or.inr lost)
      · -- in Vegas mode every acknowledgement ends with the clamp
        have clamped := foldlM_invariant (fun count state => state.vegasMode = true →
            0 < count → 5840 ≤ state.congestionWindow) ackedPackets
          (fun count state packet other _ _ step vegas _ => by
            cases ackStep_of_ok step with
            | reno renoMode => simp [renoMode] at vegas
            | within => exact le_max_right _ _
            | roundEnds => exact le_max_right _ _) 0 (fun _ impossible => by omega) loop
        exact clamped modeAfter (by simpa using List.length_pos_iff.mpr acked)

def Between (sender : VegasSender) (limit : Nat) : Prop :=
  5840 ≤ sender.congestionWindow ∧ sender.congestionWindow ≤ limit

theorem Between.losses {limit : Nat} (between : sender.Between limit)
    (lostPackets : List Nat) :
    (lostPackets.foldl onPacketLost sender).Between limit := by
  refine losses_invariant (fun state => state.Between limit) ?_ between lostPackets
  rintro state packet ⟨lower, upper⟩
  rcases state.onPacketLost_cases packet with ⟨same, _⟩ | shape
  · rw [same]
    exact ⟨lower, upper⟩
  · rw [shape]
    simp only [Between, VegasWindow.cutBack, kDefaultMinimumCongestionWindow, kDefaultTCPMSS]
    omega

theorem Between.ackStep {limit packet : Nat} (between : sender.Between limit)
    (fits : limit + 1460 < 2 ^ 64) (step : AckStep sender packet next) :
    next.Between (limit + 1460) := by
  obtain ⟨lower, upper⟩ := between
  have grown : sender.toVegasWindow.grow.congestionWindow = sender.congestionWindow + 1460 :=
    addU64_of_lt (by omega : sender.congestionWindow + 1460 < 2 ^ 64)
  have clamped : ∀ window : VegasWindow,
      window.congestionWindow ≤ sender.congestionWindow + 1460 →
      5840 ≤ window.clamp.congestionWindow ∧
        window.clamp.congestionWindow ≤ limit + 1460 := by
    intro window small
    simp only [VegasWindow.clamp, kDefaultMinimumCongestionWindow, kDefaultTCPMSS]
    omega
  cases step with
  | reno =>
      have reno := sender.toVegasWindow.increaseAsReno_cases
      unfold Between
      dsimp only
      omega
  | within =>
      apply clamped
      split
      next => exact grown.le
      next => exact Nat.le_add_right _ _
  | roundEnds beg window _ _ _ ended =>
      apply clamped
      exact (moved_roundEnd ended).congestionWindow_le (Nat.le_add_right _ _) fun _ => le_refl _

theorem Between.onCongestionEvent {limit : Nat} (between : sender.Between limit)
    {latestRtt eventTime : Nat} {ackedPackets lostPackets : List Nat}
    (fits : limit + 1460 * ackedPackets.length < 2 ^ 64)
    (result : sender.onCongestionEvent latestRtt eventTime ackedPackets lostPackets =
      .ok next) : next.Between (limit + 1460 * ackedPackets.length) := by
  obtain ⟨collected, after, rfl, loop, rfl⟩ := onCongestionEvent_eq_ok result
  have same := sameNumbers_collect sender latestRtt eventTime ackedPackets
  have collectedBetween : Between (if ackedPackets.isEmpty then sender
      else sender.collectRtt latestRtt eventTime) limit := by
    unfold Between
    rw [same.window]
    exact between
  have counted := foldlM_invariant (fun count state =>
      limit + 1460 * count < 2 ^ 64 → state.Between (limit + 1460 * count)) ackedPackets
    (fun count state packet other _ holds step small => by
      rw [Nat.mul_succ, ← Nat.add_assoc] at small ⊢
      exact (holds (by omega)).ackStep small (ackStep_of_ok step))
    0 (fun _ => collectedBetween.losses lostPackets) loop
  rw [Nat.zero_add] at counted
  unfold Between
  rw [(after.switchMode_window _).1]
  exact counted fits

end VegasSender

namespace VegasConnection

open VegasSender

variable {connection next : VegasConnection}

/-- Packets are acknowledged once, and the initial window is configured before
the first reduction. -/
def Orderly (connection : VegasConnection) : VegasAction → Prop
  | .packetSent _ => True
  | .congestionEvent _ _ ackedPackets _ =>
      ackedPackets.Nodup ∧ ∀ packet ∈ ackedPackets, packet ∉ connection.acked
  | .setInitialCongestionWindowInPackets _ =>
      connection.sender.largestSentAtLastCutback = none

instance (connection : VegasConnection) (action : VegasAction) :
    Decidable (connection.Orderly action) :=
  match action with
  | .packetSent _ => inferInstanceAs (Decidable True)
  | .congestionEvent _ _ ackedPackets _ =>
      inferInstanceAs (Decidable (_ ∧ ∀ packet ∈ ackedPackets, _))
  | .setInitialCongestionWindowInPackets _ => inferInstanceAs (Decidable (_ = none))

def OrderlyStep : VegasConnection → VegasAction → VegasConnection → Prop :=
  Guarded (fun connection action => connection.Enabled action ∧ connection.Orderly action)
    perform

structure Accounted (connection : VegasConnection) : Prop where
  invariant : connection.Invariant
  atRest : connection.sender.AtRest connection.acked.length
  distinct : connection.acked.Nodup
  sent : ∀ packet ∈ connection.acked, packet ∈ connection.sent
  valid : ∀ packet ∈ connection.sent, packet < 2 ^ 64

theorem length_le_of_nodup {packets : List Nat} {limit : Nat} (distinct : packets.Nodup)
    (valid : ∀ packet ∈ packets, packet < limit) : packets.length ≤ limit := by
  have inRange : packets.toFinset ⊆ Finset.range limit := by
    intro packet membership
    exact Finset.mem_range.mpr (valid packet (List.mem_toFinset.mp membership))
  have card := Finset.card_le_card inRange
  rwa [List.toFinset_card_of_nodup distinct, Finset.card_range] at card

theorem accounted_create (initialWindow maxWindow : Nat) :
    (create initialWindow maxWindow).Accounted where
  invariant := invariant_create initialWindow maxWindow
  atRest := by
    refine ⟨mulU64_lt _ _, fun known => absurd rfl known, ?_⟩
    rintro ⟨_, impossible, _⟩
    cases impossible
  distinct := List.nodup_nil
  sent := by simp [create]
  valid := by simp [create]

theorem Accounted.few (accounted : connection.Accounted)
    {latestRtt eventTime : Nat} {ackedPackets lostPackets : List Nat}
    (enabled : connection.Enabled
      (.congestionEvent latestRtt eventTime ackedPackets lostPackets))
    (orderly : connection.Orderly
      (.congestionEvent latestRtt eventTime ackedPackets lostPackets)) :
    (connection.acked ++ ackedPackets).Nodup ∧
      connection.acked.length + ackedPackets.length ≤ 2 ^ 64 := by
  have distinct : (connection.acked ++ ackedPackets).Nodup := by
    refine List.nodup_append.mpr ⟨accounted.distinct, orderly.1, ?_⟩
    intro old oldMember new newMember same
    exact orderly.2 new newMember (same ▸ oldMember)
  refine ⟨distinct, ?_⟩
  rw [← List.length_append]
  apply length_le_of_nodup distinct
  intro packet membership
  apply accounted.valid
  rcases List.mem_append.mp membership with old | new
  · exact accounted.sent packet old
  · exact enabled.2.1 packet new

theorem Accounted.step (accounted : connection.Accounted) {action : VegasAction}
    (step : OrderlyStep connection action next) : next.Accounted := by
  obtain ⟨⟨enabled, orderly⟩, result⟩ := step
  have invariant := accounted.invariant.step ⟨enabled, result⟩
  cases action with
  | packetSent packet =>
      have shape := packetSent_eq_ok result
      subst shape
      refine ⟨invariant, ⟨accounted.atRest.bounded, accounted.atRest.floor,
        accounted.atRest.regrown⟩, accounted.distinct, ?_, ?_⟩
      · exact fun other membership => List.mem_cons_of_mem _ (accounted.sent other membership)
      · intro other membership
        cases membership with
        | head => exact lt_trans enabled.1 (by decide)
        | tail _ older => exact accounted.valid other older
  | congestionEvent latestRtt eventTime ackedPackets lostPackets =>
      obtain ⟨distinct, few⟩ := accounted.few enabled orderly
      obtain ⟨performed, sameSent, nowAcked, _⟩ := congestionEvent_eq_ok result
      refine ⟨invariant, ?_, nowAcked ▸ distinct, ?_, sameSent ▸ accounted.valid⟩
      · rw [nowAcked, List.length_append]
        exact accounted.atRest.onCongestionEvent accounted.invariant.mode few performed
      · rw [sameSent, nowAcked]
        intro packet membership
        rcases List.mem_append.mp membership with old | new
        · exact accounted.sent packet old
        · exact enabled.2.1 packet new
  | setInitialCongestionWindowInPackets congestionWindow =>
      have after := setInitialCongestionWindowInPackets_eq_ok result
      subst after
      refine ⟨invariant, ?_, accounted.distinct, accounted.sent, accounted.valid⟩
      have unreduced : connection.sender.largestSentAtLastCutback = none := orderly
      dsimp only
      split
      next =>
        refine ⟨mulU64_lt _ _, fun known => absurd unreduced known, ?_⟩
        rintro ⟨_, impossible, _⟩
        rw [unreduced] at impossible
        cases impossible
      next => exact accounted.atRest

/-- In every run, an event with an acknowledged or lost packet leaves the
window above its minimum, and an event in a state with at least the minimal
window adds at most a segment per acknowledged packet. -/
theorem congestion_window_bounds {initialWindow maxWindow : Nat} {actions : List VegasAction}
    (run : Run OrderlyStep (create initialWindow maxWindow) actions connection)
    {latestRtt eventTime : Nat} {ackedPackets lostPackets : List Nat}
    (step : OrderlyStep connection
      (.congestionEvent latestRtt eventTime ackedPackets lostPackets) next) :
    (ackedPackets ≠ [] ∨ lostPackets ≠ [] →
      kDefaultMinimumCongestionWindow ≤ next.sender.congestionWindow) ∧
    (kDefaultMinimumCongestionWindow ≤ connection.sender.congestionWindow →
      connection.sender.congestionWindow + ackedPackets.length * kDefaultTCPMSS < 2 ^ 64 →
      next.sender.congestionWindow ≤
        connection.sender.congestionWindow + ackedPackets.length * kDefaultTCPMSS) := by
  have accounted : connection.Accounted :=
    run.invariant Accounted (accounted_create initialWindow maxWindow)
      fun _ _ _ holds taken => holds.step taken
  obtain ⟨⟨enabled, orderly⟩, result⟩ := step
  obtain ⟨_, few⟩ := accounted.few enabled orderly
  have performed := (congestionEvent_eq_ok result).1
  constructor
  · apply accounted.atRest.floor_after accounted.invariant.mode few _ performed
    intro lost
    obtain ⟨packet, membership⟩ := List.exists_mem_of_ne_nil _ lost
    obtain ⟨bound, largest, _⟩ :=
      accounted.invariant.sent packet (enabled.2.2 packet membership) packet rfl
    simp [largest]
  · intro atLeast fits
    unfold kDefaultTCPMSS at fits ⊢
    rw [Nat.mul_comm] at fits ⊢
    have between : connection.sender.Between connection.sender.congestionWindow :=
      ⟨atLeast, le_refl _⟩
    exact (between.onCongestionEvent fits performed).2

/-- A connection that starts with a window of one segment. -/
theorem congestion_window_bounds_small :
    ∃ connection next : VegasConnection,
      Run OrderlyStep (create 1 100) [.packetSent 1] connection ∧
      OrderlyStep connection (.congestionEvent 100 1000 [1] []) next ∧
      connection.sender.congestionWindow = 1460 ∧
      kDefaultMinimumCongestionWindow ≤ next.sender.congestionWindow := by
  have run : Run OrderlyStep (create 1 100) _ _ := Run.of_execute [.packetSent 1] rfl
  have event : ∀ next, VegasConnection.perform _ (.congestionEvent 100 1000 [1] []) = .ok next →
      kDefaultMinimumCongestionWindow ≤ next.sender.congestionWindow := fun next performed =>
    (congestion_window_bounds run ⟨⟨by decide, by decide⟩, performed⟩).1 (by decide)
  exact ⟨_, _, run, ⟨⟨by decide, by decide⟩, rfl⟩, rfl, event _ rfl⟩

end VegasConnection

end Ns3Quic.CongestionControl
