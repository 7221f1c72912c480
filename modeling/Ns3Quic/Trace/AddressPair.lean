import Ns3Quic.Lib.RedBlackTree

/-!
# Address pairs

A flow is identified by the addresses of its client and its server.  The
comparison of the source is a disjunction over the four fields.  It is a
strict total order exactly of those sets of pairs in which any two are
comparable field by field.
-/

namespace Ns3Quic.Trace

open RedBlack

structure InetSocketAddress where
  ipv4 : UInt32
  port : UInt16
  deriving DecidableEq

structure Ns3QuicAddressPair where
  clientIp : UInt32
  serverIp : UInt32
  clientPort : UInt16
  serverPort : UInt16
  deriving DecidableEq

namespace Ns3QuicAddressPair

def ofAddresses (client server : InetSocketAddress) : Ns3QuicAddressPair :=
  ⟨client.ipv4, server.ipv4, client.port, server.port⟩

def less (pair other : Ns3QuicAddressPair) : Bool :=
  decide (pair.clientIp < other.clientIp) || decide (pair.serverIp < other.serverIp) ||
    decide (pair.clientPort < other.clientPort) || decide (pair.serverPort < other.serverPort)

structure AtMost (pair other : Ns3QuicAddressPair) : Prop where
  clientIp : pair.clientIp ≤ other.clientIp
  serverIp : pair.serverIp ≤ other.serverIp
  clientPort : pair.clientPort ≤ other.clientPort
  serverPort : pair.serverPort ≤ other.serverPort

def Comparable (pair other : Ns3QuicAddressPair) : Prop :=
  pair.AtMost other ∨ other.AtMost pair

variable {first second third : Ns3QuicAddressPair}

theorem less_eq_false_iff : first.less second = false ↔ second.AtMost first := by
  unfold less
  simp only [Bool.or_eq_false_iff, decide_eq_false_iff_not, UInt32.not_lt, UInt16.not_lt]
  constructor
  · intro fields
    exact ⟨fields.1.1.1, fields.1.1.2, fields.1.2, fields.2⟩
  · intro fields
    exact ⟨⟨⟨fields.clientIp, fields.serverIp⟩, fields.clientPort⟩, fields.serverPort⟩

theorem AtMost.trans (lower : first.AtMost second) (upper : second.AtMost third) :
    first.AtMost third :=
  ⟨UInt32.le_trans lower.clientIp upper.clientIp, UInt32.le_trans lower.serverIp upper.serverIp,
    UInt16.le_trans lower.clientPort upper.clientPort,
    UInt16.le_trans lower.serverPort upper.serverPort⟩

theorem AtMost.antisymm (lower : first.AtMost second) (upper : second.AtMost first) :
    first = second := by
  obtain ⟨clientIp, serverIp, clientPort, serverPort⟩ := first
  obtain ⟨otherClientIp, otherServerIp, otherClientPort, otherServerPort⟩ := second
  rw [mk.injEq]
  exact ⟨UInt32.le_antisymm lower.clientIp upper.clientIp,
    UInt32.le_antisymm lower.serverIp upper.serverIp,
    UInt16.le_antisymm lower.clientPort upper.clientPort,
    UInt16.le_antisymm lower.serverPort upper.serverPort⟩

theorem atMost_refl (pair : Ns3QuicAddressPair) : pair.AtMost pair :=
  ⟨UInt32.le_refl _, UInt32.le_refl _, UInt16.le_refl _, UInt16.le_refl _⟩

theorem less_self (pair : Ns3QuicAddressPair) : pair.less pair = false :=
  less_eq_false_iff.mpr pair.atMost_refl

theorem not_comparable_iff :
    ¬ first.Comparable second ↔ first.less second = true ∧ second.less first = true := by
  unfold Comparable
  rw [← less_eq_false_iff, ← less_eq_false_iff, not_or, Bool.not_eq_false, Bool.not_eq_false,
    and_comm]

instance (pair other : Ns3QuicAddressPair) : Decidable (pair.Comparable other) :=
  decidable_of_iff (other.less pair = false ∨ pair.less other = false)
    (or_congr less_eq_false_iff less_eq_false_iff)

theorem Comparable.atMost_of_less (comparable : first.Comparable second)
    (isLess : first.less second = true) : first.AtMost second := by
  rcases comparable with atMost | atLeast
  · exact atMost
  · rw [less_eq_false_iff.mpr atLeast] at isLess
    cases isLess

/-- The comparison is a strict total order exactly of the sets of pairs that
are comparable field by field. -/
theorem strictTotalOn_less_iff (flows : Ns3QuicAddressPair → Prop) :
    StrictTotalOn less flows ↔
      ∀ first second, flows first → flows second → first.Comparable second := by
  constructor
  · intro order first second firstFlow secondFlow
    by_contra incomparable
    obtain ⟨ascending, descending⟩ := not_comparable_iff.mp incomparable
    have cycle := order.trans first second first firstFlow secondFlow firstFlow ascending
      descending
    rw [less_self] at cycle
    cases cycle
  · intro comparable
    refine ⟨fun first _ => first.less_self, ?_, ?_⟩
    · intro first second third firstFlow secondFlow thirdFlow lower upper
      have firstSecond := (comparable first second firstFlow secondFlow).atMost_of_less lower
      have secondThird := (comparable second third secondFlow thirdFlow).atMost_of_less upper
      -- otherwise the third is at most the first, and then at most the second
      by_contra notLess
      have thirdFirst := less_eq_false_iff.mp (by simpa using notLess)
      rw [less_eq_false_iff.mpr (thirdFirst.trans firstSecond)] at upper
      cases upper
    · intro first second _ _ notLess notGreater
      exact (less_eq_false_iff.mp notGreater).antisymm (less_eq_false_iff.mp notLess)

end Ns3QuicAddressPair

end Ns3Quic.Trace
