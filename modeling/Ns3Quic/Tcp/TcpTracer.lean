import Ns3Quic.Trace.AddressPair
import Mathlib.Algebra.Ring.Int.Defs
import Mathlib.Algebra.Ring.Nat
import Mathlib.Data.List.Induction
import Mathlib.Data.List.Nodup

/-!
# The registry of TCP sessions

`InfoPriv` is the object behind the static functions of `TcpTracer`.  It keeps
the number of bytes of every session in a `std::map`, adds up what finished
sessions have received, and writes the utilisation of the bottleneck when all
flows of the experiment have stopped.

The keys of the map are compared by a disjunction over their four fields, as
the address pairs of QUIC flows are, and the number of bytes passes through a
parameter of 32 bits.
-/

namespace Ns3Quic.Tcp

open Trace RedBlack

structure TcpSessionKey where
  ip1 : UInt32
  ip2 : UInt32
  port1 : UInt16
  port2 : UInt16
  deriving DecidableEq

namespace TcpSessionKey

def less (key other : TcpSessionKey) : Bool :=
  decide (key.ip1 < other.ip1) || decide (key.ip2 < other.ip2) ||
    decide (key.port1 < other.port1) || decide (key.port2 < other.port2)

/-! ### Keys as address pairs -/

def addrPair (key : TcpSessionKey) : Ns3QuicAddressPair :=
  ⟨key.ip1, key.ip2, key.port1, key.port2⟩

def ofAddrPair (pair : Ns3QuicAddressPair) : TcpSessionKey :=
  ⟨pair.clientIp, pair.serverIp, pair.clientPort, pair.serverPort⟩

theorem addrPair_injective : Function.Injective addrPair := fun _ _ same =>
  congrArg ofAddrPair same

theorem less_eq (key other : TcpSessionKey) :
    key.less other = key.addrPair.less other.addrPair := rfl

def Comparable (key other : TcpSessionKey) : Prop := key.addrPair.Comparable other.addrPair

instance (key other : TcpSessionKey) : Decidable (key.Comparable other) :=
  inferInstanceAs (Decidable (Ns3QuicAddressPair.Comparable _ _))

theorem strictTotalOn_less {sessions : TcpSessionKey → Prop}
    (comparable : ∀ first second, sessions first → sessions second → first.Comparable second) :
    StrictTotalOn less sessions := by
  have order := (Ns3QuicAddressPair.strictTotalOn_less_iff
    fun pair => sessions (ofAddrPair pair)).mpr
      fun first second => comparable (ofAddrPair first) (ofAddrPair second)
  refine ⟨fun first => order.irrefl first.addrPair, fun first second third =>
    order.trans first.addrPair second.addrPair third.addrPair, ?_⟩
  intro first second firstSession secondSession notLess notGreater
  exact addrPair_injective (order.total _ _ firstSession secondSession notLess notGreater)

theorem eq_of_not_less {first second : TcpSessionKey} (notLess : first.less second = false)
    (notGreater : second.less first = false) : first = second := by
  rw [less_eq, Ns3QuicAddressPair.less_eq_false_iff] at notLess notGreater
  exact addrPair_injective (notGreater.antisymm notLess)

end TcpSessionKey

/-- A line of the utilisation log: `bytes` were received until `stopStamp`. -/
structure UtilLine where
  stopStamp : Nat
  bytes : UInt64
  bandwidth : UInt32
  deriving DecidableEq

/-- Times are in nanoseconds, and zero is an unset time. -/
structure InfoPriv where
  flows : UInt32
  bandwidth : UInt32
  flowCount : UInt32
  stopStamp : Nat
  bytes : UInt64
  sessionBytes : Tree TcpSessionKey UInt32
  util : List UtilLine
  deriving DecidableEq

namespace InfoPriv

def create : InfoPriv := ⟨0, 0, 0, 0, 0, .leaf, []⟩

def setExperimentInfo (info : InfoPriv) (flowNum bottleneckBw : UInt32) : InfoPriv :=
  { info with flows := flowNum, bandwidth := bottleneckBw }

def isEnableBandwidthUtility (info : InfoPriv) : Bool := decide (0 < info.flows)

def registerBulkBytes (info : InfoPriv) (key : TcpSessionKey) (bytes : UInt32) : InfoPriv :=
  if 0 < info.flows then
    { info with sessionBytes := (insert TcpSessionKey.less key bytes info.sessionBytes).1 }
  else
    info

def getBulkBytes (info : InfoPriv) (key : TcpSessionKey) : Int :=
  if 0 < info.flows then
    match info.sessionBytes.find? TcpSessionKey.less key with
    | some bytes => bytes.toNat
    | none => -1
  else
    -1

def onSessionStop (info : InfoPriv) (bytes : UInt32) (stop : Nat) : InfoPriv :=
  if info.flows = 0 then
    info
  else
    let info := { info with
      bytes := info.bytes + bytes.toUInt64
      flowCount := info.flowCount + 1
      stopStamp := if info.stopStamp = 0 ∨ info.stopStamp < stop then stop else info.stopStamp }
    if info.flowCount = info.flows ∧ info.stopStamp ≠ 0 then
      { info with util := info.util ++ [⟨info.stopStamp, info.bytes, info.bandwidth⟩] }
    else
      info

theorem onSessionStop_counts {info : InfoPriv} (enabled : info.flows ≠ 0) (bytes : UInt32)
    (stop : Nat) :
    (info.onSessionStop bytes stop).bytes = info.bytes + bytes.toUInt64 ∧
      (info.onSessionStop bytes stop).flowCount = info.flowCount + 1 := by
  unfold onSessionStop
  rw [if_neg enabled]
  dsimp only
  generalize (if info.stopStamp = 0 ∨ info.stopStamp < stop then stop else info.stopStamp) = stamp
  split <;> exact ⟨rfl, rfl⟩

theorem flows_onSessionStop (info : InfoPriv) (bytes : UInt32) (stop : Nat) :
    (info.onSessionStop bytes stop).flows = info.flows := by
  unfold onSessionStop
  dsimp only
  generalize (if info.stopStamp = 0 ∨ info.stopStamp < stop then stop else info.stopStamp) = stamp
  split <;> [rfl; split <;> rfl]

end InfoPriv

/-! ## Registration -/

structure BulkSession where
  key : TcpSessionKey
  targetBytes : UInt64
  deriving DecidableEq

namespace InfoPriv

/-- The registrations of `TcpClient::RegisterTraceFunctions`.  The target is
converted to the 32 bits of the parameter. -/
def registerAll (info : InfoPriv) (sessions : List BulkSession) : InfoPriv :=
  sessions.foldl (fun info session =>
    info.registerBulkBytes session.key session.targetBytes.toUInt32) info

theorem counters_registerAll (info : InfoPriv) (sessions : List BulkSession) :
    (info.registerAll sessions).flowCount = info.flowCount ∧
      (info.registerAll sessions).bytes = info.bytes := by
  have single (info : InfoPriv) (key : TcpSessionKey) (bytes : UInt32) :
      (info.registerBulkBytes key bytes).flowCount = info.flowCount ∧
        (info.registerBulkBytes key bytes).bytes = info.bytes := by
    unfold registerBulkBytes
    split <;> exact ⟨rfl, rfl⟩
  induction sessions generalizing info with
  | nil => exact ⟨rfl, rfl⟩
  | cons session rest inductionHypothesis =>
      obtain ⟨flowCount, bytes⟩ := single info session.key session.targetBytes.toUInt32
      obtain ⟨laterCount, laterBytes⟩ := inductionHypothesis
        (info.registerBulkBytes session.key session.targetBytes.toUInt32)
      exact ⟨laterCount.trans flowCount, laterBytes.trans bytes⟩

theorem getBulkBytes_lt (info : InfoPriv) (key : TcpSessionKey) :
    info.getBulkBytes key < 2 ^ 32 := by
  unfold getBulkBytes
  split
  next =>
    split
    next bytes _ =>
      have fits := bytes.toNat_lt
      omega
    next => decide
  next => decide

/-- The targets of the sessions are returned, and no others. -/
structure ReadsBack (info : InfoPriv) (sessions : List BulkSession) : Prop where
  registered : ∀ session ∈ sessions,
    info.getBulkBytes session.key = (session.targetBytes.toNat : Int)
  unregistered : ∀ key, key ∉ sessions.map BulkSession.key → info.getBulkBytes key = -1

structure Holds (members : TcpSessionKey → Prop) (info : InfoPriv)
    (sessions : List BulkSession) : Prop where
  enabled : 0 < info.flows
  ordered : Ordered TcpSessionKey.less members info.sessionBytes
  entries : ∀ entry, entry ∈ info.sessionBytes.toList ↔
    ∃ session ∈ sessions, entry = (session.key, session.targetBytes.toUInt32)

variable {members : TcpSessionKey → Prop} {info : InfoPriv} {sessions : List BulkSession}
  {session : BulkSession}

theorem holds_create {flows : UInt32} (positive : 0 < flows) (bandwidth : UInt32) :
    Holds members (create.setExperimentInfo flows bandwidth) [] where
  enabled := positive
  ordered := ordered_leaf
  entries := by simp [create, setExperimentInfo, Tree.toList]

theorem Holds.registerBulkBytes (order : StrictTotalOn TcpSessionKey.less members)
    (holds : Holds members info sessions) (member : members session.key)
    (fresh : session.key ∉ sessions.map BulkSession.key) :
    Holds members (info.registerBulkBytes session.key session.targetBytes.toUInt32)
      (sessions ++ [session]) := by
  have absent : ∀ bytes, (session.key, bytes) ∉ info.sessionBytes.toList := by
    intro bytes membership
    obtain ⟨other, earlier, same⟩ := (holds.entries _).mp membership
    exact fresh (List.mem_map.mpr ⟨other, earlier, (Prod.mk.inj same).1.symm⟩)
  obtain ⟨_, ordered, entries⟩ :=
    insert_of_fresh order member session.targetBytes.toUInt32 holds.ordered absent
  unfold InfoPriv.registerBulkBytes
  rw [if_pos holds.enabled]
  refine ⟨holds.enabled, ordered, fun entry => ?_⟩
  rw [entries, holds.entries]
  simp only [List.mem_append, List.mem_singleton]
  constructor
  · rintro (here | ⟨other, earlier, same⟩)
    · exact ⟨session, .inr rfl, here⟩
    · exact ⟨other, .inl earlier, same⟩
  · rintro ⟨other, earlier | rfl, same⟩
    · exact .inr ⟨other, earlier, same⟩
    · exact .inl same

theorem Holds.registerAll (order : StrictTotalOn TcpSessionKey.less members)
    (holds : Holds members info []) (allMembers : ∀ session ∈ sessions, members session.key)
    (distinct : (sessions.map BulkSession.key).Nodup) :
    Holds members (info.registerAll sessions) sessions := by
  induction sessions using List.reverseRecOn with
  | nil => exact holds
  | append_singleton front last inductionHypothesis =>
      rw [List.map_append, List.nodup_append] at distinct
      obtain ⟨frontDistinct, _, disjoint⟩ := distinct
      have before := inductionHypothesis
        (fun session membership => allMembers session (List.mem_append_left _ membership))
        frontDistinct
      have fresh : last.key ∉ front.map BulkSession.key := fun membership =>
        disjoint _ membership _ (by simp) rfl
      rw [InfoPriv.registerAll, List.foldl_append]
      exact before.registerBulkBytes order (allMembers last (by simp)) fresh

theorem Holds.readsBack (order : StrictTotalOn TcpSessionKey.less members)
    (holds : Holds members info sessions) (allMembers : ∀ session ∈ sessions, members session.key)
    (small : ∀ session ∈ sessions, session.targetBytes.toNat < 2 ^ 32) :
    info.ReadsBack sessions := by
  constructor
  · intro session membership
    have found := (find?_eq_some_iff order (allMembers session membership) holds.ordered).mpr
      ((holds.entries _).mpr ⟨session, membership, rfl⟩)
    unfold getBulkBytes
    rw [if_pos holds.enabled, found]
    dsimp only
    rw [UInt64.toNat_toUInt32, Nat.mod_eq_of_lt (small session membership)]
  · intro key absent
    unfold getBulkBytes
    rw [if_pos holds.enabled]
    split
    next bytes found =>
      have membership := mem_of_find?_eq_some (fun _ _ => TcpSessionKey.eq_of_not_less) found
      obtain ⟨session, registered, same⟩ := (holds.entries _).mp membership
      exact absurd (List.mem_map.mpr ⟨session, registered, (Prod.mk.inj same).1.symm⟩) absent
    next => rfl

/-! ## Defects -/

theorem small_of_readsBack {flows bandwidth : UInt32} (positive : 0 < flows)
    (readsBack : ((create.setExperimentInfo flows bandwidth).registerAll [session]).ReadsBack
      [session]) :
    session.targetBytes.toNat < 2 ^ 32 := by
  have returned := readsBack.registered session (by simp)
  have cutOff : ((create.setExperimentInfo flows bandwidth).registerAll [session]).getBulkBytes
      session.key = (session.targetBytes.toNat % 2 ^ 32 : Nat) := by
    simp [registerAll, registerBulkBytes, getBulkBytes, setExperimentInfo, create, positive,
      RedBlack.insert, descend, predecessor, rebalance, Tree.find?, Tree.lowerBound, Tree.blacken,
      TcpSessionKey.less_eq, Ns3QuicAddressPair.less_self]
  rw [cutOff, Int.natCast_inj] at returned
  rw [← returned]
  exact Nat.mod_lt _ (by decide)

theorem comparable_of_readsBack {flows bandwidth : UInt32} (positive : 0 < flows)
    {first second : BulkSession}
    (readsBack : ((create.setExperimentInfo flows bandwidth).registerAll
      [first, second]).ReadsBack [first, second]) :
    first.key.Comparable second.key := by
  by_contra incomparable
  obtain ⟨ascending, descending⟩ := Ns3QuicAddressPair.not_comparable_iff.mp incomparable
  rw [← TcpSessionKey.less_eq] at ascending descending
  have missing := find?_insert_of_cycle ascending descending
    first.targetBytes.toUInt32 second.targetBytes.toUInt32
  have returned := readsBack.registered second (by simp)
  simp only [registerAll, registerBulkBytes, getBulkBytes, setExperimentInfo, create,
    List.foldl_cons, List.foldl_nil, if_pos positive, missing] at returned
  omega

/-- The registry serves a set of sessions, whichever of them are registered in
whatever order, exactly if any two are comparable field by field and every
target fits into 32 bits. -/
theorem readsBack_iff {flows : UInt32} (positive : 0 < flows) (bandwidth : UInt32)
    (sessions : BulkSession → Prop) :
    (∀ registered : List BulkSession, (∀ session ∈ registered, sessions session) →
      (registered.map BulkSession.key).Nodup →
      ((create.setExperimentInfo flows bandwidth).registerAll registered).ReadsBack registered) ↔
    (∀ first second, sessions first → sessions second → first.key.Comparable second.key) ∧
      ∀ session, sessions session → session.targetBytes.toNat < 2 ^ 32 := by
  constructor
  · intro readsBack
    constructor
    · intro first second firstSession secondSession
      by_cases same : first.key = second.key
      · rw [same]
        exact .inl (Ns3QuicAddressPair.atMost_refl _)
      · apply comparable_of_readsBack positive
        apply readsBack
        · simp [firstSession, secondSession]
        · simp [same]
    · intro session isSession
      apply small_of_readsBack positive
      apply readsBack
      · simp [isSession]
      · simp
  · rintro ⟨comparable, small⟩ registered allSessions distinct
    have order : StrictTotalOn TcpSessionKey.less fun key =>
        ∃ session, sessions session ∧ session.key = key := by
      apply TcpSessionKey.strictTotalOn_less
      rintro _ _ ⟨first, firstSession, rfl⟩ ⟨second, secondSession, rfl⟩
      exact comparable first second firstSession secondSession
    have allMembers : ∀ session ∈ registered,
        ∃ other, sessions other ∧ other.key = session.key := fun session membership =>
      ⟨session, allSessions session membership, rfl⟩
    have holds := (holds_create positive bandwidth).registerAll order allMembers distinct
    exact holds.readsBack order allMembers fun session membership =>
      small session (allSessions session membership)

/-- Two sessions of one client whose ports increase together. -/
theorem readsBack_increasing_ports :
    ((create.setExperimentInfo 2 1000000).registerAll
        [⟨⟨0x0A000001, 0x0A000002, 1000, 2000⟩, 500⟩,
          ⟨⟨0x0A000001, 0x0A000002, 1001, 2001⟩, 700⟩]).ReadsBack
      [⟨⟨0x0A000001, 0x0A000002, 1000, 2000⟩, 500⟩,
        ⟨⟨0x0A000001, 0x0A000002, 1001, 2001⟩, 700⟩] := by
  refine (readsBack_iff (show (0 : UInt32) < 2 by decide) 1000000 fun session => session ∈
    [(⟨⟨0x0A000001, 0x0A000002, 1000, 2000⟩, 500⟩ : BulkSession),
      ⟨⟨0x0A000001, 0x0A000002, 1001, 2001⟩, 700⟩]).mpr ⟨?_, ?_⟩ _ (fun _ => id) (by decide)
  · intro first second firstSession secondSession
    simp only [List.mem_cons, List.not_mem_nil, or_false] at firstSession secondSession
    rcases firstSession with rfl | rfl <;> rcases secondSession with rfl | rfl <;> decide
  · decide

/-- Two sessions in opposite directions, of which the second is not found, and
a target of `2 ^ 32` bytes that is returned as zero. -/
theorem opposite_session_not_found :
    ((create.setExperimentInfo 2 1000000).registerAll
        [⟨⟨0x0A000001, 0x0A000002, 1000, 2000⟩, 500⟩,
          ⟨⟨0x0A000002, 0x0A000001, 1000, 2000⟩, 700⟩]).getBulkBytes
      ⟨0x0A000002, 0x0A000001, 1000, 2000⟩ = -1 ∧
    ((create.setExperimentInfo 1 1000000).registerAll
        [⟨⟨0x0A000001, 0x0A000002, 1000, 2000⟩, 4294967296⟩]).getBulkBytes
      ⟨0x0A000001, 0x0A000002, 1000, 2000⟩ = 0 := by
  decide

end InfoPriv

end Ns3Quic.Tcp
