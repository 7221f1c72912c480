import Ns3Quic.App.Endpoints
import Ns3Quic.Lib.Fold
import Mathlib.Data.List.Infix

/-!
# The byte budget of the client application

The constructor of `QuicClientApp` takes the number of bytes to send and keeps
it in its implementation, where nothing reads it.  `SendToNetwork` adds up the
sizes in a 64-bit counter of the application and compares the counter with a
literal.
-/

namespace Ns3Quic.App

open CongestionControl LoopRules

/-- `m_impl`, as far as the byte budget is concerned. -/
structure QuicClientAppImpl where
  targetBytes : Nat

structure ClientObject where
  app : QuicClientApp
  impl : QuicClientAppImpl

structure SendCall where
  sendTime : Nat
  sz : Nat
  deriving DecidableEq

namespace ClientObject

/-- The constructor of `QuicClientApp`, with the socket bound and the QUIC
client connected. -/
def construct (bytes : Nat) : ClientObject := ⟨.create, ⟨bytes⟩⟩

def sendToNetwork (client : ClientObject) (call : SendCall) :
    Except AppFault (ClientObject × Option Datagram) := do
  let (app, handed) ← client.app.sendToNetwork call.sendTime call.sz
  pure ({ client with app := app }, handed)

/-- The answers to the calls: the packet handed to the socket, or none if it
was withheld. -/
def sendAll : ClientObject → List SendCall → Except AppFault (List (Option Datagram))
  | _, [] => .ok []
  | client, call :: rest => do
      let (next, handed) ← client.sendToNetwork call
      let later ← sendAll next rest
      pure (handed :: later)

end ClientObject

def handedSizes (answers : List (Option Datagram)) : List Nat :=
  answers.filterMap fun answer => answer.map Datagram.size

/-- The budget is kept, and nothing is sent after a packet was withheld. -/
structure KeepsBudget (bytes : Nat) (answers : List (Option Datagram)) : Prop where
  total : (handedSizes answers).sum ≤ bytes
  stopped : answers.Pairwise fun earlier later => earlier = none → later = none

/-- A packet that the counter lets through brings the bytes asked for neither
to the literal nor over the budget. -/
def WithinBudget (bytes : Nat) (sizes : List Nat) : Prop :=
  ∀ asked, asked <+: sizes → asked.sum % 2 ^ 64 < QuicClientApp.maxTxBytes →
    asked.sum < QuicClientApp.maxTxBytes ∧ asked.sum ≤ bytes

/-! ## What the counter decides -/

def decisions (total : Nat) : List Nat → List (Option Nat)
  | [] => []
  | sz :: rest =>
      (if (total + sz) % 2 ^ 64 < QuicClientApp.maxTxBytes then some sz else none) ::
        decisions (total + sz) rest

theorem sendToNetwork_eq_ok {client next : ClientObject} {call : SendCall}
    {handed : Option Datagram} {total : Nat} (socket : client.app.hasSocket = true)
    (quicClient : client.app.hasQuicClient = true)
    (counted : client.app.currentTxBytes = total % 2 ^ 64)
    (result : client.sendToNetwork call = .ok (next, handed)) :
    (next.app.hasSocket = true ∧ next.app.hasQuicClient = true ∧
      next.app.currentTxBytes = (total + call.sz) % 2 ^ 64) ∧
      handed.map Datagram.size =
        if (total + call.sz) % 2 ^ 64 < QuicClientApp.maxTxBytes then some call.sz else none := by
  have added : addU64 client.app.currentTxBytes call.sz = (total + call.sz) % 2 ^ 64 := by
    rw [counted, addU64, Nat.mod_add_mod]
  obtain ⟨⟨app, answer⟩, sent, rest⟩ := bind_eq_ok.mp result
  simp only [pure_ok, Except.ok.injEq, Prod.mk.injEq] at rest
  obtain ⟨rfl, rfl⟩ := rest
  unfold QuicClientApp.sendToNetwork at sent
  rw [socket, quicClient, Bool.and_true, if_pos rfl] at sent
  split at sent
  next => cases sent
  next tag serialized =>
    dsimp only at sent
    rw [added] at sent
    split at sent
    next below =>
      simp only [Except.ok.injEq, Prod.mk.injEq] at sent
      obtain ⟨rfl, rfl⟩ := sent
      rw [if_pos below]
      exact ⟨⟨rfl, rfl, rfl⟩, rfl⟩
    next reached =>
      simp only [Except.ok.injEq, Prod.mk.injEq] at sent
      obtain ⟨rfl, rfl⟩ := sent
      rw [if_neg reached]
      exact ⟨⟨rfl, rfl, rfl⟩, rfl⟩

theorem sendAll_eq_decisions {client : ClientObject} {calls : List SendCall}
    {answers : List (Option Datagram)} {total : Nat} (socket : client.app.hasSocket = true)
    (quicClient : client.app.hasQuicClient = true)
    (counted : client.app.currentTxBytes = total % 2 ^ 64)
    (result : client.sendAll calls = .ok answers) :
    answers.map (Option.map Datagram.size) = decisions total (calls.map SendCall.sz) := by
  induction calls generalizing client answers total with
  | nil =>
      cases result
      rfl
  | cons call rest inductionHypothesis =>
      rw [ClientObject.sendAll] at result
      obtain ⟨⟨next, handed⟩, sent, following⟩ := bind_eq_ok.mp result
      obtain ⟨later, laterSent, collected⟩ := bind_eq_ok.mp following
      rw [pure_ok, Except.ok.injEq] at collected
      obtain ⟨⟨nextSocket, nextClient, nextCounted⟩, decided⟩ :=
        sendToNetwork_eq_ok socket quicClient counted sent
      rw [← collected, List.map_cons, List.map_cons, decisions, decided,
        inductionHypothesis nextSocket nextClient nextCounted laterSent]

/-! ## Exactness -/

theorem decisions_eq_none_iff {total : Nat} {sizes : List Nat} :
    (∀ decision ∈ decisions total sizes, decision = none) ↔
      ∀ asked, asked <+: sizes → asked ≠ [] →
        QuicClientApp.maxTxBytes ≤ (total + asked.sum) % 2 ^ 64 := by
  induction sizes generalizing total with
  | nil =>
      simp only [decisions, List.prefix_nil]
      exact iff_of_true (fun _ impossible => nomatch impossible)
        (fun asked empty nonempty => absurd empty nonempty)
  | cons sz rest inductionHypothesis =>
      rw [decisions, List.forall_mem_cons, inductionHypothesis]
      constructor
      · rintro ⟨withheld, later⟩ asked front nonempty
        have reached : ¬(total + sz) % 2 ^ 64 < QuicClientApp.maxTxBytes := by
          intro below
          rw [if_pos below] at withheld
          cases withheld
        cases asked with
        | nil => exact absurd rfl nonempty
        | cons first others =>
            obtain ⟨rfl, othersFront⟩ := List.cons_prefix_cons.mp front
            cases others with
            | nil => simpa using reached
            | cons second others =>
                have above := later _ othersFront (List.cons_ne_nil _ _)
                rwa [Nat.add_assoc] at above
      · intro above
        constructor
        · have reached := above [sz] (by simp) (List.cons_ne_nil _ _)
          rw [List.sum_singleton] at reached
          exact if_neg (not_lt.mpr reached)
        · intro asked front nonempty
          have reached := above (sz :: asked) (List.cons_prefix_cons.mpr ⟨rfl, front⟩)
            (List.cons_ne_nil _ _)
          rwa [List.sum_cons, ← Nat.add_assoc] at reached

def WithinBudgetFrom (bytes total : Nat) (sizes : List Nat) : Prop :=
  ∀ asked, asked <+: sizes → (total + asked.sum) % 2 ^ 64 < QuicClientApp.maxTxBytes →
    total + asked.sum < QuicClientApp.maxTxBytes ∧ total + asked.sum ≤ bytes

theorem WithinBudgetFrom.tail {bytes total sz : Nat} {rest : List Nat}
    (within : WithinBudgetFrom bytes total (sz :: rest)) :
    WithinBudgetFrom bytes (total + sz) rest := by
  intro asked front below
  have whole := within (sz :: asked) (List.cons_prefix_cons.mpr ⟨rfl, front⟩)
  rw [List.sum_cons, ← Nat.add_assoc] at whole
  exact whole below

theorem WithinBudgetFrom.stopped {bytes total : Nat} {sizes : List Nat}
    (within : WithinBudgetFrom bytes total sizes)
    (reached : ¬total % 2 ^ 64 < QuicClientApp.maxTxBytes) :
    ∀ decision ∈ decisions total sizes, decision = none := by
  rw [decisions_eq_none_iff]
  intro asked front _
  by_contra below
  obtain ⟨small, _⟩ := within asked front (not_le.mp below)
  have whole : total % 2 ^ 64 = total :=
    Nat.mod_eq_of_lt (lt_trans (show total < QuicClientApp.maxTxBytes by omega) (by decide))
  omega

theorem sum_eq_zero_of_none {decisions : List (Option Nat)}
    (stopped : ∀ decision ∈ decisions, decision = none) :
    (decisions.filterMap id).sum = 0 := by
  have nothing : decisions.filterMap id = [] := List.filterMap_eq_nil_iff.mpr stopped
  rw [nothing, List.sum_nil]

theorem keeps_of_within {bytes total : Nat} {sizes : List Nat} (spent : total ≤ bytes)
    (within : WithinBudgetFrom bytes total sizes) :
    total + ((decisions total sizes).filterMap id).sum ≤ bytes ∧
      (decisions total sizes).Pairwise fun earlier later => earlier = none → later = none := by
  induction sizes generalizing total with
  | nil => exact ⟨spent, .nil⟩
  | cons sz rest inductionHypothesis =>
      rw [decisions]
      split
      next below =>
        obtain ⟨_, affordable⟩ := within [sz] (by simp) (by simpa using below)
        rw [List.sum_singleton] at affordable
        obtain ⟨sum, pairwise⟩ := inductionHypothesis affordable within.tail
        rw [List.filterMap_cons_some (f := id) rfl, List.sum_cons, ← Nat.add_assoc]
        exact ⟨sum, .cons (fun _ _ impossible => nomatch impossible) pairwise⟩
      next reached =>
        have stopped := within.tail.stopped reached
        have pairwise : (decisions (total + sz) rest).Pairwise
            fun earlier later => earlier = none → later = none :=
          List.pairwise_of_forall_mem_list fun _ _ later membership _ =>
            stopped later membership
        rw [List.filterMap_cons_none (f := id) rfl, sum_eq_zero_of_none stopped]
        exact ⟨spent, .cons (fun later membership _ => stopped later membership) pairwise⟩

theorem within_of_keeps {bytes total : Nat} {sizes : List Nat} (fits : bytes < 2 ^ 64)
    (started : total < QuicClientApp.maxTxBytes)
    (sum : total + ((decisions total sizes).filterMap id).sum ≤ bytes)
    (stopped : (decisions total sizes).Pairwise
      fun earlier later => earlier = none → later = none) :
    WithinBudgetFrom bytes total sizes := by
  induction sizes generalizing total with
  | nil =>
      intro asked front _
      rw [List.prefix_nil.mp front]
      simp only [decisions, List.filterMap_nil, List.sum_nil] at sum ⊢
      exact ⟨started, sum⟩
  | cons sz rest inductionHypothesis =>
      intro asked front below
      rw [decisions] at sum stopped
      obtain ⟨headStops, tailStops⟩ := List.pairwise_cons.mp stopped
      cases asked with
      | nil =>
          rw [List.sum_nil] at below ⊢
          exact ⟨started, by omega⟩
      | cons first others =>
          obtain ⟨rfl, othersFront⟩ := List.cons_prefix_cons.mp front
          rw [List.sum_cons, ← Nat.add_assoc] at below ⊢
          by_cases handed : (total + first) % 2 ^ 64 < QuicClientApp.maxTxBytes
          · rw [if_pos handed, List.filterMap_cons_some (f := id) rfl, List.sum_cons,
              ← Nat.add_assoc] at sum
            have whole : (total + first) % 2 ^ 64 = total + first :=
              Nat.mod_eq_of_lt (by omega)
            rw [whole] at handed
            exact inductionHypothesis handed sum tailStops others othersFront below
          · -- nothing may follow, but the last of the others is let through
            have later := decisions_eq_none_iff.mp fun decision membership =>
              headStops decision membership (if_neg handed)
            cases others with
            | nil => exact absurd (by simpa using below) handed
            | cons second others =>
                exact absurd below (not_lt.mpr (later _ othersFront (List.cons_ne_nil _ _)))

theorem handedSizes_eq (answers : List (Option Datagram)) :
    handedSizes answers = (answers.map (Option.map Datagram.size)).filterMap id := by
  rw [handedSizes, List.filterMap_map]
  rfl

theorem pairwise_stopped_iff (answers : List (Option Datagram)) :
    (answers.Pairwise fun earlier later => earlier = none → later = none) ↔
      (answers.map (Option.map Datagram.size)).Pairwise
        fun earlier later => earlier = none → later = none := by
  simp only [List.pairwise_map, Option.map_eq_none_iff]

/-- The budget is kept and the first withheld packet ends the sending exactly
if the packets that the literal lets through happen to stay within it. -/
theorem keepsBudget_iff (bytes : Nat) (fits : bytes < 2 ^ 64) (calls : List SendCall)
    {answers : List (Option Datagram)}
    (result : (ClientObject.construct bytes).sendAll calls = .ok answers) :
    KeepsBudget bytes answers ↔ WithinBudget bytes (calls.map SendCall.sz) := by
  have decided : answers.map (Option.map Datagram.size) = decisions 0 (calls.map SendCall.sz) :=
    sendAll_eq_decisions rfl rfl rfl result
  have fromStart : WithinBudget bytes (calls.map SendCall.sz) ↔
      WithinBudgetFrom bytes 0 (calls.map SendCall.sz) := by
    simp only [WithinBudget, WithinBudgetFrom, Nat.zero_add]
  rw [fromStart]
  constructor
  · rintro ⟨total, stopped⟩
    rw [handedSizes_eq, decided] at total
    rw [pairwise_stopped_iff, decided] at stopped
    exact within_of_keeps fits (by decide) (by rwa [Nat.zero_add]) stopped
  · intro within
    obtain ⟨total, stopped⟩ := keeps_of_within (Nat.zero_le bytes) within
    rw [Nat.zero_add, ← decided, ← handedSizes_eq] at total
    rw [← decided, ← pairwise_stopped_iff] at stopped
    exact ⟨total, stopped⟩

/-- With the budget that equals the literal, the second packet is withheld. -/
theorem keepsBudget_iff_literal :
    ∃ answers, (ClientObject.construct 1500000000).sendAll
        [⟨1, 1499999999⟩, ⟨2, 1⟩] = .ok answers ∧
      KeepsBudget 1500000000 answers := by
  refine ⟨_, rfl, (keepsBudget_iff 1500000000 (by decide) [⟨1, 1499999999⟩, ⟨2, 1⟩] rfl).mpr ?_⟩
  intro asked front below
  have bounded : asked.sum ≤ 1500000000 := by
    obtain ⟨rest, whole⟩ := front
    have sums := congrArg List.sum whole
    rw [List.sum_append] at sums
    simp at sums
    omega
  have whole : asked.sum % 2 ^ 64 = asked.sum := Nat.mod_eq_of_lt (by omega)
  exact ⟨whole ▸ below, bounded⟩

/-- A packet of 1500 bytes is sent on a budget of 1000. -/
theorem budget_not_read :
    ∃ answers, (ClientObject.construct 1000).sendAll [⟨1, 1500⟩] = .ok answers ∧
      handedSizes answers = [1500] ∧ ¬KeepsBudget 1000 answers := by
  refine ⟨_, rfl, rfl, fun keeps => ?_⟩
  exact absurd keeps.total (by decide)

end Ns3Quic.App
