import Mathlib.Algebra.Ring.Nat

/-!
# Numbers of the congestion controllers

Byte counts, packet counts and time stamps are unsigned 64-bit numbers.  They
are modelled as natural numbers, with the reduction modulo `2 ^ 64` written
where an operation can wrap.  Round-trip times are signed 64-bit numbers of
microseconds and never negative here.  An unset packet number is `none`.
-/

namespace Ns3Quic.CongestionControl

def kDefaultTCPMSS : Nat := 1460

/-- `QuicTime::Delta::Infinite()` in microseconds. -/
def infiniteUs : Nat := 2 ^ 63 - 1

def addU64 (left right : Nat) : Nat := (left + right) % 2 ^ 64

/-- Both arguments are below `2 ^ 64`. -/
def subU64 (left right : Nat) : Nat := (left + 2 ^ 64 - right) % 2 ^ 64

def mulU64 (left right : Nat) : Nat := left * right % 2 ^ 64

/-- `QuicPacketNumber::UpdateMax` with an initialized argument. -/
def updateMax (current : Option Nat) (newValue : Nat) : Option Nat :=
  match current with
  | none => some newValue
  | some old => some (max old newValue)

theorem addU64_of_lt {left right : Nat} (fits : left + right < 2 ^ 64) :
    addU64 left right = left + right :=
  Nat.mod_eq_of_lt fits

theorem addU64_lt (left right : Nat) : addU64 left right < 2 ^ 64 :=
  Nat.mod_lt _ (by decide)

theorem mulU64_of_lt {left right : Nat} (fits : left * right < 2 ^ 64) :
    mulU64 left right = left * right :=
  Nat.mod_eq_of_lt fits

theorem mulU64_le (left right : Nat) : mulU64 left right ≤ left * right :=
  Nat.mod_le _ _

theorem mulU64_lt (left right : Nat) : mulU64 left right < 2 ^ 64 :=
  Nat.mod_lt _ (by decide)

theorem subU64_of_le {left right : Nat} (ordered : right ≤ left) (fits : left < 2 ^ 64) :
    subU64 left right = left - right := by
  unfold subU64
  omega

end Ns3Quic.CongestionControl
