import Mathlib.Data.Int.Basic
import Mathlib.Data.UInt

/-!
# The dumbbell topologies of the experiments

Both experiment programs connect two hosts over three links, of which the one
in the middle is the bottleneck.  The buffer of a link is meant to hold what
the link transmits during a given time.  It is computed with unsigned 32-bit
numbers, from a product of bits per second and milliseconds that is thousands
of times larger than the result.

What the command line gives is an integer.  `main` is the part of the program
that leads from these integers to the links; nodes and addresses are not
modelled, nor is what the programs do with the topology.
-/

namespace Ns3Quic.Experiment

def defaultPacketSize : UInt32 := 1500

def mBwUnit : UInt32 := 1000000

def bottleneck : Fin 3 := 1

structure LinkProperty where
  nodes : UInt16 × UInt16
  bandwidth : UInt32
  propagationMs : UInt32
  deriving DecidableEq

/-- The size of the root queue disc and of its internal queue, in packets. -/
structure QueueDisc where
  maxSize : Nat
  internalMaxSize : Nat
  deriving DecidableEq

/-- The attributes of a link: those of its devices and of its channel, and the
queue disc of the bottleneck. -/
structure Link where
  nodes : UInt16 × UInt16
  dataRate : UInt32
  delayMs : UInt32
  /-- `MaxSize` of the drop-tail queues, in packets. -/
  queueMaxSize : Nat
  queueDisc : Option QueueDisc
  deriving DecidableEq

/-- The loop of `BuildDumbbellTopo`, which differs between the programs in the
size of a link's buffer. -/
def buildTopo (bufSize : UInt32 → UInt32) (topoinfo : Fin 3 → LinkProperty) (i : Fin 3) : Link :=
  let packets := (bufSize (topoinfo i).bandwidth / defaultPacketSize).toNat
  { nodes := (topoinfo i).nodes
    dataRate := (topoinfo i).bandwidth
    delayMs := (topoinfo i).propagationMs
    queueMaxSize := packets
    queueDisc := if bottleneck = i then some ⟨packets, packets⟩ else none }

def topoinfo1 : Fin 3 → LinkProperty
  | 0 => ⟨(0, 2), 0, 10⟩
  | 1 => ⟨(2, 3), 0, 10⟩
  | 2 => ⟨(3, 1), 0, 10⟩

def linkBandwidth (bpsInteger : Int) (i : Fin 3) : UInt32 :=
  if bottleneck = i then UInt32.ofInt bpsInteger * mBwUnit else 100 * mBwUnit

namespace QuicProgram

def calMaxRttInDumbbell (topoinfo : Fin 3 → LinkProperty) : UInt32 :=
  (topoinfo 0).propagationMs + (topoinfo 1).propagationMs + (topoinfo 2).propagationMs

def buildDumbbellTopo (topoinfo : Fin 3 → LinkProperty) (bufferMs queueSizeFactor : UInt32) :
    Fin 3 → Link :=
  buildTopo (fun bps => max defaultPacketSize (bps * bufferMs * queueSizeFactor / 8000)) topoinfo

/-- `topoinfo1` after the loop in `main`. -/
def topoinfo (bpsInteger delayInteger : Int) (i : Fin 3) : LinkProperty :=
  { topoinfo1 i with
    bandwidth := linkBandwidth bpsInteger i
    propagationMs :=
      if bottleneck = i then UInt32.ofInt delayInteger else (topoinfo1 i).propagationMs }

def main (bpsInteger delayInteger queueSizeInteger : Int) : Fin 3 → Link :=
  let topoinfo := topoinfo bpsInteger delayInteger
  buildDumbbellTopo topoinfo (calMaxRttInDumbbell topoinfo) (UInt32.ofInt queueSizeInteger)

end QuicProgram

namespace TcpProgram

def calMaxRttInDumbbell (topoinfo : Fin 3 → LinkProperty) : UInt32 :=
  2 * ((topoinfo 0).propagationMs + (topoinfo 1).propagationMs + (topoinfo 2).propagationMs)

/-- The parameter `delay_integer` is not used. -/
def buildDumbbellTopo (topoinfo : Fin 3 → LinkProperty) (bufferMs : UInt32) : Fin 3 → Link :=
  buildTopo (fun bps => max defaultPacketSize (bps * bufferMs / 8000)) topoinfo

/-- `topoinfo1` after the loop in `main`. -/
def topoinfo (bpsInteger delayInteger : Int) (i : Fin 3) : LinkProperty :=
  { topoinfo1 i with
    bandwidth := linkBandwidth bpsInteger i
    propagationMs := UInt32.ofInt delayInteger }

def bufferMs (instanceName : String) (rtt : UInt32) : UInt32 :=
  if instanceName = "1" then rtt
  else if instanceName = "2" then 3 * rtt / 2
  else if instanceName = "3" then 4 * rtt / 2
  else if instanceName = "4" then 6 * rtt / 2
  else 4 * rtt / 2

def main (instanceName : String) (bpsInteger delayInteger : Int) : Fin 3 → Link :=
  let topoinfo := topoinfo bpsInteger delayInteger
  buildDumbbellTopo topoinfo (bufferMs instanceName (calMaxRttInDumbbell topoinfo))

end TcpProgram

/-! ## Intended sizes -/

def intendedBandwidth (bpsInteger : Int) (i : Fin 3) : Int :=
  if bottleneck = i then bpsInteger * 1000000 else 100 * 1000000

def QuicProgram.intendedProduct (bpsInteger delayInteger queueSizeInteger : Int) (i : Fin 3) :
    Int :=
  intendedBandwidth bpsInteger i * (10 + delayInteger + 10) * queueSizeInteger

def TcpProgram.intendedBufferMs (instanceName : String) (rtt : Int) : Int :=
  if instanceName = "1" then rtt
  else if instanceName = "2" then 3 * rtt / 2
  else if instanceName = "3" then 4 * rtt / 2
  else if instanceName = "4" then 6 * rtt / 2
  else 4 * rtt / 2

def TcpProgram.intendedProduct (instanceName : String) (bpsInteger delayInteger : Int) (i : Fin 3) :
    Int :=
  intendedBandwidth bpsInteger i *
    intendedBufferMs instanceName (2 * (delayInteger + delayInteger + delayInteger))

def intendedPackets (product : Int) : Nat := (max 1500 (product / 8000) / 1500).toNat

def Link.HasQueues (link : Link) (isBottleneck : Prop) [Decidable isBottleneck]
    (packets : Nat) : Prop :=
  link.queueMaxSize = packets ∧
    link.queueDisc = if isBottleneck then some ⟨packets, packets⟩ else none

instance (link : Link) (isBottleneck : Prop) [Decidable isBottleneck] (packets : Nat) :
    Decidable (link.HasQueues isBottleneck packets) :=
  inferInstanceAs (Decidable (_ ∧ _))

theorem ofInt_bandwidth (bpsInteger : Int) (i : Fin 3) :
    UInt32.ofInt (intendedBandwidth bpsInteger i) = linkBandwidth bpsInteger i := by
  unfold intendedBandwidth linkBandwidth
  split
  next => rw [UInt32.ofInt_mul]; rfl
  next => rfl

theorem toNat_ofInt (value : Int) : ((UInt32.ofInt value).toNat : Int) = value % 2 ^ 32 := by
  unfold UInt32.ofInt
  rw [UInt32.toNat_ofNat']
  omega

theorem toNat_max (left right : UInt32) : (max left right).toNat = max left.toNat right.toNat := by
  change (if left ≤ right then right else left).toNat = _
  split
  next ordered => exact (max_eq_right (UInt32.le_iff_toNat_le.mp ordered)).symm
  next unordered =>
    rw [UInt32.le_iff_toNat_le, not_le] at unordered
    exact (max_eq_left unordered.le).symm

theorem wrapped_eq_intended_iff {product : Int} (nonnegative : 0 ≤ product) :
    (max defaultPacketSize (UInt32.ofInt product / 8000) / defaultPacketSize).toNat =
        intendedPackets product ↔ product < 2 ^ 32 := by
  have wrapped := toNat_ofInt product
  unfold intendedPackets defaultPacketSize
  rw [UInt32.toNat_div, toNat_max, UInt32.toNat_div]
  change max 1500 ((UInt32.ofInt product).toNat / 8000) / 1500 = _ ↔ _
  omega

theorem hasQueues_iff {bufSize : UInt32 → UInt32} {topoinfo : Fin 3 → LinkProperty} {i : Fin 3}
    {product : Int} (nonnegative : 0 ≤ product)
    (size : bufSize (topoinfo i).bandwidth =
      max defaultPacketSize (UInt32.ofInt product / 8000)) :
    (buildTopo bufSize topoinfo i).HasQueues (bottleneck = i) (intendedPackets product) ↔
      product < 2 ^ 32 := by
  rw [← wrapped_eq_intended_iff nonnegative]
  unfold buildTopo Link.HasQueues
  dsimp only
  rw [size]
  constructor
  · intro exact
    exact exact.1
  · intro exact
    rw [exact]
    exact ⟨rfl, rfl⟩

namespace QuicProgram

/-- The product is formed without a division, so it is the intended one modulo
`2 ^ 32`. -/
theorem product_eq (bpsInteger delayInteger queueSizeInteger : Int) (i : Fin 3) :
    linkBandwidth bpsInteger i * calMaxRttInDumbbell (topoinfo bpsInteger delayInteger) *
        UInt32.ofInt queueSizeInteger =
      UInt32.ofInt (intendedProduct bpsInteger delayInteger queueSizeInteger i) := by
  unfold intendedProduct
  rw [UInt32.ofInt_mul, UInt32.ofInt_mul, UInt32.ofInt_add, UInt32.ofInt_add, ofInt_bandwidth]
  rfl

theorem hasQueues_main_iff {bpsInteger delayInteger queueSizeInteger : Int} {i : Fin 3}
    (nonnegative : 0 ≤ intendedProduct bpsInteger delayInteger queueSizeInteger i) :
    (main bpsInteger delayInteger queueSizeInteger i).HasQueues (bottleneck = i)
        (intendedPackets (intendedProduct bpsInteger delayInteger queueSizeInteger i)) ↔
      intendedProduct bpsInteger delayInteger queueSizeInteger i < 2 ^ 32 := by
  unfold main buildDumbbellTopo
  apply hasQueues_iff nonnegative
  rw [← product_eq]
  rfl

end QuicProgram

namespace TcpProgram

/-- `buffer_ms` in units of the propagation delay of the path. -/
def bufferFactor (instanceName : String) : Int :=
  if instanceName = "1" then 2
  else if instanceName = "2" then 3
  else if instanceName = "3" then 4
  else if instanceName = "4" then 6
  else 4

theorem intendedBufferMs_eq (instanceName : String) (delays : Int) :
    intendedBufferMs instanceName (2 * delays) = bufferFactor instanceName * delays := by
  unfold intendedBufferMs bufferFactor
  repeat' split
  all_goals omega

theorem half_mul_two (value : UInt32) : 2 * value / 2 * 2 = 2 * value := by
  apply UInt32.toNat_inj.mp
  rw [UInt32.toNat_mul, UInt32.toNat_div, UInt32.toNat_mul]
  change 2 * value.toNat % 2 ^ 32 / 2 * 2 % 2 ^ 32 = 2 * value.toNat % 2 ^ 32
  omega

/-- Halving a wrapped even number loses the highest bit, which an even bandwidth
does not need. -/
theorem linkBandwidth_mul_half (bpsInteger : Int) (i : Fin 3) (value : UInt32) :
    linkBandwidth bpsInteger i * (2 * value / 2) = linkBandwidth bpsInteger i * value := by
  have even : ∃ half, linkBandwidth bpsInteger i = half * 2 := by
    unfold linkBandwidth
    split
    next => exact ⟨UInt32.ofInt bpsInteger * 500000, by rw [UInt32.mul_assoc]; rfl⟩
    next => exact ⟨50000000, rfl⟩
  obtain ⟨half, shape⟩ := even
  calc linkBandwidth bpsInteger i * (2 * value / 2)
      = half * (2 * value / 2 * 2) := by
        rw [shape, UInt32.mul_assoc, UInt32.mul_comm 2]
    _ = half * (2 * value) := by rw [half_mul_two]
    _ = linkBandwidth bpsInteger i * value := by rw [shape, UInt32.mul_assoc]

theorem linkBandwidth_mul_bufferMs (instanceName : String) (bpsInteger : Int) (i : Fin 3)
    (delays : UInt32) :
    linkBandwidth bpsInteger i * bufferMs instanceName (2 * delays) =
      linkBandwidth bpsInteger i * (UInt32.ofInt (bufferFactor instanceName) * delays) := by
  have halved (factor : UInt32) :
      linkBandwidth bpsInteger i * (factor * (2 * delays) / 2) =
        linkBandwidth bpsInteger i * (factor * delays) := by
    rw [← UInt32.mul_assoc, UInt32.mul_comm factor, UInt32.mul_assoc, linkBandwidth_mul_half]
  unfold bufferMs bufferFactor
  repeat' split
  next => rfl
  next => exact halved 3
  next => exact halved 4
  next => exact halved 6
  next => exact halved 4

/-- The bandwidths are even, so the product is the intended one modulo `2 ^ 32`
although it is formed with a division. -/
theorem product_eq (instanceName : String) (bpsInteger delayInteger : Int) (i : Fin 3) :
    linkBandwidth bpsInteger i *
        bufferMs instanceName (calMaxRttInDumbbell (topoinfo bpsInteger delayInteger)) =
      UInt32.ofInt (intendedProduct instanceName bpsInteger delayInteger i) := by
  unfold intendedProduct
  rw [intendedBufferMs_eq, UInt32.ofInt_mul, UInt32.ofInt_mul, UInt32.ofInt_add,
    UInt32.ofInt_add, ofInt_bandwidth]
  exact linkBandwidth_mul_bufferMs instanceName bpsInteger i _

theorem hasQueues_main_iff {instanceName : String} {bpsInteger delayInteger : Int} {i : Fin 3}
    (nonnegative : 0 ≤ intendedProduct instanceName bpsInteger delayInteger i) :
    (main instanceName bpsInteger delayInteger i).HasQueues (bottleneck = i)
        (intendedPackets (intendedProduct instanceName bpsInteger delayInteger i)) ↔
      intendedProduct instanceName bpsInteger delayInteger i < 2 ^ 32 := by
  unfold main buildDumbbellTopo
  apply hasQueues_iff nonnegative
  rw [← product_eq]
  rfl

end TcpProgram

/-- In both programs, every queue of a link has exactly the intended size if and
only if the product of its bandwidth, its buffer time and the queue factor is a
32-bit number.  That the intended size is one is not enough. -/
theorem queue_sizes_exact_iff (instanceName : String)
    (bpsInteger delayInteger queueSizeInteger : Int) (i : Fin 3) :
    (0 ≤ QuicProgram.intendedProduct bpsInteger delayInteger queueSizeInteger i →
      ((QuicProgram.main bpsInteger delayInteger queueSizeInteger i).HasQueues (bottleneck = i)
        (intendedPackets
          (QuicProgram.intendedProduct bpsInteger delayInteger queueSizeInteger i)) ↔
        QuicProgram.intendedProduct bpsInteger delayInteger queueSizeInteger i < 2 ^ 32)) ∧
    (0 ≤ TcpProgram.intendedProduct instanceName bpsInteger delayInteger i →
      ((TcpProgram.main instanceName bpsInteger delayInteger i).HasQueues (bottleneck = i)
        (intendedPackets
          (TcpProgram.intendedProduct instanceName bpsInteger delayInteger i)) ↔
        TcpProgram.intendedProduct instanceName bpsInteger delayInteger i < 2 ^ 32)) :=
  ⟨QuicProgram.hasQueues_main_iff, TcpProgram.hasQueues_main_iff⟩

/-- A bottleneck of 10 Mbit/s.  In the QUIC program it buffers 25 ms, in the TCP
program with links of 5 ms 30 ms. -/
theorem queue_sizes_exact_iff_small :
    (QuicProgram.main 10 5 1 bottleneck).HasQueues (bottleneck = bottleneck) 20 ∧
      (TcpProgram.main "1" 10 5 bottleneck).HasQueues (bottleneck = bottleneck) 25 :=
  have sizes := queue_sizes_exact_iff "1" 10 5 1 bottleneck
  ⟨(sizes.1 (by decide)).mpr (by decide), (sizes.2 (by decide)).mpr (by decide)⟩

/-- The default bandwidth with a delay of 23 ms on the bottleneck: the outer
links, at 100 Mbit/s, should buffer 358 packets, and they buffer one.  In the TCP
program, with links of 8 ms, they buffer 42 packets instead of 400. -/
theorem outer_queue_wraps :
    intendedPackets (QuicProgram.intendedProduct 5 23 1 0) = 358 ∧
      QuicProgram.intendedProduct 5 23 1 0 / 8000 < 2 ^ 32 ∧
      (QuicProgram.main 5 23 1 0).queueMaxSize = 1 ∧
      intendedPackets (TcpProgram.intendedProduct "1" 10 8 0) = 400 ∧
      (TcpProgram.main "1" 10 8 0).queueMaxSize = 42 := by
  decide

end Ns3Quic.Experiment
