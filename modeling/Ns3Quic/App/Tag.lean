import Ns3Quic.CongestionControl.QuicTypes
import Mathlib.Algebra.Ring.Int.Defs

/-!
# The packet tag

`Ns3QuicTag` carries a sequence number and a send time through the simulated
network, each written as a number to the base 128 with the least significant
digit first.  A zero is written as no bytes at all.  The bytes live in a
buffer of the size that the tag announces; writing or reading beyond its end
fails.

The loops of the source take at most ten rounds for a 64-bit number.
-/

namespace Ns3Quic.App

open CongestionControl

def maxRounds : Nat := 10

def encodeLoop : Nat → Nat → List UInt8
  | 0, _ => []
  | rounds + 1, next =>
      let first := next % 128
      let next := next / 128
      if 0 < next then
        (UInt8.ofNat first ||| 128) :: encodeLoop rounds next
      else
        [UInt8.ofNat first]

def varintEncode (value : Nat) : List UInt8 :=
  if value = 0 then [] else encodeLoop maxRounds value

/-- The loop of `VarientDecode`; the result is the value and the unread bytes. -/
def decodeLoop (remain remainMulti : Nat) : List UInt8 → Option (Nat × List UInt8)
  | [] => none
  | byte :: rest =>
      let remain := addU64 remain (mulU64 (byte &&& 127).toNat remainMulti)
      if byte &&& 128 != 0 then
        decodeLoop remain (mulU64 remainMulti 128) rest
      else
        some (remain, rest)

def varientDecode (bytes : List UInt8) : Option (Nat × List UInt8) := decodeLoop 0 1 bytes

def toInt64 (number : Nat) : Int :=
  if number < 2 ^ 63 then number else (number : Int) - 2 ^ 64

def lengthLoop : Nat → Int → Nat
  | 0, _ => 0
  | rounds + 1, next =>
      let next := next.tdiv 128
      if 0 < next then lengthLoop rounds next + 1 else 1

def varintLength (number : Nat) : Nat :=
  if toInt64 number = 0 then 0 else lengthLoop maxRounds (toInt64 number)

structure Ns3QuicTag where
  seq : Nat
  time : Nat
  deriving DecidableEq

namespace Ns3QuicTag

def getSerializedSize (tag : Ns3QuicTag) : Nat := varintLength tag.seq + varintLength tag.time

/-- `none` if the bytes do not fit into the announced size. -/
def serialize (tag : Ns3QuicTag) : Option (List UInt8) :=
  let bytes := varintEncode tag.seq ++ varintEncode tag.time
  if bytes.length ≤ tag.getSerializedSize then some bytes else none

/-- `none` if the bytes end early. -/
def deserialize (bytes : List UInt8) : Option Ns3QuicTag :=
  match varientDecode bytes with
  | none => none
  | some (seq, bytes) =>
      match varientDecode bytes with
      | none => none
      | some (time, _) => some ⟨seq, time⟩

/-- `Deserialize` with the bytes that it leaves unread. -/
def deserializeFrom (bytes : List UInt8) : Option (Ns3QuicTag × List UInt8) :=
  match varientDecode bytes with
  | none => none
  | some (seq, bytes) =>
      match varientDecode bytes with
      | none => none
      | some (time, bytes) => some (⟨seq, time⟩, bytes)

theorem deserialize_eq (bytes : List UInt8) :
    deserialize bytes = (deserializeFrom bytes).map Prod.fst := by
  unfold deserialize deserializeFrom
  split
  next => rfl
  next =>
    split
    next => rfl
    next => rfl

end Ns3QuicTag

/-! ## Bytes -/

theorem and_127_continued (digit : Fin 128) :
    ((UInt8.ofNat digit ||| 128) &&& 127).toNat = digit ∧
      (UInt8.ofNat digit ||| 128) &&& 128 != 0 := by
  revert digit
  decide

theorem and_127_last (digit : Fin 128) :
    (UInt8.ofNat digit &&& 127).toNat = digit ∧ (UInt8.ofNat digit &&& 128 != 0) = false := by
  revert digit
  decide

theorem decodeLoop_continued (remain remainMulti value : Nat) (rest : List UInt8) :
    decodeLoop remain remainMulti ((UInt8.ofNat (value % 128) ||| 128) :: rest) =
      decodeLoop (addU64 remain (mulU64 (value % 128) remainMulti)) (mulU64 remainMulti 128)
        rest := by
  obtain ⟨digit, continued⟩ := and_127_continued ⟨value % 128, Nat.mod_lt _ (by decide)⟩
  rw [decodeLoop]
  dsimp only at digit continued ⊢
  rw [digit, if_pos continued]

theorem decodeLoop_last (remain remainMulti value : Nat) (rest : List UInt8) :
    decodeLoop remain remainMulti (UInt8.ofNat (value % 128) :: rest) =
      some (addU64 remain (mulU64 (value % 128) remainMulti), rest) := by
  obtain ⟨digit, last⟩ := and_127_last ⟨value % 128, Nat.mod_lt _ (by decide)⟩
  rw [decodeLoop]
  dsimp only at digit last ⊢
  rw [digit, last]
  simp

theorem decodeLoop_shorter {remain remainMulti value : Nat} {bytes rest : List UInt8}
    (result : decodeLoop remain remainMulti bytes = some (value, rest)) :
    rest.length < bytes.length := by
  induction bytes generalizing remain remainMulti with
  | nil => cases result
  | cons byte others inductionHypothesis =>
      rw [decodeLoop] at result
      rw [List.length_cons]
      split at result
      next =>
        have shorter := inductionHypothesis result
        omega
      next =>
        simp only [Option.some.injEq, Prod.mk.injEq] at result
        rw [result.2]
        omega

/-! ## Round trip -/

/-- The bytes of a number to the base 128; every byte but the last is marked as
continued. -/
inductive Encodes : Nat → List UInt8 → Prop where
  | last {value : Nat} (done : value / 128 = 0) : Encodes value [UInt8.ofNat (value % 128)]
  | continued {value : Nat} {bytes : List UInt8} (more : 0 < value / 128)
      (others : Encodes (value / 128) bytes) :
      Encodes value ((UInt8.ofNat (value % 128) ||| 128) :: bytes)

theorem div_128_lt {rounds value : Nat} (enough : value < 128 ^ (rounds + 1)) :
    value / 128 < 128 ^ rounds := by
  apply Nat.div_lt_of_lt_mul
  rw [Nat.mul_comm, ← Nat.pow_succ]
  exact enough

/-- With enough rounds the loop of `VarintEncode` ends by itself. -/
theorem encodes_encodeLoop {rounds value : Nat} (enough : value < 128 ^ rounds)
    (positive : 0 < rounds) : Encodes value (encodeLoop rounds value) := by
  induction rounds generalizing value with
  | zero => exact absurd positive (lt_irrefl 0)
  | succ rounds inductionHypothesis =>
      rw [encodeLoop]
      split
      next more =>
        have smaller := div_128_lt enough
        have roundsLeft : 0 < rounds := by
          rcases Nat.eq_zero_or_pos rounds with noRounds | positive
          · rw [noRounds, Nat.pow_zero] at smaller
            omega
          · exact positive
        exact .continued more (inductionHypothesis smaller roundsLeft)
      next done => exact .last (by omega)

theorem encodes_varintEncode {value : Nat} (positive : 0 < value) (fits : value < 2 ^ 64) :
    Encodes value (varintEncode value) := by
  unfold varintEncode
  rw [if_neg (by omega)]
  exact encodes_encodeLoop (lt_trans fits (by decide)) (by decide)

namespace Encodes

variable {value remain remainMulti rounds : Nat} {bytes : List UInt8}

theorem unique {other : List UInt8} (encodes : Encodes value bytes)
    (same : Encodes value other) : bytes = other := by
  induction encodes generalizing other with
  | last done =>
      cases same with
      | last => rfl
      | continued more => omega
  | continued more _ inductionHypothesis =>
      cases same with
      | last done => omega
      | continued _ others => rw [inductionHypothesis others]

theorem length_le (encodes : Encodes value bytes) (enough : value < 128 ^ (rounds + 1)) :
    bytes.length ≤ rounds + 1 := by
  induction encodes generalizing rounds with
  | last => exact Nat.le_add_left 1 rounds
  | @continued value bytes more _ inductionHypothesis =>
      cases rounds with
      | zero => omega
      | succ rounds => exact Nat.succ_le_succ (inductionHypothesis (div_128_lt enough))

theorem high_bits (encodes : Encodes value bytes) :
    ∃ front last, bytes = front ++ [last] ∧ (∀ byte ∈ front, byte &&& 128 ≠ 0) ∧
      last &&& 128 = 0 := by
  induction encodes with
  | @last value =>
      obtain ⟨-, clear⟩ := and_127_last ⟨value % 128, Nat.mod_lt _ (by decide)⟩
      exact ⟨[], _, rfl, (fun _ membership => nomatch membership), by simpa using clear⟩
  | @continued value _ _ _ inductionHypothesis =>
      obtain ⟨front, last, rfl, marked, clear⟩ := inductionHypothesis
      obtain ⟨-, first⟩ := and_127_continued ⟨value % 128, Nat.mod_lt _ (by decide)⟩
      exact ⟨_ :: front, last, rfl,
        List.forall_mem_cons.mpr ⟨by simpa using first, marked⟩, clear⟩

theorem place (value remainMulti : Nat) :
    value * remainMulti = value % 128 * remainMulti + value / 128 * (remainMulti * 128) := by
  calc value * remainMulti
      = (value % 128 + 128 * (value / 128)) * remainMulti := by rw [Nat.mod_add_div]
    _ = value % 128 * remainMulti + value / 128 * (remainMulti * 128) := by
      rw [Nat.add_mul, Nat.mul_comm 128, Nat.mul_assoc, Nat.mul_comm 128]

theorem digit_added (fits : remain + value * remainMulti < 2 ^ 64) :
    mulU64 (value % 128) remainMulti = value % 128 * remainMulti ∧
      addU64 remain (value % 128 * remainMulti) = remain + value % 128 * remainMulti := by
  rw [place value remainMulti] at fits
  exact ⟨mulU64_of_lt (by omega), addU64_of_lt (by omega)⟩

/-- If there are more digits, the next multiplier does not wrap, and the
remaining digits fit as well. -/
theorem next_fits (fits : remain + value * remainMulti < 2 ^ 64) (more : 0 < value / 128) :
    remainMulti * 128 < 2 ^ 64 ∧
      remain + value % 128 * remainMulti + value / 128 * (remainMulti * 128) < 2 ^ 64 := by
  rw [place value remainMulti] at fits
  have atLeastOne : remainMulti * 128 ≤ value / 128 * (remainMulti * 128) :=
    Nat.le_mul_of_pos_left _ more
  omega

/-- Decoding adds the digits at their places.  The multiplier of a digit that is
read does not wrap; the one after the last digit may. -/
theorem decodeLoop_eq (encodes : Encodes value bytes)
    (fits : remain + value * remainMulti < 2 ^ 64) (rest : List UInt8) :
    decodeLoop remain remainMulti (bytes ++ rest) =
      some (remain + value * remainMulti, rest) := by
  induction encodes generalizing remain remainMulti with
  | @last value done =>
      obtain ⟨product, sum⟩ := digit_added fits
      rw [List.cons_append, List.nil_append, decodeLoop_last, product, sum,
        place value remainMulti, done]
      simp
  | @continued value bytes more _ inductionHypothesis =>
      obtain ⟨product, sum⟩ := digit_added fits
      obtain ⟨multiplier, left⟩ := next_fits fits more
      rw [List.cons_append, decodeLoop_continued, product, sum, mulU64_of_lt multiplier,
        inductionHypothesis left, place value remainMulti, Nat.add_assoc]

end Encodes

theorem varientDecode_varintEncode {value : Nat} (positive : 0 < value)
    (fits : value < 2 ^ 64) (rest : List UInt8) :
    varientDecode (varintEncode value ++ rest) = some (value, rest) := by
  unfold varientDecode
  rw [(encodes_varintEncode positive fits).decodeLoop_eq (by omega)]
  simp

/-! ## Exact arithmetic -/

/-- What the products and sums of `VarientDecode` would be without a bound, for
those that the result depends on: the multiplier computed after the last byte
is not used. -/
def decodeResults (remain remainMulti : Nat) : List UInt8 → List Nat
  | [] => []
  | byte :: rest =>
      let product := mulU64 (byte &&& 127).toNat remainMulti
      [(byte &&& 127).toNat * remainMulti, remain + product] ++
        if byte &&& 128 != 0 then
          remainMulti * 128 :: decodeResults (addU64 remain product) (mulU64 remainMulti 128) rest
        else
          []

theorem decodeResults_continued (remain remainMulti value : Nat) (rest : List UInt8) :
    decodeResults remain remainMulti ((UInt8.ofNat (value % 128) ||| 128) :: rest) =
      [value % 128 * remainMulti, remain + mulU64 (value % 128) remainMulti] ++
        remainMulti * 128 ::
          decodeResults (addU64 remain (mulU64 (value % 128) remainMulti))
            (mulU64 remainMulti 128) rest := by
  obtain ⟨digit, continued⟩ := and_127_continued ⟨value % 128, Nat.mod_lt _ (by decide)⟩
  rw [decodeResults]
  dsimp only at digit continued ⊢
  rw [digit, if_pos continued]

theorem decodeResults_last (remain remainMulti value : Nat) (rest : List UInt8) :
    decodeResults remain remainMulti (UInt8.ofNat (value % 128) :: rest) =
      [value % 128 * remainMulti, remain + mulU64 (value % 128) remainMulti] := by
  obtain ⟨digit, last⟩ := and_127_last ⟨value % 128, Nat.mod_lt _ (by decide)⟩
  rw [decodeResults]
  dsimp only at digit last ⊢
  rw [digit, last]
  simp

/-- No operation wraps that the result depends on. -/
theorem Encodes.decodeResults_lt {value remain remainMulti : Nat} {bytes : List UInt8}
    (encodes : Encodes value bytes) (fits : remain + value * remainMulti < 2 ^ 64)
    (rest : List UInt8) :
    ∀ result ∈ decodeResults remain remainMulti (bytes ++ rest), result < 2 ^ 64 := by
  induction encodes generalizing remain remainMulti with
  | @last value done =>
      obtain ⟨product, -⟩ := digit_added fits
      rw [place value remainMulti] at fits
      rw [List.cons_append, decodeResults_last, product]
      simp only [List.forall_mem_cons]
      exact ⟨by omega, by omega, fun _ membership => nomatch membership⟩
  | @continued value bytes more _ inductionHypothesis =>
      obtain ⟨product, sum⟩ := digit_added fits
      obtain ⟨multiplier, left⟩ := next_fits fits more
      rw [List.cons_append, decodeResults_continued, product, sum, mulU64_of_lt multiplier]
      simp only [List.cons_append, List.nil_append, List.forall_mem_cons]
      exact ⟨by omega, by omega, multiplier, inductionHypothesis left⟩

/-- A positive 64-bit number is read back from its bytes, whatever follows them,
without a wrap.  `VarintEncode` writes at most ten bytes, and no more if it were
given more rounds, of which exactly the last has its high bit clear. -/
theorem varint_exact (value : Nat) (positive : 0 < value) (fits : value < 2 ^ 64)
    (rest : List UInt8) :
    varientDecode (varintEncode value ++ rest) = some (value, rest) ∧
      (∀ result ∈ decodeResults 0 1 (varintEncode value ++ rest), result < 2 ^ 64) ∧
      (1 ≤ (varintEncode value).length ∧ (varintEncode value).length ≤ 10) ∧
      (∃ front last, varintEncode value = front ++ [last] ∧
        (∀ byte ∈ front, byte &&& 128 ≠ 0) ∧ last &&& 128 = 0) ∧
      ∀ rounds, maxRounds ≤ rounds → encodeLoop rounds value = varintEncode value := by
  have encodes := encodes_varintEncode positive fits
  obtain ⟨front, last, shape, marked, clear⟩ := encodes.high_bits
  refine ⟨varientDecode_varintEncode positive fits rest,
    encodes.decodeResults_lt (by omega) rest, ⟨?_, ?_⟩, ⟨front, last, shape, marked, clear⟩, ?_⟩
  · rw [shape, List.length_append]
    exact Nat.le_add_left 1 front.length
  · exact encodes.length_le (lt_trans fits (by decide))
  · intro rounds enough
    have wide : value < 128 ^ rounds := by
      calc value < 128 ^ maxRounds := lt_trans fits (by decide)
        _ ≤ 128 ^ rounds := Nat.pow_le_pow_right (by decide) enough
    have positive : 0 < rounds := lt_of_lt_of_le (by decide) enough
    exact (encodes_encodeLoop wide positive).unique encodes

/-- The largest number, in front of a foreign byte. -/
theorem varint_exact_largest :
    varientDecode (varintEncode (2 ^ 64 - 1) ++ [7]) = some (2 ^ 64 - 1, [7]) ∧
      (∀ result ∈ decodeResults 0 1 (varintEncode (2 ^ 64 - 1) ++ [7]), result < 2 ^ 64) := by
  obtain ⟨readBack, results, -⟩ := varint_exact (2 ^ 64 - 1) (by decide) (by decide) [7]
  exact ⟨readBack, results⟩

/-! ## Announced size -/

theorem lengthLoop_eq (rounds value : Nat) :
    lengthLoop rounds value = (encodeLoop rounds value).length := by
  induction rounds generalizing value with
  | zero => rfl
  | succ rounds inductionHypothesis =>
      have quotient : (value : Int).tdiv 128 = ((value / 128 : Nat) : Int) := rfl
      rw [lengthLoop, encodeLoop, quotient, inductionHypothesis]
      split
      next more => rw [if_pos (by omega), List.length_cons]
      next done => rw [if_neg (by omega), List.length_singleton]

theorem varintLength_eq {value : Nat} (fits : value < 2 ^ 63) :
    varintLength value = (varintEncode value).length := by
  have signed : toInt64 value = value := if_pos fits
  unfold varintLength varintEncode
  rw [signed, lengthLoop_eq]
  split
  next zero => rw [if_pos (by omega), List.length_nil]
  next nonzero => rw [if_neg (by omega)]

theorem varintLength_of_large {value : Nat} (large : 2 ^ 63 ≤ value) (fits : value < 2 ^ 64) :
    varintLength value = 1 := by
  have signed : toInt64 value = (value : Int) - 2 ^ 64 := if_neg (by omega)
  have quotient : ((value : Int) - 2 ^ 64).tdiv 128 ≤ 0 := by
    have positive : 0 ≤ ((2 ^ 64 : Int) - value).tdiv 128 :=
      Int.tdiv_nonneg (by omega) (by decide)
    rw [← Int.neg_sub, Int.neg_tdiv]
    omega
  unfold varintLength
  rw [signed, if_neg (by omega), maxRounds, lengthLoop]
  exact if_neg (by omega)

theorem encodeLoop_length_pos (rounds value : Nat) :
    0 < (encodeLoop (rounds + 1) value).length := by
  rw [encodeLoop]
  split
  next => simp
  next => simp

theorem varintEncode_length_of_large {value : Nat} (large : 128 ≤ value) :
    1 < (varintEncode value).length := by
  have more : 0 < value / 128 := by omega
  unfold varintEncode
  rw [if_neg (by omega), maxRounds, encodeLoop, if_pos more, List.length_cons]
  exact Nat.succ_lt_succ (encodeLoop_length_pos 8 (value / 128))

theorem varintLength_le {value : Nat} (fits : value < 2 ^ 64) :
    varintLength value ≤ (varintEncode value).length ∧
      ((varintEncode value).length ≤ varintLength value ↔ value < 2 ^ 63) := by
  by_cases small : value < 2 ^ 63
  · rw [varintLength_eq small]
    exact ⟨le_refl _, iff_of_true (le_refl _) small⟩
  · have announced := varintLength_of_large (not_lt.mp small) fits
    have written : 1 < (varintEncode value).length := varintEncode_length_of_large (by omega)
    rw [announced]
    exact ⟨by omega, iff_of_false (by omega) small⟩

theorem varintLength_eq_iff {value : Nat} (fits : value < 2 ^ 64) :
    varintLength value = (varintEncode value).length ↔ value < 2 ^ 63 := by
  obtain ⟨atMost, exact_iff⟩ := varintLength_le fits
  rw [← exact_iff]
  omega

namespace Ns3QuicTag

variable {tag : Ns3QuicTag} {rest : List UInt8}

def written (tag : Ns3QuicTag) : List UInt8 := varintEncode tag.seq ++ varintEncode tag.time

/-- `varint_length` reads its argument as a signed number and `VarintEncode` as
an unsigned one: they agree on a 64-bit number, and with them the announced
size of a tag and what is written for it, exactly below `2 ^ 63`. -/
theorem getSerializedSize_eq_iff (tag : Ns3QuicTag) (seqFits : tag.seq < 2 ^ 64)
    (timeFits : tag.time < 2 ^ 64) :
    (tag.getSerializedSize = tag.written.length ↔ tag.seq < 2 ^ 63 ∧ tag.time < 2 ^ 63) ∧
      ∀ value < 2 ^ 64, varintLength value = (varintEncode value).length ↔ value < 2 ^ 63 := by
  refine ⟨?_, fun value fits => varintLength_eq_iff fits⟩
  have seqAtMost := (varintLength_le seqFits).1
  have timeAtMost := (varintLength_le timeFits).1
  rw [← varintLength_eq_iff seqFits, ← varintLength_eq_iff timeFits, getSerializedSize, written,
    List.length_append]
  -- neither summand exceeds what is written, so the sums agree only if both do
  omega

/-- A tag of two bytes for the number and one for the time. -/
theorem getSerializedSize_eq_three :
    getSerializedSize ⟨300, 5⟩ = (written ⟨300, 5⟩).length ∧ getSerializedSize ⟨300, 5⟩ = 3 :=
  ⟨(getSerializedSize_eq_iff ⟨300, 5⟩ (by decide) (by decide)).1.mpr (by decide), by decide⟩

/-- One byte is announced for the number `2 ^ 63` and ten are written. -/
theorem announced_size_too_small :
    getSerializedSize ⟨2 ^ 63, 5⟩ = 2 ∧ (written ⟨2 ^ 63, 5⟩).length = 11 ∧
      varintLength (2 ^ 64 - 1) = 1 ∧ (varintEncode (2 ^ 64 - 1)).length = 10 := by
  decide

/-- `Serialize` stays within the announced size exactly if both fields are
below `2 ^ 63`. -/
theorem serialize_eq_some_iff (seqFits : tag.seq < 2 ^ 64) (timeFits : tag.time < 2 ^ 64)
    {bytes : List UInt8} :
    tag.serialize = some bytes ↔
      bytes = tag.written ∧ tag.seq < 2 ^ 63 ∧ tag.time < 2 ^ 63 := by
  obtain ⟨seqLe, seqIff⟩ := varintLength_le seqFits
  obtain ⟨timeLe, timeIff⟩ := varintLength_le timeFits
  unfold serialize getSerializedSize
  dsimp only
  rw [List.length_append, ← seqIff, ← timeIff]
  split
  next enough =>
    rw [Option.some.injEq, eq_comm]
    exact ⟨fun same => ⟨same, by omega, by omega⟩, fun whole => whole.1⟩
  next tooSmall =>
    constructor
    · intro impossible
      cases impossible
    · rintro ⟨_, seqEnough, timeEnough⟩
      omega

theorem deserializeFrom_eq_some_iff {bytes : List UInt8} :
    deserializeFrom bytes = some (tag, rest) ↔
      ∃ middle, varientDecode bytes = some (tag.seq, middle) ∧
        varientDecode middle = some (tag.time, rest) := by
  unfold deserializeFrom
  constructor
  · intro result
    split at result
    next => cases result
    next seq middle first =>
      split at result
      next => cases result
      next time left second =>
        simp only [Option.some.injEq, Prod.mk.injEq] at result
        obtain ⟨rfl, rfl⟩ := result
        exact ⟨middle, first, second⟩
  · rintro ⟨middle, first, second⟩
    simp only [first, second]

/-- The written bytes are read back, and what follows them is left alone,
exactly if neither field is zero: a zero leaves no byte to be read. -/
theorem deserializeFrom_written_iff (seqFits : tag.seq < 2 ^ 64) (timeFits : tag.time < 2 ^ 64) :
    deserializeFrom (tag.written ++ rest) = some (tag, rest) ↔
      0 < tag.seq ∧ 0 < tag.time := by
  rw [deserializeFrom_eq_some_iff, written, List.append_assoc]
  constructor
  · rintro ⟨middle, first, second⟩
    have firstShorter := decodeLoop_shorter first
    have secondShorter := decodeLoop_shorter second
    rcases Nat.eq_zero_or_pos tag.seq with seqZero | seqPositive
    · -- the first field read is the time, if there is any
      rw [seqZero] at first firstShorter
      rcases Nat.eq_zero_or_pos tag.time with timeZero | timePositive
      · simp [varintEncode, timeZero] at firstShorter
        omega
      · have shifted := varientDecode_varintEncode timePositive timeFits rest
        simp only [varintEncode, if_true, List.nil_append] at first shifted
        rw [first, Option.some.injEq, Prod.mk.injEq] at shifted
        omega
    · refine ⟨seqPositive, Nat.pos_of_ne_zero fun timeZero => ?_⟩
      rw [varientDecode_varintEncode seqPositive seqFits, Option.some.injEq,
        Prod.mk.injEq] at first
      rw [← first.2] at secondShorter
      simp [varintEncode, timeZero] at secondShorter
  · rintro ⟨seqPositive, timePositive⟩
    exact ⟨_, varientDecode_varintEncode seqPositive seqFits _,
      varientDecode_varintEncode timePositive timeFits rest⟩

/-- A tag of 64-bit fields is read back from what was written for it, to the
last byte, exactly if both fields are positive and below `2 ^ 63`. -/
theorem round_trip_iff (tag : Ns3QuicTag) (seqFits : tag.seq < 2 ^ 64)
    (timeFits : tag.time < 2 ^ 64) (rest : List UInt8) :
    (∃ bytes, tag.serialize = some bytes ∧ deserializeFrom (bytes ++ rest) = some (tag, rest)) ↔
      (0 < tag.seq ∧ tag.seq < 2 ^ 63) ∧ (0 < tag.time ∧ tag.time < 2 ^ 63) := by
  constructor
  · rintro ⟨bytes, serialized, readBack⟩
    obtain ⟨rfl, seqSmall, timeSmall⟩ := (serialize_eq_some_iff seqFits timeFits).mp serialized
    obtain ⟨seqPositive, timePositive⟩ :=
      (deserializeFrom_written_iff seqFits timeFits).mp readBack
    exact ⟨⟨seqPositive, seqSmall⟩, timePositive, timeSmall⟩
  · rintro ⟨⟨seqPositive, seqSmall⟩, timePositive, timeSmall⟩
    exact ⟨tag.written,
      (serialize_eq_some_iff seqFits timeFits).mpr ⟨rfl, seqSmall, timeSmall⟩,
      (deserializeFrom_written_iff seqFits timeFits).mpr ⟨seqPositive, timePositive⟩⟩

/-- A tag whose first field takes two bytes, in front of a foreign byte. -/
theorem round_trip_iff_two_bytes :
    ∃ bytes, serialize ⟨300, 5⟩ = some bytes ∧
      deserializeFrom (bytes ++ [7]) = some (⟨300, 5⟩, [7]) :=
  (round_trip_iff ⟨300, 5⟩ (by decide) (by decide) [7]).mpr (by decide)

/-- The sequence number zero is written as nothing: the time is taken for it,
and the time is read from whatever follows.  The number `2 ^ 63` is written as
ten bytes into a buffer of one. -/
theorem zero_sequence_not_read_back :
    serialize ⟨0, 5⟩ = some [5] ∧ deserializeFrom [5] = none ∧
      deserializeFrom [5, 7] = some (⟨5, 7⟩, []) ∧ serialize ⟨2 ^ 63, 5⟩ = none := by
  decide

end Ns3QuicTag

theorem deserialize_serialize (tag : Ns3QuicTag) (seqPositive : 0 < tag.seq)
    (timePositive : 0 < tag.time) (seqFits : tag.seq < 2 ^ 63) (timeFits : tag.time < 2 ^ 63) :
    ∃ bytes, tag.serialize = some bytes ∧ Ns3QuicTag.deserialize bytes = some tag := by
  have seqWide : tag.seq < 2 ^ 64 := lt_trans seqFits (by decide)
  have timeWide : tag.time < 2 ^ 64 := lt_trans timeFits (by decide)
  refine ⟨tag.written,
    (Ns3QuicTag.serialize_eq_some_iff seqWide timeWide).mpr ⟨rfl, seqFits, timeFits⟩, ?_⟩
  have readBack : Ns3QuicTag.deserializeFrom (tag.written ++ []) = some (tag, []) :=
    (Ns3QuicTag.deserializeFrom_written_iff seqWide timeWide).mpr ⟨seqPositive, timePositive⟩
  rw [List.append_nil] at readBack
  rw [Ns3QuicTag.deserialize_eq, readBack]
  rfl

end Ns3Quic.App
