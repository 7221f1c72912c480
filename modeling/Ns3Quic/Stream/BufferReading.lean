import Ns3Quic.Stream.BufferInvariant

/-!
# Reading from the buffer of a stream

`Readv` and `MarkConsumed` advance block by block.  When the reader comes to the
end of a block or to a gap, `RetireBlockIfEmpty` deletes the block unless data is
left in it.  It looks at three offsets only: the last one received, the read
position and the start of the second interval.  These are enough, because a byte
of the block that is still to be read is either in the same round of the ring,
and then behind a gap in this block, or in the next round, and then the last
received byte is in this block as well.
-/

namespace Ns3Quic.Stream

open LoopRules

namespace QuicStreamSequencerBuffer

variable {buffer after : QuicStreamSequencerBuffer} {content : Nat → UInt8}

/-! ## The received bytes -/

theorem firstMissingByte_spec :
    (∀ offset < buffer.firstMissingByte, offset ∈ buffer.bytesReceived) ∧
    buffer.firstMissingByte ∉ buffer.bytesReceived := by
  have valid := buffer.bytesReceived.valid
  unfold firstMissingByte
  cases shape : buffer.bytesReceived.intervals with
  | nil =>
      refine ⟨fun offset below => absurd below (Nat.not_lt_zero _), ?_⟩
      rw [QuicIntervalSet.mem_iff, shape]
      exact not_covers_nil _
  | cons first rest =>
      rw [shape] at valid
      rw [List.head?_cons]
      dsimp only
      split
      · next later =>
          refine ⟨fun offset below => absurd below (Nat.not_lt_zero _), fun membership => ?_⟩
          rw [QuicIntervalSet.mem_iff, shape] at membership
          exact absurd (valid.min_le_of_covers membership) (Nat.not_le.mpr later)
      · next atZero =>
          refine ⟨fun offset below => ?_, fun membership => ?_⟩
          · rw [QuicIntervalSet.mem_iff, shape]
            exact covers_cons.mpr (.inl ⟨by omega, below⟩)
          · rw [QuicIntervalSet.mem_iff, shape] at membership
            have inRest := valid.covers_tail_iff.mpr ⟨membership, le_refl _⟩
            exact not_covers_of_lt (valid_cons.mp valid).2.1 inRest

theorem lt_nextExpectedByte {offset : Nat} (received : offset ∈ buffer.bytesReceived) :
    offset < buffer.nextExpectedByte := by
  unfold nextExpectedByte
  split
  · next nothing =>
      rw [QuicIntervalSet.mem_iff, List.getLast?_eq_none_iff.mp nothing] at received
      exact absurd received (not_covers_nil _)
  · next last found => exact QuicIntervalSet.lt_of_getLast? found received

theorem nextExpectedByte_received (positive : 0 < buffer.nextExpectedByte) :
    buffer.nextExpectedByte - 1 ∈ buffer.bytesReceived := by
  unfold nextExpectedByte at positive ⊢
  split at positive
  · exact absurd positive (Nat.lt_irrefl _)
  · next last found =>
      have membership := List.mem_of_getLast? found
      have nonempty := buffer.bytesReceived.valid.nonempty last membership
      exact ⟨last, membership, by omega, by omega⟩

theorem Holds.totalBytesRead_le_firstMissingByte (holds : Holds content buffer) :
    buffer.totalBytesRead ≤ buffer.firstMissingByte := by
  by_contra wasRead
  exact firstMissingByte_spec.2 (holds.read _ (Nat.not_le.mp wasRead))

theorem Holds.readable_received (holds : Holds content buffer) {distance : Nat}
    (readable : distance < buffer.readableBytes) :
    buffer.totalBytesRead + distance ∈ buffer.bytesReceived := by
  have ordered := holds.totalBytesRead_le_firstMissingByte
  rw [readableBytes] at readable
  exact firstMissingByte_spec.1 _ (by omega)

theorem read_of_isEmpty (empty : buffer.isEmpty = true) {offset : Nat}
    (received : offset ∈ buffer.bytesReceived) : offset < buffer.totalBytesRead := by
  unfold isEmpty at empty
  rw [QuicIntervalSet.mem_iff] at received
  split at empty
  · next nothing =>
      rw [nothing] at received
      exact absurd received (not_covers_nil _)
  · next only shape =>
      rw [shape] at received
      rw [Bool.and_eq_true, decide_eq_true_iff, decide_eq_true_iff] at empty
      rcases covers_cons.mp received with inOnly | nothing
      · omega
      · exact absurd nothing (not_covers_nil _)
  · cases empty

/-! ## Advancing -/

structure Advanced (buffer after : QuicStreamSequencerBuffer) (count : Nat) : Prop where
  totalBytesRead : after.totalBytesRead = buffer.totalBytesRead + count
  capacity : after.maxBufferCapacityBytes = buffer.maxBufferCapacityBytes
  bytesReceived : after.bytesReceived = buffer.bytesReceived

theorem Advanced.readableBytes {count : Nat} (advanced : Advanced buffer after count) :
    after.readableBytes = buffer.readableBytes - count := by
  have sameMissing : after.firstMissingByte = buffer.firstMissingByte := by
    rw [firstMissingByte, advanced.bytesReceived]
    rfl
  rw [QuicStreamSequencerBuffer.readableBytes, QuicStreamSequencerBuffer.readableBytes, sameMissing,
    advanced.totalBytesRead]
  omega

theorem Advanced.trans {count more : Nat} {last : QuicStreamSequencerBuffer}
    (first : Advanced buffer after count) (second : Advanced after last more) :
    Advanced buffer last (count + more) :=
  ⟨by rw [second.totalBytesRead, first.totalBytesRead, Nat.add_assoc],
    second.capacity.trans first.capacity, second.bytesReceived.trans first.bytesReceived⟩

theorem advance_advanced (count : Nat) : Advanced buffer (buffer.advance count) count :=
  ⟨rfl, rfl, rfl⟩

theorem Holds.advance (holds : Holds content buffer) {count : Nat}
    (readable : count ≤ buffer.readableBytes) : Holds content (buffer.advance count) := by
  have received : ∀ offset, buffer.totalBytesRead ≤ offset →
      offset < buffer.totalBytesRead + count → offset ∈ buffer.bytesReceived := by
    intro offset low high
    obtain ⟨distance, rfl⟩ := Nat.exists_eq_add_of_le low
    exact holds.readable_received (by omega)
  constructor
  · exact holds.shape.withCounts _ _ _
  · intro offset wasRead
    rcases Nat.lt_or_ge offset buffer.totalBytesRead with before | unread
    · exact holds.read offset before
    · exact received offset unread wasRead
  · intro offset membership
    exact (holds.within offset membership).trans_le
      (Nat.add_le_add_right (Nat.le_add_right _ _) _)
  · exact holds.short
  · intro offset membership notRead
    exact holds.stored offset membership ((Nat.le_add_right _ _).trans notRead)
  · -- the bytes that are read are taken from those that were unread
    have taken : (buffer.advance count).unread =
        buffer.unread \ Finset.Ico buffer.totalBytesRead (buffer.totalBytesRead + count) := by
      ext offset
      rw [mem_unread, Finset.mem_sdiff, mem_unread, Finset.mem_Ico]
      show offset ∈ buffer.bytesReceived ∧ buffer.totalBytesRead + count ≤ offset ↔ _
      constructor
      · rintro ⟨membership, notRead⟩
        exact ⟨⟨membership, by omega⟩, by omega⟩
      · rintro ⟨⟨membership, notRead⟩, outside⟩
        exact ⟨membership, by omega⟩
    have contained : Finset.Ico buffer.totalBytesRead (buffer.totalBytesRead + count) ⊆
        buffer.unread := by
      intro offset inside
      rw [Finset.mem_Ico] at inside
      exact mem_unread.mpr ⟨received offset inside.1 inside.2, inside.1⟩
    show buffer.numBytesBuffered - count = _
    rw [taken, Finset.card_sdiff_of_subset contained, Nat.card_Ico, holds.buffered]
    omega

/-! ## Retiring -/

theorem Holds.retire (holds : Holds content buffer) {index : Nat} {block : Option BufferBlock}
    (found : buffer.slot index = some block)
    (vacant : ∀ offset ∈ buffer.bytesReceived, buffer.totalBytesRead ≤ offset →
      buffer.getBlockIndex offset ≠ index) :
    Holds content (buffer.setSlot index none) := by
  refine ⟨holds.shape.setSlot _ _, holds.read, holds.within, holds.short, ?_, holds.buffered⟩
  intro offset received notRead
  have stored := holds.stored offset received notRead
  have elsewhere := blockAt_setSlot none found (buffer.getBlockIndex offset)
  rw [if_neg (vacant offset received notRead)] at elsewhere
  rw [byteAt_eq, ← elsewhere] at stored
  exact stored

theorem retireBlock_eq {index : Nat} {block : BufferBlock}
    (found : buffer.slot index = some (some block)) :
    buffer.retireBlock index = .ok (true, buffer.setSlot index none) := by
  rw [retireBlock, found]

theorem slot_of_byteAt {offset : Nat} {byte : UInt8} (stored : buffer.byteAt offset = some byte) :
    ∃ block, buffer.slot (buffer.getBlockIndex offset) = some (some block) ∧
      block.buffer (buffer.getInBlockOffset offset) = byte := by
  obtain ⟨block, found, same⟩ := Option.map_eq_some_iff.mp stored
  exact ⟨block, Option.join_eq_some_iff.mp found, same⟩

/-- If a received byte of the next round is in the block at the read position,
then so is the last received byte. -/
theorem Holds.last_of_wrapped (holds : Holds content buffer) {offset : Nat}
    (received : offset ∈ buffer.bytesReceived)
    (wrapped : buffer.totalBytesRead + buffer.maxBufferCapacityBytes ≤
      offset + buffer.readOffset) :
    buffer.getBlockIndex (buffer.nextExpectedByte - 1) = buffer.nextBlockToRead := by
  have before := lt_nextExpectedByte received
  have last := holds.within _ (nextExpectedByte_received (by omega))
  apply BlockRing.index_of_wrapped holds.shape.capacity_pos blockSize_pos _ last
  exact wrapped.trans (Nat.add_le_add_right (by omega) _)

theorem Holds.bytesAvailableInBlock_eq (holds : Holds content buffer) :
    buffer.bytesAvailableInBlock = min buffer.readableBytes
      (BlockRing.left buffer.maxBufferCapacityBytes kBlockSizeBytes buffer.totalBytesRead) := by
  rw [bytesAvailableInBlock, readOffset, nextBlockToRead, holds.shape.left_eq]

/-- An unread byte of the block at the old read position, unless the last received
byte is in this block, lies in front of the end of the block. -/
theorem Holds.before_end (holds : Holds content buffer)
    (notLast : buffer.getBlockIndex (buffer.nextExpectedByte - 1) ≠ buffer.nextBlockToRead)
    {offset : Nat} (received : offset ∈ buffer.bytesReceived)
    (unread : buffer.totalBytesRead ≤ offset)
    (inBlock : buffer.getBlockIndex offset = buffer.nextBlockToRead) :
    offset < buffer.totalBytesRead +
      BlockRing.left buffer.maxBufferCapacityBytes kBlockSizeBytes buffer.totalBytesRead := by
  rcases BlockRing.same_block_cases holds.shape.capacity_pos blockSize_pos unread
    (holds.within offset received) inBlock with before | wrapped
  · exact before
  · exact absurd (holds.last_of_wrapped received wrapped) notLast

theorem Holds.index_before_end (holds : Holds content buffer) {offset : Nat}
    (unread : buffer.totalBytesRead ≤ offset)
    (before : offset < buffer.totalBytesRead +
      BlockRing.left buffer.maxBufferCapacityBytes kBlockSizeBytes buffer.totalBytesRead) :
    buffer.getBlockIndex offset = buffer.nextBlockToRead := by
  obtain ⟨distance, rfl⟩ := Nat.exists_eq_add_of_le unread
  exact (BlockRing.index_place_add holds.shape.capacity_pos blockSize_pos (by omega)).1

theorem firstMissingByte_cons {first : QuicInterval Nat} {rest : List (QuicInterval Nat)}
    (shape : buffer.bytesReceived.intervals = first :: rest)
    (positive : 0 < buffer.firstMissingByte) :
    buffer.firstMissingByte = first.max := by
  unfold firstMissingByte at positive ⊢
  rw [shape, List.head?_cons] at positive ⊢
  dsimp only at positive ⊢
  split
  · next later => rw [if_pos later] at positive; exact absurd positive (Nat.lt_irrefl 0)
  · rfl

theorem isEmpty_of_one
    (notTwo : ∀ first second rest, buffer.bytesReceived.intervals = first :: second :: rest → False)
    (positive : 0 < buffer.totalBytesRead)
    (allRead : buffer.firstMissingByte = buffer.totalBytesRead) : buffer.isEmpty = true := by
  unfold isEmpty
  split
  · rfl
  · next only shape =>
      rw [← firstMissingByte_cons shape (by omega), allRead]
      simp [positive]
  · next notNone notOne =>
      cases shape : buffer.bytesReceived.intervals with
      | nil => exact absurd shape notNone
      | cons first rest =>
          cases rest with
          | nil => exact absurd shape (notOne first)
          | cons second rest => exact (notTwo first second rest shape).elim

theorem second_min_le {first second : QuicInterval Nat} {rest : List (QuicInterval Nat)}
    (shape : buffer.bytesReceived.intervals = first :: second :: rest) {offset : Nat}
    (received : offset ∈ buffer.bytesReceived) (after : first.max ≤ offset) :
    first.max < second.min ∧ second.min ≤ offset := by
  have valid := buffer.bytesReceived.valid
  rw [QuicIntervalSet.mem_iff, shape] at received
  rw [shape] at valid
  obtain ⟨-, between, validRest⟩ := valid_cons.mp valid
  exact ⟨between second List.mem_cons_self,
    validRest.min_le_of_covers (valid.covers_tail_iff.mpr ⟨received, after⟩)⟩

/-- When the reader has come to the end of its block or to a gap, the block is
deleted or kept, and no unread byte is lost. -/
theorem Holds.retireBlockIfEmpty (holds : Holds content buffer)
    (readable : 0 < buffer.readableBytes) :
    ∃ after, (buffer.advance buffer.bytesAvailableInBlock).retireBlockIfEmpty
        buffer.nextBlockToRead = .ok (true, after) ∧
      Holds content after ∧ Advanced buffer after buffer.bytesAvailableInBlock := by
  have available := holds.bytesAvailableInBlock_eq
  have leftPos := BlockRing.left_pos holds.shape.capacity_pos blockSize_pos buffer.totalBytesRead
  have missing : buffer.firstMissingByte = buffer.totalBytesRead + buffer.readableBytes := by
    rw [readableBytes]
    have := holds.totalBytesRead_le_firstMissingByte
    omega
  generalize countEq : buffer.bytesAvailableInBlock = count at available ⊢
  have advanced := holds.advance (show count ≤ buffer.readableBytes by omega)
  have first := holds.stored _ (holds.readable_received readable) (Nat.le_add_right _ _)
  obtain ⟨block, found, -⟩ := slot_of_byteAt first
  have retired : (∀ offset ∈ buffer.bytesReceived, buffer.totalBytesRead + count ≤ offset →
      buffer.getBlockIndex offset ≠ buffer.nextBlockToRead) →
      ∃ after, (buffer.advance count).retireBlock buffer.nextBlockToRead = .ok (true, after) ∧
        Holds content after ∧ Advanced buffer after count := fun vacant =>
    ⟨_, retireBlock_eq (show (buffer.advance count).slot _ = _ from found),
      advanced.retire (show (buffer.advance count).slot _ = _ from found) vacant, rfl, rfl, rfl⟩
  unfold QuicStreamSequencerBuffer.retireBlockIfEmpty
  split
  · next empty =>
      apply retired
      intro offset received notRead
      exact absurd (read_of_isEmpty empty received) (Nat.not_lt.mpr notRead)
  · next notEmpty =>
      split
      · exact ⟨_, rfl, advanced, rfl, rfl, rfl⟩
      · next notLast =>
          split
          · next sameBlock =>
              split
              · next first second rest shape =>
                  split
                  · exact ⟨_, rfl, advanced, rfl, rfl, rfl⟩
                  · next secondElsewhere =>
                      apply retired
                      intro offset received notRead inBlock
                      -- the byte is behind the gap, so the second interval starts in this block
                      have before := holds.before_end notLast received (by omega) inBlock
                      have atGap : buffer.firstMissingByte = first.max :=
                        firstMissingByte_cons shape (by omega)
                      have second_le := second_min_le shape received (by omega)
                      exact secondElsewhere (holds.index_before_end (by omega) (by omega))
              · next notTwo =>
                  -- with one interval there is no gap to stop at
                  have more : count < buffer.readableBytes := by
                    by_contra stopped
                    apply notEmpty
                    have positive : 0 < buffer.totalBytesRead + count := by omega
                    have allRead : buffer.firstMissingByte = buffer.totalBytesRead + count := by
                      omega
                    exact isEmpty_of_one notTwo positive allRead
                  have received := holds.readable_received more
                  have before := holds.before_end notLast received (Nat.le_add_right _ _) sameBlock
                  omega
          · next otherBlock =>
              apply retired
              intro offset received notRead inBlock
              have before := holds.before_end notLast received (by omega) inBlock
              have stillHere : buffer.getBlockIndex (buffer.totalBytesRead + count) =
                  buffer.nextBlockToRead := holds.index_before_end (by omega) (by omega)
              exact otherBlock stillHere

/-! ## The loops -/

theorem Holds.read_block (holds : Holds content buffer) {block : BufferBlock}
    (found : buffer.slot buffer.nextBlockToRead = some (some block)) {count : Nat}
    (available : count ≤ buffer.bytesAvailableInBlock) :
    block.read buffer.readOffset count = slice content buffer.totalBytesRead count := by
  have availableEq := holds.bytesAvailableInBlock_eq
  apply List.map_congr_left
  intro distance inRange
  have short : distance < count := List.mem_range.mp inRange
  obtain ⟨sameBlock, place⟩ := @BlockRing.index_place_add buffer.maxBufferCapacityBytes
    kBlockSizeBytes holds.shape.capacity_pos blockSize_pos buffer.totalBytesRead distance (by omega)
  have stored := holds.stored _ (holds.readable_received (show distance < _ by omega))
    (Nat.le_add_right _ _)
  obtain ⟨other, otherFound, same⟩ := slot_of_byteAt stored
  rw [getBlockIndex_eq, sameBlock, ← getBlockIndex_eq, ← nextBlockToRead, found] at otherFound
  rw [Option.some.inj (Option.some.inj otherFound), ← same, getInBlockOffset_eq, place]
  rfl

theorem Holds.readFromBlock (holds : Holds content buffer) (readable : 0 < buffer.readableBytes)
    (destRemaining : Nat) :
    ∃ after, buffer.readFromBlock destRemaining =
        .ok (slice content buffer.totalBytesRead
          (min buffer.bytesAvailableInBlock destRemaining), after) ∧
      Holds content after ∧
      Advanced buffer after (min buffer.bytesAvailableInBlock destRemaining) := by
  have availableEq := holds.bytesAvailableInBlock_eq
  have leftFits := BlockRing.place_add_left_le holds.shape.capacity_pos blockSize_pos
    buffer.totalBytesRead
  have first := holds.stored _ (holds.readable_received readable) (Nat.le_add_right _ _)
  obtain ⟨block, found, -⟩ := slot_of_byteAt first
  rw [Nat.add_zero, ← nextBlockToRead] at found
  have inBlock : ¬ kBlockSizeBytes <
      buffer.readOffset + min buffer.bytesAvailableInBlock destRemaining := by
    rw [readOffset, getInBlockOffset_eq]
    omega
  unfold QuicStreamSequencerBuffer.readFromBlock
  dsimp only
  rw [found]
  dsimp only
  rw [if_neg inBlock, holds.read_block found (Nat.min_le_left _ _)]
  split
  · next whole =>
      obtain ⟨after, retired, afterHolds, advanced⟩ := holds.retireBlockIfEmpty readable
      rw [whole, retired]
      exact ⟨after, rfl, afterHolds, advanced⟩
  · exact ⟨_, rfl, holds.advance (by omega), advance_advanced _⟩

theorem Holds.readLoop {rounds : Nat} (holds : Holds content buffer) {destRemaining : Nat}
    (enough : destRemaining ≤ rounds) :
    ∃ after, readLoop rounds buffer destRemaining =
        .ok (slice content buffer.totalBytesRead (min destRemaining buffer.readableBytes), after) ∧
      Holds content after ∧ Advanced buffer after (min destRemaining buffer.readableBytes) := by
  induction rounds generalizing buffer destRemaining with
  | zero =>
      obtain rfl : destRemaining = 0 := Nat.le_zero.mp enough
      rw [Nat.zero_min]
      exact ⟨buffer, by rw [QuicStreamSequencerBuffer.readLoop]; rfl, holds, rfl, rfl, rfl⟩
  | succ rounds ih =>
      rw [QuicStreamSequencerBuffer.readLoop]
      split
      · next stop =>
          have nothing : min destRemaining buffer.readableBytes = 0 := by
            rw [Bool.or_eq_true, decide_eq_true_iff, decide_eq_true_iff] at stop
            omega
          rw [nothing]
          exact ⟨buffer, rfl, holds, rfl, rfl, rfl⟩
      · next goOn =>
          rw [Bool.or_eq_true, decide_eq_true_iff, decide_eq_true_iff] at goOn
          have readable : 0 < buffer.readableBytes := by omega
          have availableEq := holds.bytesAvailableInBlock_eq
          have leftPos := BlockRing.left_pos holds.shape.capacity_pos blockSize_pos
            buffer.totalBytesRead
          obtain ⟨middle, first, middleHolds, advanced⟩ :=
            holds.readFromBlock readable destRemaining
          generalize countEq : min buffer.bytesAvailableInBlock destRemaining = count
            at first advanced
          obtain ⟨after, later, afterHolds, further⟩ :=
            @ih middle middleHolds (destRemaining - count) (by omega)
          have total : count + min (destRemaining - count) middle.readableBytes =
              min destRemaining buffer.readableBytes := by
            rw [advanced.readableBytes]
            omega
          rw [advanced.totalBytesRead] at later
          refine ⟨after, ?_, afterHolds, total ▸ advanced.trans further⟩
          dsimp only
          rw [first, bind_ok]
          dsimp only
          rw [length_slice, later, bind_ok]
          dsimp only
          rw [slice_append, total]
          rfl

/-- `Readv` hands out the next bytes of the content, as many as fit and are there. -/
theorem Holds.readv (holds : Holds content buffer) (lengths : List Nat) :
    ∃ after, buffer.readv lengths =
        .ok (slice content buffer.totalBytesRead (min lengths.sum buffer.readableBytes), after) ∧
      Holds content after ∧ Advanced buffer after (min lengths.sum buffer.readableBytes) := by
  induction lengths generalizing buffer with
  | nil =>
      rw [List.sum_nil, Nat.zero_min]
      exact ⟨buffer, by rw [QuicStreamSequencerBuffer.readv]; rfl, holds, rfl, rfl, rfl⟩
  | cons length rest ih =>
      rw [QuicStreamSequencerBuffer.readv, List.sum_cons]
      split
      · next nothing =>
          rw [nothing, Nat.min_zero]
          exact ⟨buffer, rfl, holds, rfl, rfl, rfl⟩
      · obtain ⟨middle, first, middleHolds, advanced⟩ := holds.readLoop (Nat.le_refl length)
        obtain ⟨after, later, afterHolds, further⟩ := ih middleHolds
        have total : min length buffer.readableBytes + min rest.sum middle.readableBytes =
            min (length + rest.sum) buffer.readableBytes := by
          rw [advanced.readableBytes]
          omega
        rw [advanced.totalBytesRead] at later
        refine ⟨after, ?_, afterHolds, total ▸ advanced.trans further⟩
        rw [first, bind_ok]
        dsimp only
        rw [later, bind_ok]
        dsimp only
        rw [slice_append, total]
        rfl

theorem Holds.consumeFromBlock (holds : Holds content buffer) (readable : 0 < buffer.readableBytes)
    (bytesToConsume : Nat) :
    ∃ after, buffer.consumeFromBlock bytesToConsume =
        .ok (min bytesToConsume buffer.bytesAvailableInBlock, after) ∧
      Holds content after ∧
      Advanced buffer after (min bytesToConsume buffer.bytesAvailableInBlock) := by
  have availableEq := holds.bytesAvailableInBlock_eq
  unfold QuicStreamSequencerBuffer.consumeFromBlock
  dsimp only
  split
  · next whole =>
      obtain ⟨after, retired, afterHolds, advanced⟩ := holds.retireBlockIfEmpty readable
      rw [← whole, retired]
      exact ⟨after, rfl, afterHolds, advanced⟩
  · exact ⟨_, rfl, holds.advance (by omega), advance_advanced _⟩

theorem Holds.consumeLoop {rounds : Nat} (holds : Holds content buffer) {bytesToConsume : Nat}
    (readable : bytesToConsume ≤ buffer.readableBytes) (enough : bytesToConsume ≤ rounds) :
    ∃ after, consumeLoop rounds buffer bytesToConsume = .ok after ∧
      Holds content after ∧ Advanced buffer after bytesToConsume := by
  induction rounds generalizing buffer bytesToConsume with
  | zero =>
      obtain rfl : bytesToConsume = 0 := Nat.le_zero.mp enough
      exact ⟨buffer, by rw [QuicStreamSequencerBuffer.consumeLoop], holds, rfl, rfl, rfl⟩
  | succ rounds ih =>
      cases bytesToConsume with
      | zero => exact ⟨buffer, by rw [QuicStreamSequencerBuffer.consumeLoop], holds, rfl, rfl, rfl⟩
      | succ rest =>
          have availableEq := holds.bytesAvailableInBlock_eq
          have leftPos := BlockRing.left_pos holds.shape.capacity_pos blockSize_pos
            buffer.totalBytesRead
          obtain ⟨middle, first, middleHolds, advanced⟩ :=
            holds.consumeFromBlock (show 0 < buffer.readableBytes by omega) (rest + 1)
          generalize countEq : min (rest + 1) buffer.bytesAvailableInBlock = count
            at first advanced
          obtain ⟨after, later, afterHolds, further⟩ := @ih middle middleHolds (rest + 1 - count)
            (by rw [advanced.readableBytes]; omega) (by omega)
          have total : count + (rest + 1 - count) = rest + 1 := by omega
          refine ⟨after, ?_, afterHolds, total ▸ advanced.trans further⟩
          rw [QuicStreamSequencerBuffer.consumeLoop, first]
          · exact later
          · exact Nat.succ_ne_zero rest

theorem Holds.markConsumed (holds : Holds content buffer) (bytesConsumed : Nat) :
    (buffer.readableBytes < bytesConsumed ∧
      buffer.markConsumed bytesConsumed = .ok (false, buffer)) ∨
    (bytesConsumed ≤ buffer.readableBytes ∧
      ∃ after, buffer.markConsumed bytesConsumed = .ok (true, after) ∧ Holds content after ∧
        Advanced buffer after bytesConsumed) := by
  unfold QuicStreamSequencerBuffer.markConsumed
  split
  · next tooMany => exact .inl ⟨tooMany, rfl⟩
  · next readable =>
      obtain ⟨after, result, afterHolds, advanced⟩ :=
        holds.consumeLoop (Nat.not_lt.mp readable) (Nat.le_refl bytesConsumed)
      refine .inr ⟨Nat.not_lt.mp readable, after, ?_, afterHolds, advanced⟩
      rw [result]
      rfl

/-! ## Emptying -/

theorem Shape.clear (shape : Shape buffer) : Shape buffer.clear := by
  refine ⟨shape.capacity_pos, shape.capacity_le, shape.blocks_count, shape.current_le,
    fun array found => ?_, fun onDemand nothing => ?_⟩
  · obtain ⟨old, isOld, rfl⟩ := Option.map_eq_some_iff.mp found
    have length := shape.array_length old isOld
    rw [List.length_append, List.length_map, ← List.length_append, List.take_append_drop]
    exact length
  · exact shape.no_array onDemand (Option.map_eq_none_iff.mp nothing)

theorem Shape.clear_holds (shape : Shape buffer)
    (short : buffer.totalBytesRead ≤ Session.kMaxStreamLength) : Holds content buffer.clear := by
  have received : ∀ offset,
      offset ∈ buffer.clear.bytesReceived ↔ offset < buffer.totalBytesRead := by
    intro offset
    rw [show buffer.clear.bytesReceived = .ofInterval ⟨0, buffer.totalBytesRead⟩ from rfl,
      QuicIntervalSet.mem_ofInterval]
    exact and_iff_right (Nat.zero_le _)
  have nothing : buffer.clear.unread = ∅ := by
    rw [Finset.eq_empty_iff_forall_notMem]
    intro offset membership
    obtain ⟨inReceived, notRead⟩ := mem_unread.mp membership
    exact absurd ((received offset).mp inReceived) (Nat.not_lt.mpr notRead)
  constructor
  · exact shape.clear
  · exact fun offset wasRead => (received offset).mpr wasRead
  · exact fun offset membership => ((received offset).mp membership).trans_le (Nat.le_add_right _ _)
  · exact fun offset membership => ((received offset).mp membership).trans_le short
  · intro offset membership notRead
    exact absurd ((received offset).mp membership) (Nat.not_lt.mpr notRead)
  · rw [nothing]
    rfl

theorem Holds.releaseWholeBuffer (holds : Holds content buffer) :
    Holds content buffer.releaseWholeBuffer := by
  have cleared : Holds content buffer.clear := holds.shape.clear_holds holds.totalBytesRead_le
  refine ⟨⟨cleared.shape.capacity_pos, cleared.shape.capacity_le, cleared.shape.blocks_count,
    Nat.zero_le _, (fun _ impossible => nomatch impossible), fun _ _ => rfl⟩, cleared.read,
    cleared.within, cleared.short, fun offset received notRead => ?_, cleared.buffered⟩
  -- nothing is left to read
  have wasRead : offset < buffer.totalBytesRead := by
    rw [show buffer.releaseWholeBuffer.bytesReceived = .ofInterval ⟨0, buffer.totalBytesRead⟩
      from rfl, QuicIntervalSet.mem_ofInterval] at received
    exact received.2
  exact absurd wasRead (Nat.not_lt.mpr notRead)

theorem new_holds {maxCapacityBytes : Nat} (someRoom : 0 < maxCapacityBytes)
    (fits : maxCapacityBytes ≤ 2 ^ 62) (onDemand : Bool) :
    Holds content (new maxCapacityBytes onDemand) := by
  refine Shape.clear_holds ⟨someRoom, fits, rfl, Nat.zero_le _, ?_, fun _ _ => rfl⟩ (Nat.zero_le _)
  exact fun _ impossible => nomatch impossible

theorem Holds.flushBufferedFrames (holds : Holds content buffer) :
    Holds content buffer.flushBufferedFrames.2 ∧
    buffer.flushBufferedFrames.2.totalBytesRead =
      buffer.totalBytesRead + buffer.flushBufferedFrames.1 ∧
    buffer.flushBufferedFrames.2.maxBufferCapacityBytes = buffer.maxBufferCapacityBytes ∧
    ∀ offset, offset ∈ buffer.flushBufferedFrames.2.bytesReceived ↔
      offset < buffer.totalBytesRead + buffer.flushBufferedFrames.1 := by
  have readLe : buffer.totalBytesRead ≤ buffer.nextExpectedByte := by
    rcases Nat.eq_zero_or_pos buffer.totalBytesRead with nothing | something
    · omega
    · have := lt_nextExpectedByte (holds.read (buffer.totalBytesRead - 1) (by omega))
      omega
  have short : buffer.nextExpectedByte ≤ Session.kMaxStreamLength := by
    rcases Nat.eq_zero_or_pos buffer.nextExpectedByte with nothing | something
    · omega
    · have := holds.short _ (nextExpectedByte_received something)
      omega
  have together : buffer.totalBytesRead + buffer.flushBufferedFrames.1 =
      buffer.nextExpectedByte := Nat.add_sub_cancel' readLe
  refine ⟨(holds.shape.withCounts _ _ _).clear_holds short, together.symm, rfl, fun offset => ?_⟩
  rw [together]
  show offset ∈ QuicIntervalSet.ofInterval ⟨0, buffer.nextExpectedByte⟩ ↔ _
  rw [QuicIntervalSet.mem_ofInterval]
  exact and_iff_right (Nat.zero_le _)

end QuicStreamSequencerBuffer

end Ns3Quic.Stream
