import Ns3Quic.Session.TransportStream
import Ns3Quic.Stream.Content
import Ns3Quic.Stream.SequencerBuffer

/-!
# What the buffer of a stream holds

The frames of a stream carry parts of one sequence of bytes, its content.  The
buffer holds every byte that was received and not read, at the place of its
offset.  This is kept by all operations, because the offsets that can be in the
buffer never share a place, and because a block is only deleted when no received
byte is left in it.
-/

namespace Ns3Quic.Stream

open LoopRules

namespace QuicStreamSequencerBuffer

variable {buffer after : QuicStreamSequencerBuffer} {content : Nat → UInt8}

/-! ## Shape -/

/-- The block pointers fit the capacity. -/
structure Shape (buffer : QuicStreamSequencerBuffer) : Prop where
  capacity_pos : 0 < buffer.maxBufferCapacityBytes
  capacity_le : buffer.maxBufferCapacityBytes ≤ 2 ^ 62
  blocks_count : buffer.maxBlocksCount = calculateBlockCount buffer.maxBufferCapacityBytes
  current_le : buffer.currentBlocksCount ≤ buffer.maxBlocksCount
  array_length : ∀ array, buffer.blocks = some array → array.length = buffer.blocksCount
  no_array : buffer.allocateBlocksOnDemand = true → buffer.blocks = none →
    buffer.currentBlocksCount = 0

theorem Shape.withCounts (shape : Shape buffer) (totalBytesRead numBytesBuffered : Nat)
    (bytesReceived : QuicIntervalSet Nat) :
    Shape { buffer with totalBytesRead, numBytesBuffered, bytesReceived } :=
  ⟨shape.capacity_pos, shape.capacity_le, shape.blocks_count, shape.current_le,
    shape.array_length, shape.no_array⟩

theorem blockSize_pos : 0 < kBlockSizeBytes := by decide

theorem getBlockIndex_eq (offset : Nat) : buffer.getBlockIndex offset =
    BlockRing.index buffer.maxBufferCapacityBytes kBlockSizeBytes offset := rfl

theorem getInBlockOffset_eq (offset : Nat) : buffer.getInBlockOffset offset =
    BlockRing.place buffer.maxBufferCapacityBytes kBlockSizeBytes offset := rfl

theorem Shape.left_eq (shape : Shape buffer) (offset : Nat) :
    buffer.getBlockCapacity (buffer.getBlockIndex offset) - buffer.getInBlockOffset offset =
      BlockRing.left buffer.maxBufferCapacityBytes kBlockSizeBytes offset := by
  rw [getBlockCapacity, shape.blocks_count]
  rfl

theorem Shape.getBlockIndex_lt (shape : Shape buffer) (offset : Nat) :
    buffer.getBlockIndex offset < buffer.maxBlocksCount := by
  rw [shape.blocks_count]
  exact BlockRing.index_lt_count shape.capacity_pos blockSize_pos offset

/-! ## Blocks -/

def blockAt (buffer : QuicStreamSequencerBuffer) (index : Nat) : Option BufferBlock :=
  (buffer.slot index).join

theorem byteAt_eq (offset : Nat) : buffer.byteAt offset =
    (buffer.blockAt (buffer.getBlockIndex offset)).map fun block =>
      block.buffer (buffer.getInBlockOffset offset) := rfl

theorem Shape.slot_of_lt (shape : Shape buffer) {array : List (Option BufferBlock)}
    (found : buffer.blocks = some array) {index : Nat} (inside : index < buffer.blocksCount) :
    buffer.slot index = some (buffer.blockAt index) := by
  have bound : index < array.length := shape.array_length array found ▸ inside
  rw [blockAt, slot, found, Option.bind_some, List.getElem?_eq_getElem bound]
  rfl

theorem blockAt_setSlot {index : Nat} (block : Option BufferBlock) {old : Option BufferBlock}
    (found : buffer.slot index = some old) (other : Nat) :
    (buffer.setSlot index block).blockAt other =
      if other = index then block else buffer.blockAt other := by
  obtain ⟨array, isArray, inArray⟩ := Option.bind_eq_some_iff.mp found
  obtain ⟨inside, -⟩ := List.getElem?_eq_some_iff.mp inArray
  rw [blockAt, slot, setSlot, isArray, Option.map_some, Option.bind_some, List.getElem?_set,
    if_pos inside]
  split
  · next same => rw [if_pos same.symm, Option.join_some]
  · next differs => rw [if_neg (Ne.symm differs), blockAt, slot, isArray, Option.bind_some]

theorem Shape.setSlot (shape : Shape buffer) (index : Nat) (block : Option BufferBlock) :
    Shape (buffer.setSlot index block) := by
  refine ⟨shape.capacity_pos, shape.capacity_le, shape.blocks_count, shape.current_le,
    fun array found => ?_, fun onDemand nothing => ?_⟩
  · obtain ⟨old, isOld, rfl⟩ := Option.map_eq_some_iff.mp found
    rw [List.length_set]
    exact shape.array_length old isOld
  · exact shape.no_array onDemand (Option.map_eq_none_iff.mp nothing)

theorem allocateBlocks_frame :
    buffer.allocateBlocks = { buffer with blocks := buffer.allocateBlocks.blocks } := by
  unfold allocateBlocks
  split <;> rfl

theorem Shape.allocateBlocks (shape : Shape buffer) : Shape buffer.allocateBlocks := by
  unfold QuicStreamSequencerBuffer.allocateBlocks
  split
  · next absent =>
      obtain ⟨notOnDemand, -⟩ := Bool.and_eq_true_iff.mp absent
      rw [Bool.not_eq_true'] at notOnDemand
      refine ⟨shape.capacity_pos, shape.capacity_le, shape.blocks_count, shape.current_le,
        fun array found => ?_, fun _ nothing => ?_⟩
      · cases found
        rw [List.length_replicate, blocksCount, if_neg (by rw [notOnDemand]; decide)]
      · cases nothing
  · exact shape

theorem Shape.slot_allocateBlocks (shape : Shape buffer) {index : Nat}
    (inside : index < buffer.blocksCount) :
    buffer.allocateBlocks.slot index = some (buffer.blockAt index) := by
  cases found : buffer.blocks with
  | some array =>
      rw [QuicStreamSequencerBuffer.allocateBlocks, found, Option.isNone_some, Bool.and_false,
        if_neg Bool.false_ne_true]
      exact shape.slot_of_lt found inside
  | none =>
      have noBlock : buffer.blockAt index = none := by
        rw [blockAt, slot, found]
        rfl
      cases onDemand : buffer.allocateBlocksOnDemand with
      | true =>
          rw [blocksCount, if_pos onDemand, shape.no_array onDemand found] at inside
          exact absurd inside (Nat.not_lt_zero _)
      | false =>
          rw [blocksCount, if_neg (by rw [onDemand]; decide)] at inside
          rw [QuicStreamSequencerBuffer.allocateBlocks, if_pos (by rw [onDemand, found]; rfl),
            noBlock, slot, Option.bind_some, List.getElem?_replicate, if_pos inside]

theorem blockAt_allocateBlocks (index : Nat) :
    buffer.allocateBlocks.blockAt index = buffer.blockAt index := by
  unfold allocateBlocks
  split
  · next absent =>
      obtain ⟨-, noArray⟩ := Bool.and_eq_true_iff.mp absent
      rw [blockAt, slot, blockAt, slot, Option.isNone_iff_eq_none.mp noArray, Option.bind_some,
        List.getElem?_replicate]
      split <;> rfl
  · rfl

/-! ## Writing -/

/-- After the operation the covered offsets of the content are stored, as well as
those that were before. -/
structure Wrote (content : Nat → UInt8) (covered : Nat → Prop)
    (buffer after : QuicStreamSequencerBuffer) : Prop where
  frame : after = { buffer with blocks := after.blocks }
  shape : Shape after
  stored : ∀ offset, buffer.totalBytesRead ≤ offset →
    offset < buffer.totalBytesRead + buffer.maxBufferCapacityBytes →
    covered offset ∨ buffer.byteAt offset = some (content offset) →
    after.byteAt offset = some (content offset)

section Frame

variable {covered : Nat → Prop} (wrote : Wrote content covered buffer after)
include wrote

theorem Wrote.totalBytesRead : after.totalBytesRead = buffer.totalBytesRead := by
  rw [wrote.frame]

theorem Wrote.capacity : after.maxBufferCapacityBytes = buffer.maxBufferCapacityBytes := by
  rw [wrote.frame]

theorem Wrote.blocksCount : after.blocksCount = buffer.blocksCount := by
  rw [wrote.frame]
  rfl

theorem Wrote.getBlockIndex (offset : Nat) :
    after.getBlockIndex offset = buffer.getBlockIndex offset := by
  rw [wrote.frame]
  rfl

end Frame

theorem Wrote.refl (shape : Shape buffer) : Wrote content (fun _ => False) buffer buffer :=
  ⟨rfl, shape, fun _ _ _ stored => stored.resolve_left id⟩

theorem Wrote.trans {covered more : Nat → Prop} {last : QuicStreamSequencerBuffer}
    (first : Wrote content covered buffer after) (second : Wrote content more after last) :
    Wrote content (fun offset => covered offset ∨ more offset) buffer last := by
  refine ⟨?_, second.shape, fun offset unread inside stored => ?_⟩
  · rw [second.frame, first.frame]
  · rw [← first.totalBytesRead] at unread inside
    rw [← first.capacity] at inside
    apply second.stored offset unread inside
    rw [first.totalBytesRead] at unread inside
    rw [first.capacity] at inside
    rcases stored with (inFirst | inSecond) | before
    · exact .inr (first.stored offset unread inside (.inl inFirst))
    · exact .inl inSecond
    · exact .inr (first.stored offset unread inside (.inr before))

theorem Wrote.mono {covered smaller : Nat → Prop} (wrote : Wrote content covered buffer after)
    (contained : ∀ offset, smaller offset → covered offset) :
    Wrote content smaller buffer after :=
  ⟨wrote.frame, wrote.shape, fun offset unread inside stored =>
    wrote.stored offset unread inside (stored.imp_left (contained offset))⟩

theorem Shape.bytesAvailable_eq (shape : Shape buffer) {offset : Nat}
    (inside : offset < buffer.totalBytesRead + buffer.maxBufferCapacityBytes) :
    buffer.bytesAvailable offset =
      min (BlockRing.left buffer.maxBufferCapacityBytes kBlockSizeBytes offset)
        (buffer.totalBytesRead + buffer.maxBufferCapacityBytes - offset) := by
  rw [bytesAvailable, shape.left_eq]
  split <;> omega

theorem write_eq {block : BufferBlock} {place position : Nat} {source : List UInt8} :
    (block.write place source).buffer position =
      if place ≤ position ∧ position < place + source.length then
        source[position - place]?.getD (block.buffer position)
      else block.buffer position := by
  unfold BufferBlock.write
  dsimp only
  by_cases after : place ≤ position
  · rw [if_pos after]
    split
    · rfl
    · next outside => rw [List.getElem?_eq_none (by omega), Option.getD_none]
  · rw [if_neg after, if_neg (by omega)]

def withWritten (buffer : QuicStreamSequencerBuffer) (offset : Nat) (bytes : List UInt8) :
    QuicStreamSequencerBuffer :=
  buffer.allocateBlocks.setSlot (buffer.getBlockIndex offset)
    (some (((buffer.blockAt (buffer.getBlockIndex offset)).getD .fresh).write
      (buffer.getInBlockOffset offset) bytes))

theorem copyToBlock_eq (shape : Shape buffer) {offset : Nat} (source : List UInt8)
    (inside : offset < buffer.totalBytesRead + buffer.maxBufferCapacityBytes)
    (ready : buffer.getBlockIndex offset < buffer.blocksCount) :
    buffer.copyToBlock offset source =
      .ok (min (buffer.bytesAvailable offset) source.length,
        buffer.withWritten offset
          (source.take (min (buffer.bytesAvailable offset) source.length))) := by
  have leftFits := BlockRing.place_add_left_le shape.capacity_pos blockSize_pos offset
  have available := shape.bytesAvailable_eq inside
  have slotFound := shape.slot_allocateBlocks ready
  have someArray : ¬ buffer.allocateBlocks.blocks.isNone = true := by
    intro nothing
    rw [slot, Option.isNone_iff_eq_none.mp nothing] at slotFound
    cases slotFound
  have sameCount : buffer.allocateBlocks.blocksCount = buffer.blocksCount := by
    rw [allocateBlocks_frame]
    rfl
  have places : ¬ kBlockSizeBytes < buffer.getInBlockOffset offset +
      min (buffer.bytesAvailable offset) source.length := by
    rw [getInBlockOffset_eq]
    omega
  unfold copyToBlock
  dsimp only
  rw [sameCount, if_neg (Nat.not_le.mpr ready), if_neg someArray, slotFound]
  dsimp only
  rw [if_neg places]
  rfl

theorem blockAt_withWritten (shape : Shape buffer) {offset : Nat} (bytes : List UInt8)
    (ready : buffer.getBlockIndex offset < buffer.blocksCount) (index : Nat) :
    (buffer.withWritten offset bytes).blockAt index =
      if index = buffer.getBlockIndex offset then
        some (((buffer.blockAt (buffer.getBlockIndex offset)).getD .fresh).write
          (buffer.getInBlockOffset offset) bytes)
      else buffer.blockAt index := by
  rw [withWritten, blockAt_setSlot _ (shape.slot_allocateBlocks ready), blockAt_allocateBlocks]

theorem withWritten_frame (offset : Nat) (bytes : List UInt8) : buffer.withWritten offset bytes =
    { buffer with blocks := (buffer.withWritten offset bytes).blocks } := by
  rw [withWritten, setSlot, allocateBlocks_frame]

/-- Writing to one block stores the bytes and spares the others of the window,
because no two offsets of the window share a place. -/
theorem withWritten_wrote (shape : Shape buffer) {offset : Nat} {bytes : List UInt8}
    (agrees : Agrees content offset bytes) (unread : buffer.totalBytesRead ≤ offset)
    (fits : offset + bytes.length ≤ buffer.totalBytesRead + buffer.maxBufferCapacityBytes)
    (inBlock : bytes.length ≤
      BlockRing.left buffer.maxBufferCapacityBytes kBlockSizeBytes offset)
    (ready : buffer.getBlockIndex offset < buffer.blocksCount) :
    Wrote content (fun position => offset ≤ position ∧ position < offset + bytes.length)
      buffer (buffer.withWritten offset bytes) := by
  have capacity := shape.capacity_pos
  refine ⟨withWritten_frame offset bytes, shape.allocateBlocks.setSlot _ _,
    fun position positionUnread positionInside stored => ?_⟩
  have sameGeometry : (buffer.withWritten offset bytes).maxBufferCapacityBytes =
      buffer.maxBufferCapacityBytes := by
    rw [withWritten_frame]
  rw [byteAt_eq, getBlockIndex_eq, getInBlockOffset_eq, sameGeometry, ← getBlockIndex_eq,
    ← getInBlockOffset_eq, blockAt_withWritten shape bytes ready]
  -- the offsets that are written
  have covered : ∀ distance, distance < bytes.length →
      buffer.getBlockIndex (offset + distance) = buffer.getBlockIndex offset ∧
        buffer.getInBlockOffset (offset + distance) =
          buffer.getInBlockOffset offset + distance := fun distance short =>
    BlockRing.index_place_add capacity blockSize_pos (Nat.lt_of_lt_of_le short inBlock)
  by_cases written : offset ≤ position ∧ position < offset + bytes.length
  · obtain ⟨distance, rfl⟩ := Nat.exists_eq_add_of_le written.1
    have short : distance < bytes.length := by omega
    obtain ⟨sameIndex, place⟩ := covered distance short
    rw [if_pos sameIndex, Option.map_some, write_eq, place, if_pos (by omega),
      Nat.add_sub_cancel_left, List.getElem?_eq_getElem short, Option.getD_some,
      agrees distance _ (List.getElem?_eq_getElem short)]
  · have before := stored.resolve_left written
    rw [byteAt_eq] at before
    obtain ⟨block, found, same⟩ := Option.map_eq_some_iff.mp before
    split
    · next sameIndex =>
        rw [sameIndex] at found
        rw [Option.map_some, found, Option.getD_some, write_eq, if_neg, same]
        -- at a place that is written, the offset would be one of those written
        rintro ⟨low, high⟩
        obtain ⟨otherIndex, otherPlace⟩ :=
          covered (buffer.getInBlockOffset position - buffer.getInBlockOffset offset) (by omega)
        apply written
        have isWritten : position = offset +
            (buffer.getInBlockOffset position - buffer.getInBlockOffset offset) :=
          BlockRing.eq_of_window positionUnread positionInside (by omega) (by omega)
            (sameIndex.trans otherIndex.symm) (show buffer.getInBlockOffset position = _ by
              rw [← getInBlockOffset_eq, otherPlace]
              omega)
        omega
    · rw [found, Option.map_some, same]

theorem copyLoop_nil (rounds offset : Nat) : copyLoop rounds buffer offset [] = .ok buffer := by
  rw [copyLoop]

theorem copyLoop_succ {rounds offset : Nat} {source : List UInt8} (something : 0 < source.length) :
    copyLoop (rounds + 1) buffer offset source =
      (buffer.copyToBlock offset source >>= fun (copied, buffer) =>
        copyLoop rounds buffer (offset + copied) (source.drop copied)) := by
  cases source with
  | nil => exact absurd something (Nat.lt_irrefl 0)
  | cons byte rest => rw [copyLoop]; exact fun impossible => nomatch impossible

/-- The loop of `CopyStreamData` ends and stores all of its bytes. -/
theorem copyLoop_wrote {rounds : Nat} (shape : Shape buffer) {offset : Nat} {source : List UInt8}
    (agrees : Agrees content offset source) (unread : buffer.totalBytesRead ≤ offset)
    (fits : offset + source.length ≤ buffer.totalBytesRead + buffer.maxBufferCapacityBytes)
    (ready : ∀ position, offset ≤ position → position < offset + source.length →
      buffer.getBlockIndex position < buffer.blocksCount)
    (enough : source.length ≤ rounds) :
    ∃ after, copyLoop rounds buffer offset source = .ok after ∧
      Wrote content (fun position => offset ≤ position ∧ position < offset + source.length)
        buffer after := by
  induction rounds generalizing buffer offset source with
  | zero =>
      obtain rfl : source = [] := List.length_eq_zero_iff.mp (Nat.le_zero.mp enough)
      refine ⟨buffer, copyLoop_nil _ _, (Wrote.refl shape).mono fun position inside => ?_⟩
      rw [List.length_nil] at inside
      omega
  | succ rounds ih =>
      rcases Nat.eq_zero_or_pos source.length with nothing | something
      · obtain rfl : source = [] := List.length_eq_zero_iff.mp nothing
        refine ⟨buffer, copyLoop_nil _ _, (Wrote.refl shape).mono fun position inside => ?_⟩
        omega
      · have inside : offset < buffer.totalBytesRead + buffer.maxBufferCapacityBytes := by omega
        have firstReady := ready offset (Nat.le_refl _) (by omega)
        have leftPos := BlockRing.left_pos shape.capacity_pos blockSize_pos offset
        have available := shape.bytesAvailable_eq inside
        have step := copyToBlock_eq shape source inside firstReady
        generalize copiedEq : min (buffer.bytesAvailable offset) source.length = copied at step
        have copiedLength : (source.take copied).length = copied := by
          rw [List.length_take]
          omega
        have restLength : (source.drop copied).length = source.length - copied := List.length_drop
        have wrote := withWritten_wrote shape (agrees.take copied) unread (by omega) (by omega)
          firstReady
        rw [copiedLength] at wrote
        obtain ⟨after, later, wroteRest⟩ := ih wrote.shape (agrees.drop copied)
          (by rw [wrote.totalBytesRead]; omega)
          (by rw [wrote.totalBytesRead, wrote.capacity]; omega)
          (fun position low high => by
            rw [wrote.getBlockIndex, wrote.blocksCount]
            exact ready position (by omega) (by omega))
          (by omega)
        refine ⟨after, ?_, (wrote.trans wroteRest).mono fun position covered => by omega⟩
        rw [copyLoop_succ something, step]
        exact later

theorem copyStreamData_wrote (shape : Shape buffer) {offset : Nat} {data : List UInt8}
    (agrees : Agrees content offset data) (unread : buffer.totalBytesRead ≤ offset)
    (fits : offset + data.length ≤ buffer.totalBytesRead + buffer.maxBufferCapacityBytes)
    (ready : ∀ position, offset ≤ position → position < offset + data.length →
      buffer.getBlockIndex position < buffer.blocksCount) :
    ∃ after, buffer.copyStreamData offset data = .ok (data.length, after) ∧
      Wrote content (fun position => offset ≤ position ∧ position < offset + data.length)
        buffer after := by
  obtain ⟨after, copied, wrote⟩ :=
    copyLoop_wrote shape agrees unread fits ready (Nat.le_refl data.length)
  refine ⟨after, ?_, wrote⟩
  rw [copyStreamData, copied]
  rfl

theorem copyIntervals_wrote {startingOffset : Nat} {data : List UInt8}
    {intervals : List (QuicInterval Nat)} (shape : Shape buffer)
    (agrees : Agrees content startingOffset data)
    (within : ∀ interval ∈ intervals, startingOffset ≤ interval.min ∧
      interval.min ≤ interval.max ∧ interval.max ≤ startingOffset + data.length)
    (unread : ∀ interval ∈ intervals, buffer.totalBytesRead ≤ interval.min)
    (fits : startingOffset + data.length ≤
      buffer.totalBytesRead + buffer.maxBufferCapacityBytes)
    (ready : ∀ position, startingOffset ≤ position → position < startingOffset + data.length →
      buffer.getBlockIndex position < buffer.blocksCount) :
    ∃ after, copyIntervals startingOffset data intervals buffer =
        .ok (totalLength intervals, after) ∧
      Wrote content (Covers intervals) buffer after := by
  induction intervals generalizing buffer with
  | nil =>
      exact ⟨buffer, rfl, (Wrote.refl shape).mono fun offset covered =>
        not_covers_nil offset covered⟩
  | cons interval rest ih =>
      obtain ⟨⟨low, ordered, high⟩, withinRest⟩ := List.forall_mem_cons.mp within
      obtain ⟨firstUnread, unreadRest⟩ := List.forall_mem_cons.mp unread
      have part : Agrees content interval.min
          ((data.drop (interval.min - startingOffset)).take (interval.max - interval.min)) := by
        have dropped := agrees.drop (interval.min - startingOffset)
        rw [Nat.add_sub_cancel' low] at dropped
        exact dropped.take _
      have partLength : ((data.drop (interval.min - startingOffset)).take
          (interval.max - interval.min)).length = interval.max - interval.min := by
        rw [List.length_take, List.length_drop]
        omega
      obtain ⟨middle, copied, wrote⟩ := copyStreamData_wrote shape part firstUnread (by omega)
        fun position low' high' => ready position (by omega) (by omega)
      rw [partLength] at copied wrote
      obtain ⟨after, later, wroteRest⟩ := ih wrote.shape withinRest
        (by rw [wrote.totalBytesRead]; exact unreadRest)
        (by rw [wrote.totalBytesRead, wrote.capacity]; exact fits)
        (fun position low' high' => by
          rw [wrote.getBlockIndex, wrote.blocksCount]
          exact ready position low' high')
      refine ⟨after, ?_, (wrote.trans wroteRest).mono fun position covered => ?_⟩
      · rw [copyIntervals, copied, bind_ok]
        dsimp only
        rw [later]
        rfl
      · rcases covers_cons.mp covered with first | inRest
        · exact .inl (by omega)
        · exact .inr inRest

/-! ## More blocks -/

/-- The buffer has a pointer for the block of every offset below the end. -/
structure Prepared (buffer after : QuicStreamSequencerBuffer) (end_ : Nat) : Prop where
  frame : after =
    { buffer with blocks := after.blocks, currentBlocksCount := after.currentBlocksCount }
  shape : Shape after
  sameBlocks : ∀ index, after.blockAt index = buffer.blockAt index
  ready : ∀ offset < end_, after.getBlockIndex offset < after.blocksCount

theorem Shape.numOfBlocksNeeded_spec (shape : Shape buffer) {offset lastByte count : Nat}
    (before : offset ≤ lastByte)
    (enough : min (buffer.numOfBlocksNeeded lastByte) buffer.maxBlocksCount ≤ count) :
    buffer.getBlockIndex offset < count := by
  have inRing := shape.getBlockIndex_lt offset
  unfold numOfBlocksNeeded at enough
  split at enough
  · next noWrap =>
      have ordered : buffer.getBlockIndex offset ≤ buffer.getBlockIndex lastByte := by
        rw [QuicStreamSequencerBuffer.getBlockIndex, QuicStreamSequencerBuffer.getBlockIndex,
          Nat.mod_eq_of_lt noWrap, Nat.mod_eq_of_lt (Nat.lt_of_le_of_lt before noWrap)]
        exact Nat.div_le_div_right before
      omega
  · omega

theorem Shape.array_of_current (shape : Shape buffer)
    (onDemand : buffer.allocateBlocksOnDemand = true) :
    (buffer.blocks.getD []).length = buffer.currentBlocksCount := by
  cases found : buffer.blocks with
  | none => rw [shape.no_array onDemand found]; rfl
  | some array =>
      rw [Option.getD_some, shape.array_length array found, blocksCount, if_pos onDemand]

theorem blockAt_extended {current more : Nat} (index : Nat) :
    ({ buffer with
      blocks := some (buffer.blocks.getD [] ++ List.replicate more none)
      currentBlocksCount := current } : QuicStreamSequencerBuffer).blockAt index =
      buffer.blockAt index := by
  have old : buffer.blockAt index = ((buffer.blocks.getD [])[index]?).join := by
    rw [blockAt, slot]
    cases buffer.blocks <;> rfl
  rw [old, blockAt, slot, Option.bind_some, List.getElem?_append]
  split
  · rfl
  · next outside =>
      rw [List.getElem?_eq_none (Nat.not_lt.mp outside), List.getElem?_replicate]
      split <;> rfl

theorem maybeAddMoreBlocks_prepared (shape : Shape buffer)
    (onDemand : buffer.allocateBlocksOnDemand = true) {end_ : Nat} (positive : 0 < end_) :
    Prepared buffer (buffer.maybeAddMoreBlocks end_) end_ := by
  have count : buffer.blocksCount = buffer.currentBlocksCount := by
    rw [blocksCount, if_pos onDemand]
  unfold maybeAddMoreBlocks
  split
  · next full =>
      refine ⟨rfl, shape, fun _ => rfl, fun offset _ => ?_⟩
      rw [count, full]
      exact shape.getBlockIndex_lt offset
  · dsimp only
    split
    · next enough =>
        refine ⟨rfl, shape, fun _ => rfl, fun offset below => ?_⟩
        rw [count]
        exact shape.numOfBlocksNeeded_spec (show offset ≤ end_ - 1 by omega) (by omega)
    · next tooFew =>
        have currentLe := shape.current_le
        have oldLength := shape.array_of_current onDemand
        rw [List.take_of_length_le oldLength.le]
        refine ⟨rfl, ⟨shape.capacity_pos, shape.capacity_le, shape.blocks_count,
          Nat.min_le_right _ _, fun array found => ?_, fun _ nothing => nomatch nothing⟩,
          fun index => ?_, fun offset below => ?_⟩
        · rw [← Option.some.inj found, List.length_append, List.length_replicate, oldLength,
            blocksCount, if_pos onDemand]
          dsimp only
          omega
        · exact blockAt_extended index
        · rw [blocksCount, if_pos onDemand]
          apply shape.numOfBlocksNeeded_spec (show offset ≤ end_ - 1 by omega)
          dsimp only
          omega

/-! ## The invariant -/

def unread (buffer : QuicStreamSequencerBuffer) : Finset Nat :=
  (offsets buffer.bytesReceived.intervals).filter fun offset => buffer.totalBytesRead ≤ offset

theorem mem_unread {offset : Nat} :
    offset ∈ buffer.unread ↔ offset ∈ buffer.bytesReceived ∧ buffer.totalBytesRead ≤ offset := by
  rw [unread, Finset.mem_filter, mem_offsets]
  rfl

/-- Every received byte that was not read is in the buffer. -/
structure Holds (content : Nat → UInt8) (buffer : QuicStreamSequencerBuffer) : Prop where
  shape : Shape buffer
  read : ∀ offset < buffer.totalBytesRead, offset ∈ buffer.bytesReceived
  within : ∀ offset ∈ buffer.bytesReceived,
    offset < buffer.totalBytesRead + buffer.maxBufferCapacityBytes
  short : ∀ offset ∈ buffer.bytesReceived, offset < Session.kMaxStreamLength
  stored : ∀ offset ∈ buffer.bytesReceived, buffer.totalBytesRead ≤ offset →
    buffer.byteAt offset = some (content offset)
  buffered : buffer.numBytesBuffered = buffer.unread.card

theorem Holds.totalBytesRead_le (holds : Holds content buffer) :
    buffer.totalBytesRead ≤ Session.kMaxStreamLength := by
  by_contra longer
  exact absurd (holds.short _ (holds.read Session.kMaxStreamLength (by omega))) (lt_irrefl _)

/-- The buffer after a successful call of `OnStreamData`. -/
structure Took (buffer after : QuicStreamSequencerBuffer) (interval : QuicInterval Nat) : Prop where
  totalBytesRead : after.totalBytesRead = buffer.totalBytesRead
  capacity : after.maxBufferCapacityBytes = buffer.maxBufferCapacityBytes
  received : ∀ offset, offset ∈ after.bytesReceived ↔
    offset ∈ buffer.bytesReceived ∨ (interval.min ≤ offset ∧ offset < interval.max)
  few : after.bytesReceived = buffer.bytesReceived ∨
    after.bytesReceived.size < kMaxNumDataIntervalsAllowed

theorem Took.bytesReceived {interval : QuicInterval Nat} (took : Took buffer after interval) :
    after.bytesReceived = buffer.bytesReceived.add interval :=
  QuicIntervalSet.ext_mem fun offset => by rw [took.received, QuicIntervalSet.mem_add]

theorem Prepared.byteAt {end_ : Nat} (prepared : Prepared buffer after end_) (offset : Nat) :
    after.byteAt offset = buffer.byteAt offset := by
  have sameIndex : after.getBlockIndex offset = buffer.getBlockIndex offset := by
    rw [prepared.frame]
    rfl
  have samePlace : after.getInBlockOffset offset = buffer.getInBlockOffset offset := by
    rw [prepared.frame]
    rfl
  rw [byteAt_eq, byteAt_eq, sameIndex, samePlace, prepared.sameBlocks]

theorem Prepared.holds {end_ : Nat} (prepared : Prepared buffer after end_)
    (holds : Holds content buffer) : Holds content after := by
  have sameRead : after.totalBytesRead = buffer.totalBytesRead := by rw [prepared.frame]
  have sameReceived : after.bytesReceived = buffer.bytesReceived := by rw [prepared.frame]
  have sameCapacity : after.maxBufferCapacityBytes = buffer.maxBufferCapacityBytes := by
    rw [prepared.frame]
  have sameCount : after.numBytesBuffered = buffer.numBytesBuffered := by rw [prepared.frame]
  constructor
  · exact prepared.shape
  · rw [sameRead, sameReceived]
    exact holds.read
  · rw [sameRead, sameReceived, sameCapacity]
    exact holds.within
  · rw [sameReceived]
    exact holds.short
  · rw [sameRead, sameReceived]
    intro offset received notRead
    rw [prepared.byteAt]
    exact holds.stored offset received notRead
  · rw [sameCount, holds.buffered, unread, unread, sameRead, sameReceived]

theorem Holds.card_unread (holds : Holds content buffer) {interval : QuicInterval Nat}
    {newly : List (QuicInterval Nat)} (valid : Valid newly)
    (isNew : ∀ offset, Covers newly offset ↔
      (interval.min ≤ offset ∧ offset < interval.max) ∧ offset ∉ buffer.bytesReceived)
    (took : Took buffer after interval) :
    after.unread.card = buffer.unread.card + totalLength newly := by
  have apart : Disjoint buffer.unread (offsets newly) := by
    rw [Finset.disjoint_left]
    intro offset wasUnread inNewly
    exact ((isNew offset).mp (mem_offsets.mp inNewly)).2 (mem_unread.mp wasUnread).1
  have together : after.unread = buffer.unread ∪ offsets newly := by
    ext offset
    rw [mem_unread, Finset.mem_union, mem_unread, mem_offsets, isNew, took.received,
      took.totalBytesRead]
    have unreadIfNew : offset ∉ buffer.bytesReceived → buffer.totalBytesRead ≤ offset :=
      fun notReceived => by
        by_contra wasRead
        exact notReceived (holds.read offset (Nat.not_le.mp wasRead))
    tauto
  rw [together, Finset.card_union_of_disjoint apart, card_offsets valid]

theorem Holds.store (holds : Holds content buffer) {interval : QuicInterval Nat}
    {newly : List (QuicInterval Nat)} (valid : Valid newly)
    (isNew : ∀ offset, Covers newly offset ↔
      (interval.min ≤ offset ∧ offset < interval.max) ∧ offset ∉ buffer.bytesReceived)
    (fits : interval.max ≤ buffer.totalBytesRead + buffer.maxBufferCapacityBytes)
    (short : interval.max ≤ Session.kMaxStreamLength)
    (few : ¬ kMaxNumDataIntervalsAllowed ≤ (buffer.bytesReceived.add interval).size)
    (wrote : Wrote content (Covers newly)
      { buffer with bytesReceived := buffer.bytesReceived.add interval } after) :
    Holds content { after with numBytesBuffered := after.numBytesBuffered + totalLength newly } ∧
      Took buffer { after with numBytesBuffered := after.numBytesBuffered + totalLength newly }
        interval := by
  have sameRead : after.totalBytesRead = buffer.totalBytesRead := wrote.totalBytesRead
  have sameCapacity : after.maxBufferCapacityBytes = buffer.maxBufferCapacityBytes :=
    wrote.capacity
  have sameCount : after.numBytesBuffered = buffer.numBytesBuffered := by rw [wrote.frame]
  have received : ∀ offset, offset ∈ after.bytesReceived ↔
      offset ∈ buffer.bytesReceived ∨ (interval.min ≤ offset ∧ offset < interval.max) := by
    intro offset
    rw [wrote.frame]
    exact QuicIntervalSet.mem_add
  have took : Took buffer
      { after with numBytesBuffered := after.numBytesBuffered + totalLength newly } interval :=
    ⟨sameRead, sameCapacity, received, .inr (by rw [wrote.frame]; exact Nat.not_le.mp few)⟩
  have within : ∀ offset ∈ after.bytesReceived,
      offset < buffer.totalBytesRead + buffer.maxBufferCapacityBytes := by
    intro offset inReceived
    rcases (received offset).mp inReceived with before | inInterval
    · exact holds.within offset before
    · omega
  refine ⟨⟨wrote.shape.withCounts _ _ _, ?_, ?_, ?_, ?_, ?_⟩, took⟩
  · intro offset wasRead
    rw [received]
    exact .inl (holds.read offset (sameRead ▸ wasRead))
  · intro offset inReceived
    show offset < after.totalBytesRead + after.maxBufferCapacityBytes
    rw [sameRead, sameCapacity]
    exact within offset inReceived
  · intro offset inReceived
    rcases (received offset).mp inReceived with before | inInterval
    · exact holds.short offset before
    · omega
  · intro offset inReceived notRead
    rw [show QuicStreamSequencerBuffer.totalBytesRead _ = buffer.totalBytesRead from sameRead]
      at notRead
    apply wrote.stored offset notRead (within offset inReceived)
    by_cases before : offset ∈ buffer.bytesReceived
    · exact .inr (holds.stored offset before notRead)
    · have inInterval := ((received offset).mp inReceived).resolve_left before
      exact .inl ((isNew offset).mpr ⟨inInterval, before⟩)
  · show after.numBytesBuffered + totalLength newly = _
    rw [holds.card_unread valid isNew took, sameCount, holds.buffered]

theorem allNew_disjoint {interval : QuicInterval Nat} (isNew : buffer.allNew interval = true)
    {offset : Nat} (low : interval.min ≤ offset) (high : offset < interval.max) :
    offset ∉ buffer.bytesReceived := by
  unfold allNew at isNew
  split at isNew
  · next nothing =>
      rw [List.getLast?_eq_none_iff] at nothing
      rw [QuicIntervalSet.mem_iff, nothing]
      exact not_covers_nil offset
  · next last found =>
      rw [Bool.or_eq_true, decide_eq_true_iff] at isNew
      rcases isNew with after | disjoint
      · intro membership
        exact absurd (QuicIntervalSet.lt_of_getLast? found membership)
          (Nat.not_lt.mpr (after.trans low))
      · exact QuicIntervalSet.isDisjoint_iff.mp disjoint offset low high

theorem Holds.beyondRange_iff (holds : Holds content buffer) {startingOffset size : Nat}
    (offsetFits : startingOffset < 2 ^ 64) (sizeFits : size < 2 ^ 64) :
    buffer.beyondRange startingOffset size = true ↔
      buffer.totalBytesRead + buffer.maxBufferCapacityBytes < startingOffset + size := by
  have readLe := holds.totalBytesRead_le
  have capacityLe := holds.shape.capacity_le
  have limit : Session.kMaxStreamLength = 2 ^ 62 - 1 := rfl
  rw [beyondRange, Bool.or_eq_true, decide_eq_true_iff, decide_eq_true_iff]
  omega

def frameInterval (startingOffset : Nat) (data : List UInt8) : QuicInterval Nat :=
  ⟨startingOffset, startingOffset + data.length⟩

section Frames

variable {startingOffset : Nat} {data : List UInt8}

theorem onNewData_spec (holds : Holds content buffer) (agrees : Agrees content startingOffset data)
    (something : 0 < data.length)
    (fits : startingOffset + data.length ≤
      buffer.totalBytesRead + buffer.maxBufferCapacityBytes)
    (short : startingOffset + data.length ≤ Session.kMaxStreamLength)
    (ready : ∀ offset < startingOffset + data.length,
      buffer.getBlockIndex offset < buffer.blocksCount)
    (isNew : buffer.allNew (frameInterval startingOffset data) = true) :
    (kMaxNumDataIntervalsAllowed ≤
        (buffer.bytesReceived.add (frameInterval startingOffset data)).size ∧
      ∃ after, buffer.onNewData startingOffset data = .ok (tooManyIntervals, after)) ∨
    ∃ after, buffer.onNewData startingOffset data = .ok (⟨.noError, data.length, ""⟩, after) ∧
      Holds content after ∧ Took buffer after (frameInterval startingOffset data) := by
  have notRead : buffer.totalBytesRead ≤ startingOffset := by
    by_contra wasRead
    exact allNew_disjoint isNew (show startingOffset ≤ startingOffset from Nat.le_refl _)
      (show startingOffset < startingOffset + data.length by omega)
      (holds.read startingOffset (Nat.not_le.mp wasRead))
  unfold onNewData
  dsimp only
  rw [QuicIntervalSet.addOptimizedForAppend_eq]
  split
  · next tooMany => exact .inl ⟨tooMany, _, rfl⟩
  next few =>
    right
    obtain ⟨after, copied, wrote⟩ := @copyStreamData_wrote
      { buffer with bytesReceived := buffer.bytesReceived.add (frameInterval startingOffset data) }
      content (holds.shape.withCounts _ _ _) startingOffset data agrees notRead fits
      fun offset _ below => ready offset below
    have whole : Wrote content (Covers [frameInterval startingOffset data])
        { buffer with
          bytesReceived := buffer.bytesReceived.add (frameInterval startingOffset data) } after :=
      wrote.mono fun offset covered => by simpa [frameInterval] using covered
    have length : totalLength [frameInterval startingOffset data] = data.length := by
      simp [totalLength, frameInterval]
    have valid : Valid [frameInterval startingOffset data] :=
      valid_cons.mpr ⟨show startingOffset < startingOffset + data.length by omega,
        fun _ membership => absurd membership List.not_mem_nil, valid_nil⟩
    have stored := holds.store valid (fun offset => by
      rw [covers_cons, or_iff_left (not_covers_nil offset)]
      exact (and_iff_left_of_imp fun inside => allNew_disjoint isNew inside.1 inside.2).symm)
      fits short few whole
    rw [length] at stored
    refine ⟨_, ?_, stored⟩
    rw [frameInterval] at copied
    rw [copied]
    rfl

theorem onOverlappingData_spec (holds : Holds content buffer)
    (agrees : Agrees content startingOffset data)
    (fits : startingOffset + data.length ≤
      buffer.totalBytesRead + buffer.maxBufferCapacityBytes)
    (short : startingOffset + data.length ≤ Session.kMaxStreamLength)
    (ready : ∀ offset < startingOffset + data.length,
      buffer.getBlockIndex offset < buffer.blocksCount) :
    (kMaxNumDataIntervalsAllowed ≤
        (buffer.bytesReceived.add (frameInterval startingOffset data)).size ∧
      ∃ after, buffer.onOverlappingData startingOffset data = .ok (tooManyIntervals, after)) ∨
    ∃ count after, buffer.onOverlappingData startingOffset data =
        .ok (⟨.noError, count, ""⟩, after) ∧
      Holds content after ∧ Took buffer after (frameInterval startingOffset data) := by
  unfold onOverlappingData
  dsimp only
  rw [show (⟨startingOffset, startingOffset + data.length⟩ : QuicInterval Nat) =
    frameInterval startingOffset data from rfl]
  generalize newlyEq : (QuicIntervalSet.ofInterval (frameInterval startingOffset data)).difference
    buffer.bytesReceived = newly
  have isNew : ∀ offset, offset ∈ newly ↔
      (startingOffset ≤ offset ∧ offset < startingOffset + data.length) ∧
        offset ∉ buffer.bytesReceived := by
    intro offset
    rw [← newlyEq, QuicIntervalSet.mem_difference, QuicIntervalSet.mem_ofInterval]
    rfl
  split
  · next nothing =>
      refine .inr ⟨0, buffer, rfl, holds, rfl, rfl,
        fun offset => (or_iff_left_of_imp ?_).symm, .inl rfl⟩
      intro inside
      by_contra missing
      exact QuicIntervalSet.isEmpty_iff.mp nothing offset ((isNew offset).mpr ⟨inside, missing⟩)
  · split
    · next tooMany => exact .inl ⟨tooMany, _, rfl⟩
    next few =>
      right
      have nonempty := newly.valid.nonempty
      have within : ∀ interval ∈ newly.intervals, startingOffset ≤ interval.min ∧
          interval.min ≤ interval.max ∧ interval.max ≤ startingOffset + data.length := by
        intro interval membership
        have ordered := nonempty interval membership
        have first := (isNew interval.min).mp ⟨interval, membership, le_refl _, ordered⟩
        have last := (isNew (interval.max - 1)).mp ⟨interval, membership, by omega, by omega⟩
        omega
      have notRead : ∀ interval ∈ newly.intervals, buffer.totalBytesRead ≤ interval.min := by
        intro interval membership
        have first := (isNew interval.min).mp
          ⟨interval, membership, le_refl _, nonempty interval membership⟩
        by_contra wasRead
        exact first.2 (holds.read interval.min (Nat.not_le.mp wasRead))
      obtain ⟨after, copied, wrote⟩ := @copyIntervals_wrote
        { buffer with
          bytesReceived := buffer.bytesReceived.add (frameInterval startingOffset data) }
        content startingOffset data newly.intervals (holds.shape.withCounts _ _ _)
        agrees within notRead fits fun offset _ below => ready offset below
      refine ⟨totalLength newly.intervals, _, ?_,
        holds.store newly.valid isNew fits short few wrote⟩
      rw [copied]
      rfl

theorem frame_ready (shape : Shape buffer) (something : 0 < data.length) :
    Prepared buffer
      (if buffer.allocateBlocksOnDemand then
        buffer.maybeAddMoreBlocks (startingOffset + data.length)
      else buffer) (startingOffset + data.length) := by
  split
  · next onDemand => exact maybeAddMoreBlocks_prepared shape onDemand (by omega)
  · next notOnDemand =>
      refine ⟨rfl, shape, fun _ => rfl, fun offset _ => ?_⟩
      rw [blocksCount, if_neg notOnDemand]
      exact shape.getBlockIndex_lt offset

/-- A frame of the stream is refused without effect, finds too many intervals, or
is taken; nothing else happens. -/
theorem onStreamData_spec (holds : Holds content buffer)
    (agrees : Agrees content startingOffset data)
    (short : startingOffset + data.length ≤ Session.kMaxStreamLength) :
    (data = [] ∧ buffer.onStreamData startingOffset data =
      .ok (⟨.emptyStreamFrameNoFin, 0, "Received empty stream frame without FIN."⟩, buffer)) ∨
    (data ≠ [] ∧
      buffer.totalBytesRead + buffer.maxBufferCapacityBytes < startingOffset + data.length ∧
      buffer.onStreamData startingOffset data =
        .ok (⟨.internalError, 0, "Received data beyond available range."⟩, buffer)) ∨
    (data ≠ [] ∧ startingOffset + data.length ≤
        buffer.totalBytesRead + buffer.maxBufferCapacityBytes ∧
      kMaxNumDataIntervalsAllowed ≤
        (buffer.bytesReceived.add (frameInterval startingOffset data)).size ∧
      ∃ after, buffer.onStreamData startingOffset data = .ok (tooManyIntervals, after)) ∨
    (data ≠ [] ∧ startingOffset + data.length ≤
        buffer.totalBytesRead + buffer.maxBufferCapacityBytes ∧
      ∃ count after, buffer.onStreamData startingOffset data =
          .ok (⟨.noError, count, ""⟩, after) ∧
        Holds content after ∧ Took buffer after (frameInterval startingOffset data)) := by
  have limit : Session.kMaxStreamLength < 2 ^ 64 := by decide
  unfold onStreamData
  split
  · next empty => exact .inl ⟨List.isEmpty_iff.mp empty, rfl⟩
  · next notEmpty =>
      have nonempty : data ≠ [] := fun empty => notEmpty (List.isEmpty_iff.mpr empty)
      have something : 0 < data.length := List.length_pos_iff.mpr nonempty
      have range := @Holds.beyondRange_iff _ _ holds startingOffset data.length (by omega)
        (by omega)
      split
      · next beyond => exact .inr (.inl ⟨nonempty, range.mp beyond, rfl⟩)
      · next inRange =>
          have fits := Nat.not_lt.mp (fun beyond => inRange (range.mpr beyond))
          have prepared := @frame_ready buffer startingOffset data holds.shape something
          dsimp only
          generalize (if buffer.allocateBlocksOnDemand then
            buffer.maybeAddMoreBlocks (startingOffset + data.length) else buffer) = ready
            at prepared ⊢
          have readyHolds := prepared.holds holds
          have sameRead : ready.totalBytesRead = buffer.totalBytesRead := by rw [prepared.frame]
          have sameCapacity : ready.maxBufferCapacityBytes = buffer.maxBufferCapacityBytes := by
            rw [prepared.frame]
          have sameReceived : ready.bytesReceived = buffer.bytesReceived := by rw [prepared.frame]
          have tookSame : ∀ {after interval}, Took ready after interval →
              Took buffer after interval := fun took =>
            ⟨took.totalBytesRead.trans sameRead, took.capacity.trans sameCapacity,
              fun offset => by rw [took.received, sameReceived], sameReceived ▸ took.few⟩
          rw [← sameRead, ← sameCapacity] at fits
          rw [← sameRead, ← sameCapacity, ← sameReceived]
          right
          right
          split
          · next isNew =>
              rcases onNewData_spec readyHolds agrees something fits short prepared.ready isNew with
                tooMany | ⟨after, result, afterHolds, took⟩
              · exact .inl ⟨nonempty, fits, tooMany⟩
              · exact .inr ⟨nonempty, fits, _, after, result, afterHolds, tookSame took⟩
          · rcases onOverlappingData_spec readyHolds agrees fits short prepared.ready with
              tooMany | ⟨count, after, result, afterHolds, took⟩
            · exact .inl ⟨nonempty, fits, tooMany⟩
            · exact .inr ⟨nonempty, fits, count, after, result, afterHolds, tookSame took⟩

end Frames

end QuicStreamSequencerBuffer

end Ns3Quic.Stream
