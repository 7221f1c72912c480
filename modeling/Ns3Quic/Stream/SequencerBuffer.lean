import Ns3Quic.Lib.Fold
import Ns3Quic.Lib.BlockRing
import Ns3Quic.Stream.QuicIntervalSet

/-!
# The buffer in which a stream is put together

`QuicStreamSequencerBuffer` takes the frames of a stream in any order, keeps
their bytes in a ring of blocks and hands them out in order.  Blocks are made
when a byte is written to them and deleted when the reader has passed them.

The array of blocks may be missing (`nullptr`), and so may each block.  To follow
a missing pointer and to leave the bounds of an array is a fault; so is an
error that the source itself reports as an invalid state.  Offsets are natural
numbers; the only sum that can exceed 64 bits is checked by the source.
-/

namespace Ns3Quic.Stream

open LoopRules

def kBlockSizeBytes : Nat := 8 * 1024

def kMaxPacketGap : Nat := 5000

def kMaxNumDataIntervalsAllowed : Nat := 2 * kMaxPacketGap

def kInitialBlockCount : Nat := 8

def kBlocksGrowthFactor : Nat := 4

def calculateBlockCount (maxCapacityBytes : Nat) : Nat :=
  (maxCapacityBytes + kBlockSizeBytes - 1) / kBlockSizeBytes

inductive QuicErrorCode where
  | noError
  | emptyStreamFrameNoFin
  | internalError
  | tooManyStreamDataIntervals
  deriving DecidableEq, Repr

/-- What must not happen. -/
inductive BufferFault where
  /-- A null pointer is followed, or an access leaves its array. -/
  | invalidAccess
  /-- A loop makes no progress. -/
  | endlessLoop
  /-- `QUIC_STREAM_SEQUENCER_INVALID_STATE` with its details. -/
  | invalidState (details : String)
  deriving DecidableEq, Repr

structure BufferBlock where
  buffer : Nat → UInt8

namespace BufferBlock

def fresh : BufferBlock := ⟨fun _ => 0⟩

def write (block : BufferBlock) (place : Nat) (source : List UInt8) : BufferBlock where
  buffer position :=
    if place ≤ position then source[position - place]?.getD (block.buffer position)
    else block.buffer position

def read (block : BufferBlock) (place count : Nat) : List UInt8 :=
  (List.range count).map fun distance => block.buffer (place + distance)

end BufferBlock

structure QuicStreamSequencerBuffer where
  maxBufferCapacityBytes : Nat
  maxBlocksCount : Nat
  currentBlocksCount : Nat
  totalBytesRead : Nat
  allocateBlocksOnDemand : Bool
  blocks : Option (List (Option BufferBlock))
  numBytesBuffered : Nat
  bytesReceived : QuicIntervalSet Nat

structure StreamDataResult where
  error : QuicErrorCode
  bytesBuffered : Nat
  errorDetails : String
  deriving DecidableEq, Repr

namespace QuicStreamSequencerBuffer

/-! ## Places -/

def getBlockIndex (buffer : QuicStreamSequencerBuffer) (offset : Nat) : Nat :=
  offset % buffer.maxBufferCapacityBytes / kBlockSizeBytes

def getInBlockOffset (buffer : QuicStreamSequencerBuffer) (offset : Nat) : Nat :=
  offset % buffer.maxBufferCapacityBytes % kBlockSizeBytes

def getBlockCapacity (buffer : QuicStreamSequencerBuffer) (blockIndex : Nat) : Nat :=
  if blockIndex + 1 = buffer.maxBlocksCount then
    if buffer.maxBufferCapacityBytes % kBlockSizeBytes = 0 then kBlockSizeBytes
    else buffer.maxBufferCapacityBytes % kBlockSizeBytes
  else kBlockSizeBytes

def readOffset (buffer : QuicStreamSequencerBuffer) : Nat :=
  buffer.getInBlockOffset buffer.totalBytesRead

def nextBlockToRead (buffer : QuicStreamSequencerBuffer) : Nat :=
  buffer.getBlockIndex buffer.totalBytesRead

def firstMissingByte (buffer : QuicStreamSequencerBuffer) : Nat :=
  match buffer.bytesReceived.intervals.head? with
  | none => 0
  | some first => if 0 < first.min then 0 else first.max

def nextExpectedByte (buffer : QuicStreamSequencerBuffer) : Nat :=
  match buffer.bytesReceived.intervals.getLast? with
  | none => 0
  | some last => last.max

def readableBytes (buffer : QuicStreamSequencerBuffer) : Nat :=
  buffer.firstMissingByte - buffer.totalBytesRead

def isEmpty (buffer : QuicStreamSequencerBuffer) : Bool :=
  match buffer.bytesReceived.intervals with
  | [] => true
  | [only] => 0 < buffer.totalBytesRead && only.max = buffer.totalBytesRead
  | _ => false

/-! ## The array of blocks -/

/-- The length of the array if there is one: `blocks_to_clear` of `Clear` and
`current_blocks_count` of `CopyStreamData`. -/
def blocksCount (buffer : QuicStreamSequencerBuffer) : Nat :=
  if buffer.allocateBlocksOnDemand then buffer.currentBlocksCount else buffer.maxBlocksCount

/-- `blocks_[index]`, unless that is an invalid access. -/
def slot (buffer : QuicStreamSequencerBuffer) (index : Nat) : Option (Option BufferBlock) :=
  buffer.blocks.bind fun array => array[index]?

def setSlot (buffer : QuicStreamSequencerBuffer) (index : Nat) (block : Option BufferBlock) :
    QuicStreamSequencerBuffer :=
  { buffer with blocks := buffer.blocks.map fun array => array.set index block }

def byteAt (buffer : QuicStreamSequencerBuffer) (offset : Nat) : Option UInt8 :=
  (buffer.slot (buffer.getBlockIndex offset)).join.map fun block =>
    block.buffer (buffer.getInBlockOffset offset)

/-- `RetireBlock`; false if the block has been retired before. -/
def retireBlock (buffer : QuicStreamSequencerBuffer) (index : Nat) :
    Except BufferFault (Bool × QuicStreamSequencerBuffer) :=
  match buffer.slot index with
  | none => .error .invalidAccess
  | some none => .ok (false, buffer)
  | some (some _) => .ok (true, buffer.setSlot index none)

def clear (buffer : QuicStreamSequencerBuffer) : QuicStreamSequencerBuffer :=
  { buffer with
    blocks := buffer.blocks.map fun array =>
      (array.take buffer.blocksCount).map (fun _ => none) ++ array.drop buffer.blocksCount
    numBytesBuffered := 0
    bytesReceived := .ofInterval ⟨0, buffer.totalBytesRead⟩ }

def new (maxCapacityBytes : Nat) (allocateBlocksOnDemand : Bool) : QuicStreamSequencerBuffer :=
  clear
    { maxBufferCapacityBytes := maxCapacityBytes
      maxBlocksCount := calculateBlockCount maxCapacityBytes
      currentBlocksCount := 0
      totalBytesRead := 0
      allocateBlocksOnDemand
      blocks := none
      numBytesBuffered := 0
      bytesReceived := ∅ }

def numOfBlocksNeeded (buffer : QuicStreamSequencerBuffer) (lastByte : Nat) : Nat :=
  if lastByte < buffer.maxBufferCapacityBytes then
    max (buffer.getBlockIndex lastByte + 1) kInitialBlockCount
  else buffer.maxBlocksCount

def maybeAddMoreBlocks (buffer : QuicStreamSequencerBuffer) (nextExpectedByte : Nat) :
    QuicStreamSequencerBuffer :=
  if buffer.currentBlocksCount = buffer.maxBlocksCount then buffer
  else
    let needed := buffer.numOfBlocksNeeded (nextExpectedByte - 1)
    if needed ≤ buffer.currentBlocksCount then buffer
    else
      let newBlockCount :=
        min (max (kBlocksGrowthFactor * buffer.currentBlocksCount) needed) buffer.maxBlocksCount
      { buffer with
        blocks := some ((buffer.blocks.getD []).take buffer.currentBlocksCount ++
          List.replicate (newBlockCount - buffer.currentBlocksCount) none)
        currentBlocksCount := newBlockCount }

/-! ## Writing -/

/-- The array that is made with the first write if blocks are not added on
demand. -/
def allocateBlocks (buffer : QuicStreamSequencerBuffer) : QuicStreamSequencerBuffer :=
  if !buffer.allocateBlocksOnDemand && buffer.blocks.isNone then
    { buffer with blocks := some (List.replicate buffer.maxBlocksCount none) }
  else buffer

/-- The number of bytes that can be written from the offset on: up to the end of
the block, and no further than the end of the buffer. -/
def bytesAvailable (buffer : QuicStreamSequencerBuffer) (offset : Nat) : Nat :=
  let inBlock :=
    buffer.getBlockCapacity (buffer.getBlockIndex offset) - buffer.getInBlockOffset offset
  if buffer.totalBytesRead + buffer.maxBufferCapacityBytes < offset + inBlock then
    buffer.totalBytesRead + buffer.maxBufferCapacityBytes - offset
  else inBlock

def exceedsArrayBounds (offset writeBlockNum currentBlocksCount : Nat) : String :=
  "QuicStreamSequencerBuffer error: OnStreamData() exceed array bounds." ++
    "write offset = " ++ toString offset ++ " write_block_num = " ++ toString writeBlockNum ++
    " current_blocks_count_ = " ++ toString currentBlocksCount

/-- One round of `CopyStreamData`: write to one block. -/
def copyToBlock (buffer : QuicStreamSequencerBuffer) (offset : Nat) (source : List UInt8) :
    Except BufferFault (Nat × QuicStreamSequencerBuffer) :=
  let writeBlockNum := buffer.getBlockIndex offset
  let writeBlockOffset := buffer.getInBlockOffset offset
  let bytesToCopy := min (buffer.bytesAvailable offset) source.length
  let buffer := buffer.allocateBlocks
  if buffer.blocksCount ≤ writeBlockNum then
    .error (.invalidState (exceedsArrayBounds offset writeBlockNum buffer.blocksCount))
  else if buffer.blocks.isNone then
    .error (.invalidState "QuicStreamSequencerBuffer error: OnStreamData() blocks_ is null")
  else
    match buffer.slot writeBlockNum with
    | none => .error .invalidAccess
    | some block =>
        if kBlockSizeBytes < writeBlockOffset + bytesToCopy then .error .invalidAccess
        else
          let written := (block.getD .fresh).write writeBlockOffset (source.take bytesToCopy)
          .ok (bytesToCopy, buffer.setSlot writeBlockNum (some written))

/-- The loop of `CopyStreamData`.  A round that copies nothing would be repeated
for ever; `rounds` is at least the number of bytes. -/
def copyLoop : Nat → QuicStreamSequencerBuffer → Nat → List UInt8 →
    Except BufferFault QuicStreamSequencerBuffer
  | _, buffer, _, [] => .ok buffer
  | 0, _, _, _ :: _ => .error .endlessLoop
  | rounds + 1, buffer, offset, source => do
      let (copied, buffer) ← buffer.copyToBlock offset source
      copyLoop rounds buffer (offset + copied) (source.drop copied)

/-- `CopyStreamData`, with the number of bytes that it copies. -/
def copyStreamData (buffer : QuicStreamSequencerBuffer) (offset : Nat) (data : List UInt8) :
    Except BufferFault (Nat × QuicStreamSequencerBuffer) := do
  let buffer ← copyLoop data.length buffer offset data
  return (data.length, buffer)

/-- The loop of `OnStreamData` over the intervals that are new. -/
def copyIntervals (startingOffset : Nat) (data : List UInt8) :
    List (QuicInterval Nat) → QuicStreamSequencerBuffer →
      Except BufferFault (Nat × QuicStreamSequencerBuffer)
  | [], buffer => .ok (0, buffer)
  | interval :: rest, buffer => do
      let (copied, buffer) ← buffer.copyStreamData interval.min
        ((data.drop (interval.min - startingOffset)).take (interval.max - interval.min))
      let (more, buffer) ← copyIntervals startingOffset data rest buffer
      return (copied + more, buffer)

def tooManyIntervals : StreamDataResult :=
  ⟨.tooManyStreamDataIntervals, 0, "Too many data intervals received for this stream."⟩

/-- The range check of `OnStreamData`, in 64-bit numbers. -/
def beyondRange (buffer : QuicStreamSequencerBuffer) (startingOffset size : Nat) : Bool :=
  let sum := (startingOffset + size) % 2 ^ 64
  (buffer.totalBytesRead + buffer.maxBufferCapacityBytes) % 2 ^ 64 < sum || sum < startingOffset

/-- The condition of the shortcut in `OnStreamData`: all of the data is new. -/
def allNew (buffer : QuicStreamSequencerBuffer) (interval : QuicInterval Nat) : Bool :=
  match buffer.bytesReceived.intervals.getLast? with
  | none => true
  | some last => last.max ≤ interval.min || buffer.bytesReceived.isDisjoint interval

/-- The shortcut of `OnStreamData`. -/
def onNewData (buffer : QuicStreamSequencerBuffer) (startingOffset : Nat) (data : List UInt8) :
    Except BufferFault (StreamDataResult × QuicStreamSequencerBuffer) := do
  let interval := ⟨startingOffset, startingOffset + data.length⟩
  let buffer :=
    { buffer with bytesReceived := buffer.bytesReceived.addOptimizedForAppend interval }
  if kMaxNumDataIntervalsAllowed ≤ buffer.bytesReceived.size then
    return (tooManyIntervals, buffer)
  let (copied, buffer) ← buffer.copyStreamData startingOffset data
  return (⟨.noError, copied, ""⟩,
    { buffer with numBytesBuffered := buffer.numBytesBuffered + copied })

/-- The slow path of `OnStreamData`: some of the data was received before. -/
def onOverlappingData (buffer : QuicStreamSequencerBuffer) (startingOffset : Nat)
    (data : List UInt8) : Except BufferFault (StreamDataResult × QuicStreamSequencerBuffer) := do
  let interval := ⟨startingOffset, startingOffset + data.length⟩
  let newlyReceived := (QuicIntervalSet.ofInterval interval).difference buffer.bytesReceived
  if newlyReceived.isEmpty then
    return (⟨.noError, 0, ""⟩, buffer)
  let buffer := { buffer with bytesReceived := buffer.bytesReceived.add interval }
  if kMaxNumDataIntervalsAllowed ≤ buffer.bytesReceived.size then
    return (tooManyIntervals, buffer)
  let (copied, buffer) ← copyIntervals startingOffset data newlyReceived.intervals buffer
  return (⟨.noError, copied, ""⟩,
    { buffer with numBytesBuffered := buffer.numBytesBuffered + copied })

def onStreamData (buffer : QuicStreamSequencerBuffer) (startingOffset : Nat) (data : List UInt8) :
    Except BufferFault (StreamDataResult × QuicStreamSequencerBuffer) :=
  if data.isEmpty then
    .ok (⟨.emptyStreamFrameNoFin, 0, "Received empty stream frame without FIN."⟩, buffer)
  else if buffer.beyondRange startingOffset data.length then
    .ok (⟨.internalError, 0, "Received data beyond available range."⟩, buffer)
  else
    let buffer :=
      if buffer.allocateBlocksOnDemand then
        buffer.maybeAddMoreBlocks (startingOffset + data.length)
      else buffer
    if buffer.allNew ⟨startingOffset, startingOffset + data.length⟩ then
      buffer.onNewData startingOffset data
    else buffer.onOverlappingData startingOffset data

/-! ## Reading -/

/-- `RetireBlockIfEmpty`.  The `QUICHE_DCHECK` at its start, that nothing can be
read or the next byte is the first of a block, is left out. -/
def retireBlockIfEmpty (buffer : QuicStreamSequencerBuffer) (blockIndex : Nat) :
    Except BufferFault (Bool × QuicStreamSequencerBuffer) :=
  if buffer.isEmpty then buffer.retireBlock blockIndex
  else if buffer.getBlockIndex (buffer.nextExpectedByte - 1) = blockIndex then .ok (true, buffer)
  else if buffer.nextBlockToRead = blockIndex then
    match buffer.bytesReceived.intervals with
    | _ :: second :: _ =>
        if buffer.getBlockIndex second.min = blockIndex then .ok (true, buffer)
        else buffer.retireBlock blockIndex
    | _ => .ok (false, buffer)
  else buffer.retireBlock blockIndex

def bytesAvailableInBlock (buffer : QuicStreamSequencerBuffer) : Nat :=
  min buffer.readableBytes (buffer.getBlockCapacity buffer.nextBlockToRead - buffer.readOffset)

def advance (buffer : QuicStreamSequencerBuffer) (count : Nat) : QuicStreamSequencerBuffer :=
  { buffer with
    numBytesBuffered := buffer.numBytesBuffered - count
    totalBytesRead := buffer.totalBytesRead + count }

def receivedFramesDebugString (buffer : QuicStreamSequencerBuffer) : String :=
  "\x7b" ++ String.join (buffer.bytesReceived.intervals.map fun interval =>
    " [" ++ toString interval.min ++ ", " ++ toString interval.max ++ ")") ++ " \x7d"

def blockIsNull (buffer : QuicStreamSequencerBuffer) (blockIdx : Nat) : String :=
  "QuicStreamSequencerBuffer error: Readv() dest == nullptr: 0 blocks_[" ++ toString blockIdx ++
    "] == nullptr: 1 Received frames: " ++ buffer.receivedFramesDebugString ++
    " total_bytes_read_ = " ++ toString buffer.totalBytesRead

def failToRetire (buffer : QuicStreamSequencerBuffer) (blockIdx : Nat) : String :=
  "QuicStreamSequencerBuffer error: fail to retire block " ++ toString blockIdx ++
    " as the block is already released, total_bytes_read_ = " ++
    toString buffer.totalBytesRead ++ " Received frames: " ++ buffer.receivedFramesDebugString

/-- One round of `Readv`: read from one block. -/
def readFromBlock (buffer : QuicStreamSequencerBuffer) (destRemaining : Nat) :
    Except BufferFault (List UInt8 × QuicStreamSequencerBuffer) :=
  let blockIdx := buffer.nextBlockToRead
  let bytesToCopy := min buffer.bytesAvailableInBlock destRemaining
  match buffer.slot blockIdx with
  | none => .error .invalidAccess
  | some none => .error (.invalidState (buffer.blockIsNull blockIdx))
  | some (some block) =>
      if kBlockSizeBytes < buffer.readOffset + bytesToCopy then .error .invalidAccess
      else do
        let bytes := block.read buffer.readOffset bytesToCopy
        if bytesToCopy = buffer.bytesAvailableInBlock then
          let (retired, buffer) ← (buffer.advance bytesToCopy).retireBlockIfEmpty blockIdx
          if retired then return (bytes, buffer)
          else throw (.invalidState (buffer.failToRetire blockIdx))
        else return (bytes, buffer.advance bytesToCopy)

/-- The inner loop of `Readv`, which fills one part of the destination. -/
def readLoop : Nat → QuicStreamSequencerBuffer → Nat →
    Except BufferFault (List UInt8 × QuicStreamSequencerBuffer)
  | rounds, buffer, destRemaining =>
      if destRemaining = 0 || buffer.readableBytes = 0 then .ok ([], buffer)
      else
        match rounds with
        | 0 => .error .endlessLoop
        | rounds + 1 => do
            let (bytes, buffer) ← buffer.readFromBlock destRemaining
            let (more, buffer) ← readLoop rounds buffer (destRemaining - bytes.length)
            return (bytes ++ more, buffer)

/-- `Readv` into parts of the given lengths: the bytes that it stores there one
after the other. -/
def readv (buffer : QuicStreamSequencerBuffer) :
    List Nat → Except BufferFault (List UInt8 × QuicStreamSequencerBuffer)
  | [] => .ok ([], buffer)
  | length :: rest =>
      if buffer.readableBytes = 0 then .ok ([], buffer)
      else do
        let (bytes, buffer) ← readLoop length buffer length
        let (more, buffer) ← buffer.readv rest
        return (bytes ++ more, buffer)

/-- One round of `MarkConsumed`, with the number of bytes it passes over. -/
def consumeFromBlock (buffer : QuicStreamSequencerBuffer) (bytesToConsume : Nat) :
    Except BufferFault (Nat × QuicStreamSequencerBuffer) :=
  let blockIdx := buffer.nextBlockToRead
  let bytesRead := min bytesToConsume buffer.bytesAvailableInBlock
  if buffer.bytesAvailableInBlock = bytesRead then do
    let (_, buffer) ← (buffer.advance bytesRead).retireBlockIfEmpty blockIdx
    return (bytesRead, buffer)
  else .ok (bytesRead, buffer.advance bytesRead)

def consumeLoop : Nat → QuicStreamSequencerBuffer → Nat →
    Except BufferFault QuicStreamSequencerBuffer
  | _, buffer, 0 => .ok buffer
  | 0, _, _ + 1 => .error .endlessLoop
  | rounds + 1, buffer, bytesToConsume => do
      let (consumed, buffer) ← buffer.consumeFromBlock bytesToConsume
      consumeLoop rounds buffer (bytesToConsume - consumed)

def markConsumed (buffer : QuicStreamSequencerBuffer) (bytesConsumed : Nat) :
    Except BufferFault (Bool × QuicStreamSequencerBuffer) :=
  if buffer.readableBytes < bytesConsumed then .ok (false, buffer)
  else do
    let buffer ← consumeLoop bytesConsumed buffer bytesConsumed
    return (true, buffer)

/-- `FlushBufferedFrames`, with the number of bytes it passes over. -/
def flushBufferedFrames (buffer : QuicStreamSequencerBuffer) : Nat × QuicStreamSequencerBuffer :=
  let next := buffer.nextExpectedByte
  (next - buffer.totalBytesRead, clear { buffer with totalBytesRead := next })

def releaseWholeBuffer (buffer : QuicStreamSequencerBuffer) : QuicStreamSequencerBuffer :=
  { buffer.clear with currentBlocksCount := 0, blocks := none }

end QuicStreamSequencerBuffer

end Ns3Quic.Stream
