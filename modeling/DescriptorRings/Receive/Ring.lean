import DescriptorRings.Config
import DescriptorRings.Phase
import DescriptorRings.Receive.Pool

/-!
# The receive ring

The slots from the consumer counter up to the producer counter hold posted buffers.  The adapter
fills them in order.  Serving the ring passes the filled slots one by one, and posts free buffers at
the producer's end; where the pool has none the slots stay empty until a later service.

The ring knows its pool by *place*, its position among the pools, and borrows nothing from it: which
buffer lies in which slot is all that it keeps.  A buffer leaves its slot when the slot is passed,
or when all slots are cleared at once.
-/

namespace DescriptorRings

/-- What a receive ring has counted since it was made.  As with `TxStats`, the counts are numbers, and a
word of 64 bits is such a number modulo `2 ^ 64`. -/
structure RxStats where
  /-- Frames delivered. -/
  delivered : Nat := 0
  /-- Bytes in them. -/
  bytes : Nat := 0
  /-- Completions dropped for their status or their length. -/
  framingErrors : Nat := 0
  /-- Times that the pool had no buffer to post. -/
  refillDeferred : Nat := 0
  /-- Posted buffers that were taken back without a completion. -/
  discarded : Nat := 0
  /-- Readings of the adapter's counter that could not be believed. -/
  badConsumer : Nat := 0
  deriving DecidableEq, Repr

/-- A receive ring. -/
structure RxRing where
  /-- The place of the pool that the ring draws from. -/
  pool : Nat
  /-- How many slots there are. -/
  size : RingSize
  /-- Bytes that the adapter leaves in front of a frame. -/
  pad : Nat
  /-- The oldest posted slot. -/
  consumer : Counter := 0
  /-- The next slot to fill. -/
  producer : Counter := 0
  /-- The buffer in each slot. -/
  slots : Array (Option BufferId)
  /-- What serving the ring means. -/
  phase : Phase := .stopped
  /-- What was counted. -/
  stats : RxStats := {}
  deriving Repr

namespace RxRing

/-- An empty ring of an admitted size, over a pool whose buffers have room behind the pad. -/
def create (pool bufferSize slots pad : Nat) : Except Refusal RxRing :=
  match RingSize.ofNat? slots with
  | none => .error Config.Flaw.rxRingSize.refusal
  | some size =>
    if bufferSize ≤ pad then .error Config.Flaw.bufferSize.refusal
    else .ok { pool := pool, size := size, pad := pad, slots := Array.replicate slots none }

/-! ## Questions -/

/-- Most buffers that can be posted at once. -/
def capacity (r : RxRing) : Nat := r.size.capacity

/-- Buffers posted. -/
def posted (r : RxRing) : Nat := r.producer.distance r.consumer r.size.slots

/-- Usable slots without a buffer. -/
def unfilled (r : RxRing) : Nat := r.capacity - r.posted

/-- Whether the ring was cancelled since its last start. -/
def isCancelled (r : RxRing) : Bool := r.phase == .cancelled

/-- The oldest posted slot. -/
def headSlot (r : RxRing) : Nat := r.consumer.slot r.size.slots

/-- The next slot to fill. -/
def tailSlot (r : RxRing) : Nat := r.producer.slot r.size.slots

/-- The buffer in a slot. -/
def bufferAt? (r : RxRing) (slot : Nat) : Option BufferId := r.slots.getD slot none

/-- The buffers in all slots, in the order of the slots. -/
def held (r : RxRing) : List BufferId := r.slots.toList.filterMap id

/-- How many completions a reading of the adapter's counter announces.  The whole counter is used,
so that a reading more than a turn ahead is not mistaken for a small one. -/
def announced (r : RxRing) (consumer : Counter) : Nat := consumer.past r.consumer

/-- Whether a reading of the adapter's counter lies in the window of posted buffers. -/
def believes (r : RxRing) (consumer : Counter) : Bool :=
  decide (r.announced consumer ≤ r.posted)

/-- The completions to take in.  A reading that is not believed announces none. -/
def ready (r : RxRing) (consumer : Counter) : Nat :=
  if r.believes consumer then r.announced consumer else 0

/-- Whether a completion is a frame that may be shown: whole, without error, and with a length that
reaches past the pad and stays inside the buffer. -/
def deliverable (r : RxRing) (bufferSize : Nat) (c : Completion) : Bool :=
  c.isWholeFrame && (decide (r.pad ≤ c.length.toNat) && decide (c.length.toNat ≤ bufferSize))

/-! ## Changes -/

/-- Takes the buffer out of the oldest slot and moves past it. -/
def pass (r : RxRing) : RxRing :=
  { r with
    slots := r.slots.setIfInBounds (r.consumer.slot r.size.slots) none
    consumer := r.consumer.advance 1 }

/-- Puts a buffer into the next slot and moves past it. -/
def post (r : RxRing) (b : BufferId) : RxRing :=
  { r with
    slots := r.slots.setIfInBounds (r.producer.slot r.size.slots) (some b)
    producer := r.producer.advance 1 }

/-- Empties all slots, and counts the buffers that were in them. -/
def clear (r : RxRing) : RxRing :=
  let count := r.held.length
  { r with
    slots := r.slots.map fun _ => none
    producer := r.consumer
    stats := { r.stats with discarded := r.stats.discarded + count } }

/-- Puts both counters where the adapter stands. -/
def resync (r : RxRing) (c : Counter) : RxRing := { r with consumer := c, producer := c }

/-- Enters a phase. -/
def enter (r : RxRing) (phase : Phase) : RxRing := { r with phase := phase }

/-- Counts a reading that is not believed. -/
def noteReading (r : RxRing) (consumer : Counter) : RxRing :=
  if r.believes consumer then r
  else { r with stats := { r.stats with badConsumer := r.stats.badConsumer + 1 } }

/-- Counts a completion that was dropped. -/
def noteFramingError (r : RxRing) : RxRing :=
  { r with stats := { r.stats with framingErrors := r.stats.framingErrors + 1 } }

/-- Counts a delivered frame of that many bytes. -/
def noteDelivery (r : RxRing) (bytes : Nat) : RxRing :=
  { r with
    stats := { r.stats with delivered := r.stats.delivered + 1, bytes := r.stats.bytes + bytes } }

/-- Counts a time that the pool had no buffer. -/
def noteDeferral (r : RxRing) : RxRing :=
  { r with stats := { r.stats with refillDeferred := r.stats.refillDeferred + 1 } }

/-! ## What a change leaves alone -/

@[simp] theorem size_slots_pass (r : RxRing) : r.pass.slots.size = r.slots.size := by
  simp [pass]

@[simp] theorem size_slots_post (r : RxRing) (b : BufferId) :
    (r.post b).slots.size = r.slots.size := by
  simp [post]

@[simp] theorem size_slots_clear (r : RxRing) : r.clear.slots.size = r.slots.size := by
  simp [clear]

@[simp] theorem held_clear (r : RxRing) : r.clear.held = [] := by
  simp [held, clear]

@[simp] theorem posted_clear (r : RxRing) : r.clear.posted = 0 := by
  simp [posted, clear]

end RxRing

/-! ## Frames -/

/-- A received frame, shown in the buffer that it arrived in. -/
structure Frame where
  /-- The place of the pool that the buffer belongs to. -/
  pool : Nat
  /-- The right to give the buffer back. -/
  handle : ReturnHandle
  /-- Where the buffer lies. -/
  address : BusAddress
  /-- Where in the buffer the frame begins. -/
  pad : Nat
  /-- Bytes in the frame. -/
  length : Nat
  deriving DecidableEq, Repr

namespace Frame

/-- The bytes of a frame. -/
def bytes (f : Frame) (mem : Memory) : List UInt8 := mem.load f.address f.pad f.length

/-- Whether a frame has no bytes. -/
def isEmpty (f : Frame) : Bool := f.length == 0

/-- How a frame is shown. -/
def describe (f : Frame) : String :=
  "RxFrame \x7b handle: " ++ f.handle.describe ++ ", len: " ++ toString f.length ++ " \x7d"

end Frame

end DescriptorRings
