import DescriptorRings.Receive.Pool
import DescriptorRings.Refusal
import DescriptorRings.Signal.Arbiter

/-!
# Notices

What the parts report about themselves, apart from their answers.  A notice is a fact with its
quantities; its level and its wording are functions of it.  Notices of level `error` report what
should not be able to happen as long as nobody interferes with a pool behind its ring's back.
-/

namespace DescriptorRings

/-- How grave a notice is. -/
inductive Level where
  /-- Something that should not happen. -/
  | error
  /-- Something that the adapter or a caller should not have done. -/
  | warn
  /-- A part was set up. -/
  | info
  /-- A part changed its phase. -/
  | debug
  /-- A part was served. -/
  | trace
  deriving DecidableEq, Repr

namespace Level

/-- All levels, the gravest first. -/
def all : List Level := [.error, .warn, .info, .debug, .trace]

/-- The place of a level in that order. -/
def rank : Level → Nat
  | .error => 0
  | .warn => 1
  | .info => 2
  | .debug => 3
  | .trace => 4

/-- The name of a level. -/
def name : Level → String
  | .error => "ERROR"
  | .warn => "WARN"
  | .info => "INFO"
  | .debug => "DEBUG"
  | .trace => "TRACE"

/-- Whether notices of this level are kept where the limit is `limit`. -/
def within (l limit : Level) : Bool := decide (l.rank ≤ limit.rank)

end Level

/-- A fact that a part reports. -/
inductive Notice where
  /-- The allocator stopped granting buffers of a new pool. -/
  | allocationFailed (granted count : Nat)
  /-- A pool was made. -/
  | poolCreated (id : UInt16) (count size : Nat)
  /-- The last reference to a pool went while buffers were posted. -/
  | poolLostPosted (id : UInt16) (posted : Nat)
  /-- A buffer was not in the state that it should leave. -/
  | wrongState (buffer : BufferId) (expected found : BufferState)
  /-- A transmit ring began to run. -/
  | txStarted (counter : Counter)
  /-- A transmit ring was cancelled. -/
  | txCancelled (queued : Nat)
  /-- A packet did not fit. -/
  | txBackpressure (needed free : Nat)
  /-- Descriptors were posted. -/
  | txPosted (count : Nat) (producer : Counter)
  /-- The adapter's transmit counter cannot be believed. -/
  | txBadConsumer (consumer reclaim producer : Counter)
  /-- Packets completed. -/
  | txReclaimed (count : Nat)
  /-- A receive ring could not be filled. -/
  | rxShort (available needed : Nat)
  /-- A receive ring began to run. -/
  | rxStarted (counter : Counter) (posted : Nat)
  /-- A receive ring was cancelled. -/
  | rxCancelled (posted : Nat)
  /-- The adapter's receive counter cannot be believed. -/
  | rxBadConsumer (consumer first producer : Counter)
  /-- A slot completed that held no buffer. -/
  | rxEmptySlot (slot : Nat)
  /-- A receive ring was served. -/
  | rxServed (ready delivered filled : Nat)
  /-- A completion was dropped. -/
  | rxDropping (completion : Completion)
  /-- A slot held a buffer that its pool does not have. -/
  | rxOutsidePool (buffer : BufferId)
  /-- A buffer could not be delivered. -/
  | rxDeliveryFailed (cause : Refusal)
  /-- A buffer could not be taken back. -/
  | rxRecycleFailed (cause : Refusal)
  /-- The pool had no buffer to post. -/
  | rxRefillDeferred
  /-- Posted buffers were taken back. -/
  | rxRecycled (count : Nat)
  /-- A dropped frame could not give its buffer back. -/
  | frameReleaseFailed (cause : Refusal)
  /-- A direction was armed or disarmed. -/
  | armed (direction : Direction) (on : Bool)
  /-- An engine was made. -/
  | engineCreated (tx rx buffers : Nat)
  /-- An engine was stopped. -/
  | engineStopped (ignored : Nat)
  /-- An interrupt was served. -/
  | engineInterrupt (pending fired : UInt32)
  /-- An engine was dropped while packets were outstanding. -/
  | engineLostPackets (outstanding : Nat)
  deriving DecidableEq, Repr

namespace Notice

/-- How grave a notice is. -/
def level : Notice → Level
  | .wrongState _ _ _ | .rxEmptySlot _ | .rxOutsidePool _ | .rxDeliveryFailed _
  | .rxRecycleFailed _ | .frameReleaseFailed _ => .error
  | .allocationFailed _ _ | .poolLostPosted _ _ | .txBadConsumer _ _ _ | .rxShort _ _
  | .rxBadConsumer _ _ _ | .engineLostPackets _ => .warn
  | .engineCreated _ _ _ => .info
  | .poolCreated _ _ _ | .txStarted _ | .txCancelled _ | .rxStarted _ _ | .rxCancelled _
  | .rxRecycled _ | .engineStopped _ => .debug
  | .txBackpressure _ _ | .txPosted _ _ | .txReclaimed _ | .rxServed _ _ _ | .rxDropping _
  | .rxRefillDeferred | .armed _ _ | .engineInterrupt _ _ => .trace

/-- The pieces of a wording, joined. -/
def phrase (pieces : List String) : String := String.join pieces

/-- A counter in decimal digits. -/
def digits (c : Counter) : String := toString c.toNat

/-- The wording of a notice. -/
def text : Notice → String
  | .allocationFailed granted count =>
      s!"rx pool: allocation failed after {granted} of {count} buffers"
  | .poolCreated id count size =>
      phrase ["rx pool ", toString id.toNat, s!": {count} buffers of {size} bytes"]
  | .poolLostPosted id posted =>
      phrase ["rx pool ", toString id.toNat, s!": dropped with {posted} buffers posted"]
  | .wrongState buffer expected found =>
      phrase ["rx buffer ", toString buffer.index, ": expected ", expected.name, ", found ",
        found.name]
  | .txStarted counter => phrase ["tx ring: started at counter ", digits counter]
  | .txCancelled queued => s!"tx ring: cancelled with {queued} packets pending"
  | .txBackpressure needed free => s!"tx ring: {needed} fragments pending, {free} slots free"
  | .txPosted count producer =>
      phrase [s!"tx ring: posted {count} descriptors, producer ", digits producer]
  | .txBadConsumer consumer reclaim producer =>
      phrase ["tx ring: consumer ", digits consumer, " outside in-flight window [", digits reclaim,
        ", ", digits producer, "]"]
  | .txReclaimed count => s!"tx ring: reclaimed {count} packets"
  | .rxShort available needed => s!"rx ring: {available} buffers free, {needed} needed"
  | .rxStarted counter posted =>
      phrase ["rx ring: started at counter ", digits counter, s!" with {posted} buffers"]
  | .rxCancelled posted => s!"rx ring: cancelled with {posted} buffers posted"
  | .rxBadConsumer consumer first producer =>
      phrase ["rx ring: consumer ", digits consumer, " outside posted window [", digits first,
        ", ", digits producer, "]"]
  | .rxEmptySlot slot => s!"rx ring: slot {slot} completed without a buffer"
  | .rxServed ready delivered filled =>
      s!"rx ring: {ready} completions, {delivered} delivered, {filled} refilled"
  | .rxDropping completion => phrase ["rx ring: dropping ", completion.describe]
  | .rxOutsidePool buffer => phrase ["rx ring: buffer ", buffer.describe, " outside pool"]
  | .rxDeliveryFailed cause => phrase ["rx ring: delivery failed: ", cause.text]
  | .rxRecycleFailed cause => phrase ["rx ring: recycle failed: ", cause.text]
  | .rxRefillDeferred => "rx ring: pool empty, refill deferred"
  | .rxRecycled count => s!"rx ring: recycled {count} posted buffers"
  | .frameReleaseFailed cause => phrase ["rx frame: release failed: ", cause.text]
  | .armed direction on => phrase ["notify: ", direction.name, " armed=", toString on]
  | .engineCreated tx rx buffers =>
      s!"nic engine: tx {tx} slots, rx {rx} slots, {buffers} rx buffers"
  | .engineStopped ignored => s!"nic engine: stopped, {ignored} tx packets ignored"
  | .engineInterrupt pending fired =>
      phrase ["nic engine: irq ", IrqMask.table.describe pending, ", notified ",
        IrqMask.table.describe fired]
  | .engineLostPackets outstanding =>
      s!"nic engine: dropped with {outstanding} tx packets outstanding"

end Notice

end DescriptorRings
