import DescriptorRings.Config
import DescriptorRings.Packet
import DescriptorRings.Receive.Ring
import DescriptorRings.Signal.Arbiter

/-!
# Outcomes

What one request to the machine comes to.  Most requests answer with nothing more than that they
were carried out, with a count, or with a refusal; those that look at a part answer with a view of
it.  A request to a part that is not there is answered as such, and changes nothing.
-/

namespace DescriptorRings

/-- A held frame, looked at. -/
structure FrameView where
  /-- Its bytes. -/
  bytes : List UInt8
  /-- The frame itself. -/
  frame : Frame
  deriving Repr

/-- An engine, looked at. -/
structure EngineView where
  /-- What the engine was configured with. -/
  config : Config
  /-- Slots and usable slots of its transmit ring. -/
  tx : Nat × Nat
  /-- Slots and usable slots of its receive ring. -/
  rx : Nat × Nat
  /-- Buffers of its pool. -/
  buffers : Nat
  deriving Repr

/-- What a request comes to. -/
inductive Outcome where
  /-- It was carried out and has nothing to report. -/
  | done
  /-- It was refused. -/
  | refused (cause : Refusal)
  /-- Word arithmetic had no answer. -/
  | faulted (cause : Fault)
  /-- The part that it is about does not exist. -/
  | absent
  /-- It waits for something that will never happen. -/
  | stalled
  /-- It looked for something and found nothing. -/
  | nothing
  /-- A number. -/
  | count (n : Nat)
  /-- Several sizes. -/
  | sizes (ns : List Nat)
  /-- The state of a buffer. -/
  | state (s : BufferState)
  /-- A handle, shown. -/
  | handle (h : ReturnHandle)
  /-- A handle as one word. -/
  | raw (h : ReturnHandle)
  /-- A transmit descriptor. -/
  | descriptor (d : TxDescriptor)
  /-- A held frame, looked at. -/
  | frame (v : FrameView)
  /-- A pool, looked at. -/
  | pool (p : BufferPool)
  /-- An engine, looked at. -/
  | engine (v : EngineView)
  deriving Repr

namespace Outcome

/-- The outcome of something that is either done or refused. -/
def ofResult : Except Refusal Unit → Outcome
  | .ok () => .done
  | .error cause => .refused cause

/-- A number that may not be there. -/
def ofCount? : Option Nat → Outcome
  | some n => .count n
  | none => .nothing

end Outcome

end DescriptorRings
