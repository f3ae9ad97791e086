import DescriptorRings.Device.Adapter
import DescriptorRings.Machine.Notice
import DescriptorRings.Machine.Outcome
import DescriptorRings.Transmit.Ring

/-!
# Events and the journal

An event is something that happens to the machine at work.  Most can be seen from outside: every
access to the adapter, every block that is allocated or freed, everything that the upper layer is
told and what it does in reply, and every notice.  A few are *inner*: a packet is taken in or is
about to be posted, a direction is armed or disarmed, the adapter makes a move.  Nobody outside sees
them, but what is seen can only be accounted for with their help.

The journal keeps the events of a run in order, as far as its level of detail asks for them.
-/

namespace DescriptorRings

/-- Something that happens to the machine. -/
inductive Event where
  /-- A register was read. -/
  | read (r : Register) (v : UInt32)
  /-- A register was written. -/
  | wrote (r : Register) (v : UInt32)
  /-- A transmit descriptor was written. -/
  | wroteTx (slot : Nat) (d : TxDescriptor)
  /-- An empty buffer was posted in a receive slot. -/
  | wroteRx (slot : Nat) (address : BusAddress) (capacity : UInt32)
  /-- The completion word of a receive slot was read. -/
  | readCompletion (slot : Nat) (c : Completion)
  /-- The allocator was asked for a block. -/
  | allocated (layout : Layout) (address : Option BusAddress)
  /-- A block was given back. -/
  | freed (address : BusAddress)
  /-- A packet was handed back to the upper layer. -/
  | completed (p : Packet)
  /-- A frame was handed to the upper layer. -/
  | delivered (frame : Frame) (bytes : List UInt8)
  /-- The upper layer was notified. -/
  | notified (d : Direction)
  /-- A request that the upper layer made while it was called came to this. -/
  | replied (o : Outcome)
  /-- A notice was given. -/
  | noticed (n : Notice)
  /-- A packet was taken in. -/
  | accepted (p : Packet)
  /-- The descriptors of a packet are about to be written. -/
  | posting (t : TxPost)
  /-- A direction was armed or disarmed. -/
  | armed (d : Direction) (before after : Bool)
  /-- The adapter made a move. -/
  | moved (mv : Move)
  deriving Repr

namespace Event

/-- Whether an event concerns the upper layer rather than the adapter or the allocator. -/
def isUpper : Event → Bool
  | .completed _ | .delivered _ _ | .notified _ | .replied _ | .noticed _ => true
  | _ => false

/-- Whether an event cannot be seen from outside. -/
def isInner : Event → Bool
  | .accepted _ | .posting _ | .armed _ _ _ | .moved _ => true
  | _ => false

end Event

/-- Which events a journal keeps. -/
inductive Detail where
  /-- All of them. -/
  | complete
  /-- Those that can be seen from outside. -/
  | outward
  /-- Those that concern the upper layer. -/
  | upper
  /-- None. -/
  | nothing
  deriving DecidableEq, Repr

namespace Detail

/-- Whether an event is kept. -/
def keeps : Detail → Event → Bool
  | .complete, _ => true
  | .outward, e => !e.isInner
  | .upper, e => e.isUpper
  | .nothing, _ => false

end Detail

/-- The events of a run. -/
structure Journal where
  /-- Which events are kept. -/
  detail : Detail := .outward
  /-- The least grave level of notices that are given at all; without one, none are. -/
  level : Option Level := none
  /-- The events kept so far. -/
  events : Array Event := #[]
  deriving Repr

namespace Journal

/-- Adds an event, if events of its kind are kept. -/
def add (j : Journal) (e : Event) : Journal :=
  if j.detail.keeps e then { j with events := j.events.push e } else j

/-- Whether notices of a level are given. -/
def gives (j : Journal) (l : Level) : Bool :=
  match j.level with
  | some limit => l.within limit
  | none => false

/-- The events that were added since there were `n` of them. -/
def since (j : Journal) (n : Nat) : List Event := (j.events.extract n j.events.size).toList

@[simp] theorem detail_add (j : Journal) (e : Event) : (j.add e).detail = j.detail := by
  unfold add
  split <;> rfl

theorem events_add_of_complete {j : Journal} (h : j.detail = .complete) (e : Event) :
    (j.add e).events = j.events.push e := by
  simp [add, h, Detail.keeps]

end Journal

end DescriptorRings
