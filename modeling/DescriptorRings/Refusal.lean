/-!
# Why an operation is refused

Misuse by a caller and failures while parts are being set up are refusals.  Running out of slots or
of receive buffers while the rings are being served is not: it is ordinary contention and shows up
as progress that stops early.

Each refusal has a short fixed message; three of them add what the caller needs to know about the
quantity that did not fit.
-/

namespace DescriptorRings

/-- A cause of refusal. -/
inductive Refusal where
  /-- The packet has no fragment. -/
  | emptyPacket
  /-- The packet needs more descriptors than the ring can ever hold. -/
  | packetTooLarge (fragments capacity : Nat)
  /-- Too many packets are outstanding; completions will make room. -/
  | ringFull
  /-- The handle names no delivered buffer of this pool. -/
  | invalidHandle
  /-- A part was asked for something that its present state rules out. -/
  | badState
  /-- The allocator gave no memory. -/
  | outOfMemory
  /-- The pool cannot fill the receive ring. -/
  | insufficientBuffers (needed available : Nat)
  /-- A size or a limit is inconsistent, for the reason given. -/
  | invalidConfig (reason : String)
  deriving DecidableEq, Repr

namespace Refusal

/-- The fixed part of the wording. -/
def message : Refusal → String
  | .emptyPacket => "Packet has no fragments"
  | .packetTooLarge _ _ => "Packet exceeds ring capacity"
  | .ringFull => "Ring is full"
  | .invalidHandle => "Invalid return handle"
  | .badState => "Bad buffer state"
  | .outOfMemory => "Out of DMA memory"
  | .insufficientBuffers _ _ => "Not enough receive buffers"
  | .invalidConfig _ => "Invalid ring configuration"

/-- The quantities or the reason that some refusals add after their message. -/
def detail : Refusal → Option String
  | .packetTooLarge fragments capacity => some s!"{fragments} fragments, {capacity} usable slots"
  | .insufficientBuffers needed available => some s!"need {needed}, have {available}"
  | .invalidConfig reason => some reason
  | _ => none

/-- The whole wording: the message, and after a colon the detail if there is one. -/
def text (r : Refusal) : String :=
  match r.detail with
  | some extra => r.message ++ ": " ++ extra
  | none => r.message

/-- Whether waiting helps: only a full ring is relieved by progress elsewhere. -/
def isTransient : Refusal → Bool
  | .ringFull => true
  | _ => false

end Refusal

end DescriptorRings
