import DescriptorRings.Device.Descriptor

/-!
# Outbound packets

A packet is an ordered list of fragments under a cookie that its sender gets back on completion.
Every fragment becomes one descriptor.  A packet can be marked *ignored*: it then keeps its place
among the others and completes in turn, but nothing of it is transmitted.  The mark is only ever
added.
-/

namespace DescriptorRings

/-- One contiguous piece of a packet. -/
structure Fragment where
  /-- Where the piece lies. -/
  address : BusAddress
  /-- How many bytes it has. -/
  length : UInt32
  deriving DecidableEq, Repr

/-- A packet to transmit. -/
structure Packet where
  /-- The sender's name for the packet. -/
  cookie : Nat
  /-- The pieces, in the order of transmission. -/
  fragments : List Fragment
  /-- Whether the packet is to be skipped. -/
  ignored : Bool := false
  deriving DecidableEq, Repr

namespace Packet

/-- A packet of one fragment. -/
def single (cookie : Nat) (f : Fragment) : Packet := { cookie := cookie, fragments := [f] }

/-- Adds a fragment at the end. -/
def push (p : Packet) (f : Fragment) : Packet := { p with fragments := p.fragments ++ [f] }

/-- Marks a packet ignored. -/
def ignore (p : Packet) : Packet := { p with ignored := true }

/-- How many descriptors a packet takes. -/
def fragmentCount (p : Packet) : Nat := p.fragments.length

/-- How many bytes a packet has. -/
def byteCount (p : Packet) : Nat := p.fragments.foldl (fun n f => n + f.length.toNat) 0

/-- Whether a packet has no bytes. -/
def isEmpty (p : Packet) : Bool := p.byteCount == 0

/-! ## Descriptors -/

/-- The control bits of fragment `i` among `count`: the first opens the frame and asks for the
checksum, the last closes it, and a single fragment does both. -/
def flagsAt (count i : Nat) : UInt32 :=
  (if i = 0 then TxFlags.first ||| TxFlags.appendCrc else 0) |||
    (if i + 1 = count then TxFlags.last else 0)

/-- The descriptors of a packet, in order. -/
def descriptors (p : Packet) : List TxDescriptor :=
  let count := p.fragmentCount
  p.fragments.mapIdx fun i f => ⟨f.address, f.length, flagsAt count i⟩

@[simp] theorem length_descriptors (p : Packet) : p.descriptors.length = p.fragmentCount := by
  simp [descriptors, fragmentCount]

end Packet

end DescriptorRings
