import DescriptorRings.Device.Flags
import DescriptorRings.MachineWord

/-!
# What is written into a descriptor, and what comes back

A transmit descriptor names one fragment of a packet.  A receive descriptor names an empty buffer,
and the adapter answers in its completion word with a status and a length.  Both name memory by
*bus address*, the address that the adapter uses.
-/

namespace DescriptorRings

/-! ## Bus addresses -/

/-- An address as the adapter sees it. -/
structure BusAddress where
  /-- The sixty-four bits of the address. -/
  value : UInt64
  deriving DecidableEq, Repr, Inhabited

namespace BusAddress

/-- The address of a natural, which wraps at the width of an address. -/
def ofNat (n : Nat) : BusAddress := ⟨UInt64.ofNat n⟩

/-- The address as a natural. -/
def toNat (a : BusAddress) : Nat := a.value.toNat

/-- The address `offset` bytes on, if there is one. -/
def shift? (a : BusAddress) (offset : Nat) : Except Fault BusAddress :=
  (Checked.add a.toNat offset).map ofNat

/-- How an address is shown. -/
def describe (a : BusAddress) : String := "DmaBusAddress(0x" ++ hexUpper a.toNat ++ ")"

end BusAddress

/-! ## Descriptors -/

/-- One transmit descriptor. -/
structure TxDescriptor where
  /-- Where the fragment lies. -/
  address : BusAddress
  /-- How many bytes it has. -/
  length : UInt32
  /-- Where in its frame it stands. -/
  flags : UInt32
  deriving DecidableEq, Repr

/-- The completion word of a receive descriptor. -/
structure Completion where
  /-- Status bits. -/
  status : UInt32 := 0
  /-- Bytes in the buffer, the leading pad included. -/
  length : UInt32 := 0
  deriving DecidableEq, Repr, Inhabited

namespace Completion

/-- A whole frame in one buffer, without any error. -/
def isWholeFrame (c : Completion) : Bool :=
  hasBits c.status RxStatus.wholeFrame && !meetsBits c.status RxStatus.errors

/-- How a completion is shown. -/
def describe (c : Completion) : String :=
  "RxCompletion \x7b status: " ++ RxStatus.table.describe c.status ++ ", len: "
    ++ toString c.length.toNat ++ " \x7d"

end Completion

/-- What a receive slot holds: the buffer posted in it, and the answer of the adapter. -/
structure RxDescriptor where
  /-- Where the buffer lies. -/
  address : BusAddress
  /-- How many bytes it can take. -/
  capacity : UInt32
  /-- The completion word, cleared when the buffer is posted. -/
  completion : Completion := {}
  deriving DecidableEq, Repr

end DescriptorRings
