import DescriptorRings.Counter
import DescriptorRings.Device.Directory

/-!
# Memory that software and adapter share

The allocator hands out blocks.  It belongs to the platform, and nothing is known of it but its
answers: which requests it grants, and at which addresses (`Allocator`).  Blocks are numbered in the
order in which they are granted, and a number is never used again; an address names the block that
was granted there last.

A new block is all zero.  Only the leading part of a block that has ever been written is stored; the
bytes behind it are the zeros that they always were.  Contents outlast the uses of a block: what one
frame wrote is still there when the next frame turns out shorter.
-/

namespace DescriptorRings

/-! ## Layouts -/

/-- The size and the alignment that a block is asked for with. -/
structure Layout where
  /-- Bytes in the block. -/
  size : Nat
  /-- Alignment of the block. -/
  align : Nat
  deriving DecidableEq, Repr

namespace Layout

/-- A layout has a power of two for its alignment, and its size, rounded up to the alignment, stays
within the addressable half of the word. -/
def ofSizes? (size align : Nat) : Option Layout :=
  if isPowerOfTwo align ∧ size ≤ (1 <<< 63) - align then some ⟨size, align⟩ else none

end Layout

/-! ## Blocks -/

/-- One block of memory. -/
structure Block where
  /-- Bytes in the block. -/
  size : Nat
  /-- The leading bytes that have been written; all others are zero. -/
  written : List UInt8 := []
  /-- Whether the block has not been freed. -/
  live : Bool := true
  deriving DecidableEq, Repr

/-- Where there is no block there is nothing to store in. -/
instance : Inhabited Block := ⟨{ size := 0, live := false }⟩

namespace Block

/-- The `length` bytes from `offset` on. -/
def read (b : Block) (offset length : Nat) : List UInt8 :=
  let stored := (b.written.drop offset).take length
  stored ++ List.replicate (length - stored.length) 0

/-- Stores bytes from `offset` on.  Bytes past the end of the block are lost. -/
def write (b : Block) (offset : Nat) (data : List UInt8) : Block :=
  if b.size ≤ offset then b
  else
    let fitting := data.take (b.size - offset)
    let before := b.read 0 offset
    { b with written := before ++ fitting ++ b.written.drop (offset + fitting.length) }

@[simp] theorem length_read (b : Block) (offset length : Nat) :
    (b.read offset length).length = length := by
  simp only [read, List.length_append, List.length_take, List.length_drop, List.length_replicate]
  omega

end Block

/-! ## The allocator -/

/-- An allocator is known by its answers.  A request is told from the others of a run by its number,
so an answer may depend on whatever has happened before. -/
structure Allocator where
  /-- The address of the block that is granted, if one is, from the number of requests before, the
  number of blocks granted on them, and the layout. -/
  answer : (asked granted : Nat) → Layout → Option BusAddress

namespace Allocator

/-- Where block number zero of an orderly allocator lies. -/
def firstAddress : Nat := 0x10000000

/-- The largest alignment that an orderly allocator grants. -/
def maxAlign : Nat := 4096

/-- An orderly allocator puts its blocks at equal distances.  It grants no block that is empty or
would reach the next one, none of a larger alignment than it knows, and in all no more than its
limit, if it has one. -/
def orderly (distance : Nat) (limit : Option Nat) : Allocator where
  answer _ granted l :=
    let left := limit.all fun most => decide (granted < most)
    if left ∧ 0 < l.size ∧ l.size ≤ distance ∧ l.align ≤ maxAlign then
      some (.ofNat (firstAddress + granted * distance))
    else none

/-- The distance that an orderly allocator keeps if nothing else is said: a mebibyte. -/
def usualDistance : Nat := 0x100000

end Allocator

/-! ## Memory -/

/-- All blocks ever allocated, in order, and whoever allocates them. -/
structure Memory where
  /-- The blocks, freed ones included. -/
  blocks : Array Block := #[]
  /-- Which block starts at an address: the last one that was granted there. -/
  directory : Directory := .vacant
  /-- How many requests there have been. -/
  asked : Nat := 0
  /-- The allocator. -/
  allocator : Allocator := .orderly Allocator.usualDistance none

namespace Memory

/-- The number of the block that starts at an address. -/
def blockAt? (m : Memory) (a : BusAddress) : Option Nat := m.directory.find? a.bits

/-- The memory after a request was granted, with a block at the given address. -/
def grant (m : Memory) (l : Layout) (a : BusAddress) : Memory :=
  let number := m.blocks.size
  { m with
    blocks := m.blocks.push { size := l.size }
    directory := m.directory.enter number a.bits
    asked := m.asked + 1 }

/-- The memory after a request was refused. -/
def refuse (m : Memory) : Memory := { m with asked := m.asked + 1 }

/-- Asks for a block. -/
def allocate (m : Memory) (l : Layout) : Option BusAddress × Memory :=
  match m.allocator.answer m.asked m.blocks.size l with
  | some a => (some a, m.grant l a)
  | none => (none, m.refuse)

/-- Changes the block that starts at an address. -/
def modifyAt (m : Memory) (a : BusAddress) (f : Block → Block) : Memory :=
  match m.blockAt? a with
  | some k => { m with blocks := m.blocks.modify k f }
  | none => m

/-- Gives a block back. -/
def free (m : Memory) (a : BusAddress) : Memory :=
  m.modifyAt a fun b => { b with live := false }

/-- Stores bytes in the block that starts at an address, unless the block has been freed. -/
def store (m : Memory) (a : BusAddress) (offset : Nat) (data : List UInt8) : Memory :=
  m.modifyAt a fun b => if b.live then b.write offset data else b

/-- Bytes of the block that starts at an address; zeros where there is no block. -/
def load (m : Memory) (a : BusAddress) (offset length : Nat) : List UInt8 :=
  match m.blockAt? a with
  | some k => (m.blocks.getD k default).read offset length
  | none => List.replicate length 0

/-- How many blocks have not been freed. -/
def liveCount (m : Memory) : Nat := m.blocks.countP fun b => b.live

end Memory

end DescriptorRings
