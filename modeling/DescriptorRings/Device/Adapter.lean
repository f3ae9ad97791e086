import DescriptorRings.Device.Memory
import DescriptorRings.Device.Register

/-!
# The adapter

The adapter is its registers and two tables of descriptors.  Software reads and writes registers,
writes descriptors of either direction and reads completions; all else that changes the adapter is
a *move* of its own: it consumes transmit descriptors, receives a frame, raises an interrupt cause.

Some moves are obliging to a fault: the adapter consumes, or receives, when it is told to, whether the
direction is switched on or not and whether there is anything to consume or to fill.  Two moves
abide by the law: `transmit` and `fill` do nothing while their direction is switched off, and never
go past the doorbell.  An adapter that makes no other moves on its counters is a law-abiding one.
-/

namespace DescriptorRings

/-! ## Tables of slots -/

/-- Slots that hold a value once they were written.  A table grows to the slots that are used. -/
structure SlotTable (α : Type) where
  /-- The slots up to the highest that was written. -/
  cells : Array (Option α) := #[]

namespace SlotTable

variable {α : Type}

/-- What a slot holds. -/
def get? (t : SlotTable α) (i : Nat) : Option α := t.cells.getD i none

/-- Writes a slot. -/
def set (t : SlotTable α) (i : Nat) (a : α) : SlotTable α :=
  if i < t.cells.size then ⟨t.cells.setIfInBounds i (some a)⟩
  else ⟨(t.cells ++ Array.replicate (i - t.cells.size) none).push (some a)⟩

theorem get?_eq (t : SlotTable α) (i : Nat) : t.get? i = t.cells[i]?.join := by
  unfold get?
  rw [Array.getD_eq_getD_getElem?]
  cases t.cells[i]? <;> rfl

@[simp] theorem get?_set_self (t : SlotTable α) (i : Nat) (a : α) :
    (t.set i a).get? i = some a := by
  rw [get?_eq]
  unfold set
  split
  · simp_all
  · have size : (t.cells ++ Array.replicate (i - t.cells.size) none).size = i := by simp; omega
    rw [Array.getElem?_push, size, if_pos rfl]
    rfl

theorem get?_set_of_ne (t : SlotTable α) {i j : Nat} (h : j ≠ i) (a : α) :
    (t.set i a).get? j = t.get? j := by
  rw [get?_eq, get?_eq]
  unfold set
  split
  · rw [Array.getElem?_setIfInBounds_ne (Ne.symm h)]
  · have size : (t.cells ++ Array.replicate (i - t.cells.size) none).size = i := by simp; omega
    rw [Array.getElem?_push, size, if_neg h, Array.getElem?_append]
    split
    · rfl
    · rw [Array.getElem?_replicate, Array.getElem?_eq_none (by omega)]
      split <;> rfl

end SlotTable

/-! ## The adapter and what software does to it -/

/-- An adapter. -/
structure Adapter where
  /-- The registers. -/
  registers : RegisterFile := {}
  /-- Transmit descriptors by slot. -/
  txTable : SlotTable TxDescriptor := {}
  /-- Receive descriptors by slot. -/
  rxTable : SlotTable RxDescriptor := {}
  /-- How many receive slots the adapter goes round. -/
  rxSlots : Nat := 256

namespace Adapter

/-- What a register holds. -/
def read (a : Adapter) (r : Register) : UInt32 := a.registers.get r

/-- Puts a word into a register, and nothing else. -/
def assign (a : Adapter) (r : Register) (v : UInt32) : Adapter :=
  { a with registers := a.registers.set r v }

/-- Writes a register.  Writing causes to `irqClear` takes them out of `irqStatus`. -/
def write (a : Adapter) (r : Register) (v : UInt32) : Adapter :=
  let stored := a.assign r v
  match r with
  | .irqClear => stored.assign .irqStatus (stored.read .irqStatus &&& ~~~v)
  | _ => stored

/-- Writes a transmit descriptor. -/
def writeTx (a : Adapter) (slot : Nat) (d : TxDescriptor) : Adapter :=
  { a with txTable := a.txTable.set slot d }

/-- Posts an empty buffer in a receive slot and clears the completion word. -/
def writeRx (a : Adapter) (slot : Nat) (address : BusAddress) (capacity : UInt32) : Adapter :=
  { a with rxTable := a.rxTable.set slot { address := address, capacity := capacity } }

/-- The completion word of a receive slot. -/
def completionAt (a : Adapter) (slot : Nat) : Completion :=
  match a.rxTable.get? slot with
  | some d => d.completion
  | none => {}

/-- The counter in the low half of a register. -/
def counter (a : Adapter) (r : Register) : Counter := (a.read r).toUInt16

@[simp] theorem read_assign_self (a : Adapter) (r : Register) (v : UInt32) :
    (a.assign r v).read r = v := by
  simp [assign, read]

theorem read_assign_of_ne (a : Adapter) {r s : Register} (h : s ≠ r) (v : UInt32) :
    (a.assign r v).read s = a.read s := by
  simp [assign, read, RegisterFile.get_set_of_ne _ h]

@[simp] theorem read_write_self (a : Adapter) (r : Register) (v : UInt32) :
    (a.write r v).read r = v := by
  unfold write
  cases r <;> simp [read_assign_of_ne]

end Adapter

/-! ## Moves of the adapter -/

/-- A frame on the line, as the adapter will report it. -/
structure Reception where
  /-- The bytes of the frame. -/
  data : List UInt8
  /-- Where in the buffer they go. -/
  pad : Nat
  /-- The length in the completion word. -/
  length : UInt32
  /-- The status in the completion word. -/
  status : UInt32
  deriving DecidableEq, Repr

/-- Something that the adapter, or whoever has a hand in it, does. -/
inductive Move where
  /-- A register takes a value, without any side effect. -/
  | assign (r : Register) (v : UInt32)
  /-- Interrupt causes become pending. -/
  | raise (causes : UInt32)
  /-- That many transmit descriptors are consumed, posted or not. -/
  | consume (n : Nat)
  /-- A frame arrives, whether a buffer is posted for it or not. -/
  | receive (frame : Reception)
  /-- Up to that many transmit descriptors are consumed, as far as the law allows. -/
  | transmit (n : Nat)
  /-- A frame arrives, and is lost if the law allows no buffer to be filled. -/
  | fill (frame : Reception)
  deriving DecidableEq, Repr

namespace Adapter

/-- Makes causes pending. -/
def raise (a : Adapter) (causes : UInt32) : Adapter :=
  a.assign .irqStatus (a.read .irqStatus ||| causes)

/-- Consumes transmit descriptors: the counter in the low half of the register moves on. -/
def consume (a : Adapter) (n : Nat) : Adapter :=
  a.assign .txConsumer ((a.counter .txConsumer).advance n).toUInt32

/-- The slot that the next frame goes to. -/
def receivingSlot (a : Adapter) : Nat := (a.counter .rxConsumer).slot a.rxSlots

/-- The descriptor that the next frame goes to, if its slot was ever written. -/
def receivingDescriptor? (a : Adapter) : Option RxDescriptor := a.rxTable.get? a.receivingSlot

/-- Moves to the next slot in any case, and completes the receiving slot if there is a buffer in
it. -/
def receive (a : Adapter) (frame : Reception) : Adapter :=
  let slot := a.receivingSlot
  let moved := a.assign .rxConsumer ((a.counter .rxConsumer).advance 1).toUInt32
  match moved.rxTable.get? slot with
  | some d =>
      { moved with
        rxTable := moved.rxTable.set slot { d with completion := ⟨frame.status, frame.length⟩ } }
  | none => moved

/-- Where a frame's bytes end up in memory. -/
def storeFrame (a : Adapter) (frame : Reception) (mem : Memory) : Memory :=
  match a.receivingDescriptor? with
  | some d => mem.store d.address frame.pad frame.data
  | none => mem

/-- Whether a direction is switched on. -/
def isOn (a : Adapter) (control : Register) : Bool := hasBits (a.read control) DmaControl.enable

/-- How many descriptors lie between the adapter's counter and the doorbell. -/
def posted (a : Adapter) (producer consumer : Register) : Nat :=
  (a.counter producer).past (a.counter consumer)

/-- How many transmit descriptors the law allows to be consumed. -/
def transmittable (a : Adapter) : Nat :=
  if a.isOn .txDmaControl then a.posted .txProducer .txConsumer else 0

/-- Whether the law allows a buffer to be filled. -/
def fillable (a : Adapter) : Bool :=
  a.isOn .rxDmaControl && a.posted .rxProducer .rxConsumer != 0

/-- What a move does to the adapter. -/
def move (a : Adapter) : Move → Adapter
  | .assign r v => a.assign r v
  | .raise causes => a.raise causes
  | .consume n => a.consume n
  | .receive frame => a.receive frame
  | .transmit n => a.consume (min n a.transmittable)
  | .fill frame => if a.fillable then a.receive frame else a

/-- What a move does to memory. -/
def store (a : Adapter) (mv : Move) (mem : Memory) : Memory :=
  match mv with
  | .receive frame => a.storeFrame frame mem
  | .fill frame => if a.fillable then a.storeFrame frame mem else mem
  | _ => mem

end Adapter

end DescriptorRings
