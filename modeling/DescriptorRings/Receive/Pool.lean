import DescriptorRings.Device.Memory
import DescriptorRings.Receive.Handle

/-!
# The receive pool

A pool owns a fixed set of buffers and keeps, for each, who has it:

    free ──acquire──▶ acquired ──▶ posted ──deliver──▶ delivered
     ▲ ▲                 │           │                    │
     │ └─────put back────┘           │                    │
     │ └────────────recycle──────────┘                    │
     └─────────────────────release under a handle─────────┘

Only a free buffer can be acquired, so a buffer whose handle is out can never be posted again.

## How an operation is written

Every edge of the picture is one question and one change.  `obstacle?` asks whether a buffer is in
the state that the edge starts from; `move` changes the state, and puts the buffer back on the list
of free buffers when the edge ends there.  A refused operation asks the question and stops: it has
made no change that would have to be undone.

The free buffers are a stack.  At first it hands out the buffers in the order of their indices;
later the buffer that came back last goes out first.
-/

namespace DescriptorRings

/-- Who has a buffer. -/
inductive BufferState where
  /-- The pool; the buffer can be acquired. -/
  | free
  /-- A ring, which has not written it into a descriptor yet. -/
  | acquired
  /-- A descriptor; the adapter may write to it. -/
  | posted
  /-- The upper layer, under a handle. -/
  | delivered
  deriving DecidableEq, Repr, Inhabited

namespace BufferState

/-- The name of a state. -/
def name : BufferState → String
  | .free => "Free"
  | .acquired => "Acquired"
  | .posted => "Posted"
  | .delivered => "Delivered"

end BufferState

/-- One buffer of a pool. -/
structure Buffer where
  /-- Where the buffer lies. -/
  address : BusAddress
  /-- Who has it. -/
  state : BufferState := .free
  /-- How often it has been delivered, modulo the width of the count. -/
  generation : UInt32 := 0
  deriving DecidableEq, Repr, Inhabited

/-- How many buffers are in each state. -/
structure Tally where
  /-- Free buffers. -/
  free : Nat := 0
  /-- Acquired buffers. -/
  acquired : Nat := 0
  /-- Posted buffers. -/
  posted : Nat := 0
  /-- Delivered buffers. -/
  delivered : Nat := 0
  deriving DecidableEq, Repr

namespace Tally

/-- All buffers. -/
def total (t : Tally) : Nat := t.free + t.acquired + t.posted + t.delivered

/-- Counts one more buffer. -/
def count (t : Tally) : BufferState → Tally
  | .free => { t with free := t.free + 1 }
  | .acquired => { t with acquired := t.acquired + 1 }
  | .posted => { t with posted := t.posted + 1 }
  | .delivered => { t with delivered := t.delivered + 1 }

/-- How a tally is shown. -/
def describe (t : Tally) : String :=
  "PoolCounts \x7b free: " ++ toString t.free ++ ", acquired: " ++ toString t.acquired
    ++ ", posted: " ++ toString t.posted ++ ", delivered: " ++ toString t.delivered ++ " \x7d"

@[simp] theorem total_count (t : Tally) (s : BufferState) : (t.count s).total = t.total + 1 := by
  cases s <;> simp only [count, total] <;> omega

end Tally

/-- A fixed set of receive buffers. -/
structure BufferPool where
  /-- The number that the pool's handles carry. -/
  id : UInt16
  /-- The layout of each buffer. -/
  layout : Layout
  /-- The buffers, by index. -/
  buffers : Array Buffer
  /-- The free buffers; the first is acquired next. -/
  free : List BufferId
  deriving Repr

namespace BufferPool

/-- The pool of blocks that lie at the given addresses, all free. -/
def ofAddresses (id : UInt16) (layout : Layout) (addresses : List BusAddress) : BufferPool where
  id := id
  layout := layout
  buffers := (addresses.map fun a => { address := a }).toArray
  free := (List.range addresses.length).map BufferId.ofNat

/-! ## Questions -/

/-- How many buffers there are. -/
def capacity (p : BufferPool) : Nat := p.buffers.size

/-- Bytes in each buffer. -/
def bufferSize (p : BufferPool) : Nat := p.layout.size

/-- How many buffers can be acquired. -/
def available (p : BufferPool) : Nat := p.free.length

/-- Who has a buffer. -/
def stateOf? (p : BufferPool) (b : BufferId) : Option BufferState :=
  p.buffers[b.index]?.map Buffer.state

/-- Where a buffer lies. -/
def addressOf? (p : BufferPool) (b : BufferId) : Option BusAddress :=
  p.buffers[b.index]?.map Buffer.address

/-- How many buffers are in each state. -/
def tally (p : BufferPool) : Tally := p.buffers.foldl (fun t b => t.count b.state) {}

/-- Where the buffers lie, by index. -/
def addresses (p : BufferPool) : List BusAddress := p.buffers.toList.map Buffer.address

/-- How a pool is shown. -/
def describe (p : BufferPool) : String :=
  "BufferPool \x7b id: " ++ toString p.id.toNat ++ ", capacity: " ++ toString p.capacity
    ++ ", buffer_size: " ++ toString p.bufferSize ++ ", counts: " ++ p.tally.describe ++ " \x7d"

/-- Why a buffer cannot take an edge. -/
inductive Obstacle where
  /-- The pool has no such buffer. -/
  | unknown
  /-- The buffer is in another state than the edge starts from. -/
  | found (state : BufferState)
  deriving DecidableEq, Repr

/-- What keeps a buffer from an edge that starts at `start`, if anything. -/
def obstacle? (p : BufferPool) (b : BufferId) (start : BufferState) : Option Obstacle :=
  match p.stateOf? b with
  | none => some .unknown
  | some s => if s = start then none else some (.found s)

theorem obstacle?_eq_none_iff {p : BufferPool} {b : BufferId} {start : BufferState} :
    p.obstacle? b start = none ↔ p.stateOf? b = some start := by
  unfold obstacle?
  split <;> simp_all

/-- The handle of a buffer's latest delivery. -/
def handleOf (p : BufferPool) (b : BufferId) : ReturnHandle where
  pool := p.id
  buffer := b
  generation := (p.buffers.getD b.index default).generation

/-- Whether a handle gives the right to release its buffer: the buffer is delivered, and the handle
is the one of its latest delivery in this pool. -/
def honours (p : BufferPool) (h : ReturnHandle) : Bool :=
  p.stateOf? h.buffer == some .delivered && p.handleOf h.buffer == h

theorem honours_iff {p : BufferPool} {h : ReturnHandle} :
    p.honours h = true ↔ p.stateOf? h.buffer = some .delivered ∧ p.handleOf h.buffer = h := by
  simp [honours]

/-! ## Changes -/

/-- Gives a buffer a state.  A buffer that becomes free is the next to be acquired. -/
def move (p : BufferPool) (b : BufferId) (state : BufferState) : BufferPool :=
  { p with
    buffers := p.buffers.modify b.index fun x => { x with state := state }
    free := if state = .free then b :: p.free else p.free }

/-- Takes the next free buffer off the stack. -/
def acquireNext (p : BufferPool) : BufferPool :=
  match p.free with
  | [] => p
  | b :: rest =>
    { p with
      buffers := p.buffers.modify b.index fun x => { x with state := .acquired }
      free := rest }

/-- Delivers a buffer: a new generation begins. -/
def deliver (p : BufferPool) (b : BufferId) : BufferPool :=
  { p with
    buffers := p.buffers.modify b.index fun x =>
      { x with state := .delivered, generation := x.generation + 1 } }

/-! ## What a change leaves alone -/

@[simp] theorem capacity_move (p : BufferPool) (b : BufferId) (s : BufferState) :
    (p.move b s).capacity = p.capacity := by
  simp [capacity, move]

@[simp] theorem capacity_deliver (p : BufferPool) (b : BufferId) :
    (p.deliver b).capacity = p.capacity := by
  simp [capacity, deliver]

@[simp] theorem capacity_acquireNext (p : BufferPool) : p.acquireNext.capacity = p.capacity := by
  unfold acquireNext
  split <;> simp [capacity]

theorem stateOf?_move_self {p : BufferPool} {b : BufferId} (h : b.index < p.capacity)
    (s : BufferState) : (p.move b s).stateOf? b = some s := by
  have h : b.index < p.buffers.size := h
  simp only [stateOf?, move, Array.getElem?_modify]
  simp [h]

theorem stateOf?_move_of_ne (p : BufferPool) {b c : BufferId} (h : c ≠ b) (s : BufferState) :
    (p.move b s).stateOf? c = p.stateOf? c := by
  have : b.index ≠ c.index := fun e => h (BufferId.index_inj.mp e).symm
  simp [stateOf?, move, Array.getElem?_modify, this]

end BufferPool

end DescriptorRings
