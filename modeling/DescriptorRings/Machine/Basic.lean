import DescriptorRings.Machine.Event

/-!
# The machine

The machine is everything at once: the adapter, the shared memory, the pools, the rings and the
arbiter, what the upper layer holds, and the journal.  One value holds them all because the upper
layer may make requests of its own while it is being called, and a request made then must see the
parts exactly as they are at that point.  An operation on the rings is therefore never a computation
on a ring alone: it changes the machine in small steps, and whoever is called between two of them is
given the machine of that moment.

## Several adapters

One adapter is at work at a time, with the rings and the arbiter over it.  Whatever stands over
other adapters waits *aside*, and can be brought to work.  The allocator, the pools and what the
upper layer holds are common to all of them.

## Who moves between two accesses

The adapter works while software does.  Its own moves are laid down in the *agenda*: before every
access of software to the adapter, one entry of the agenda is carried out.  With an empty agenda the
adapter moves only when it is told to.

## Moments

A machine can be asked to remember its *moments*: the scene as it stood after every event and after
every move of the adapter.  A statement about "every moment of a run" is a statement about all
members of that list.  A machine that is not asked remembers nothing and behaves the same.

## Waiting for good

A request may have to wait for something that only its own caller could bring about.  There is no
answer then, and the machine marks that it is `stalled`: whatever it shows afterwards answers
nothing.
-/

namespace DescriptorRings

/-! ## The parts -/

/-- A pool among the machine's pools. -/
structure PoolEntry where
  /-- The pool. -/
  pool : BufferPool
  /-- Whether whoever made the pool still refers to it. -/
  listed : Bool := true
  /-- Whether the pool still has its blocks. -/
  live : Bool := true
  deriving Repr

/-- An engine: both rings, the arbiter and one pool under a single configuration. -/
structure Engine where
  /-- What the engine was configured with. -/
  config : Config
  /-- The place of its pool. -/
  pool : Nat
  deriving Repr

/-- The rings and the arbiter over one adapter. -/
structure Assembly where
  /-- The adapter. -/
  adapter : Adapter := {}
  /-- The transmit ring. -/
  tx : Option TxRing := none
  /-- The receive ring. -/
  rx : Option RxRing := none
  /-- The arbiter. -/
  arbiter : Option Arbiter := none
  /-- The engine that owns the rings and the arbiter, if one does. -/
  engine : Option Engine := none

/-- Everything that can be looked at. -/
structure Scene where
  /-- The adapter. -/
  adapter : Adapter := {}
  /-- The memory that software and adapter share. -/
  memory : Memory := {}
  /-- All pools ever made; a pool's place in this list is never used again. -/
  pools : Array PoolEntry := #[]
  /-- The transmit ring. -/
  tx : Option TxRing := none
  /-- The receive ring. -/
  rx : Option RxRing := none
  /-- The arbiter. -/
  arbiter : Option Arbiter := none
  /-- The engine that owns the rings and the arbiter, if one does. -/
  engine : Option Engine := none
  /-- Frames that the upper layer held on to; a place is emptied when its frame goes. -/
  frames : Array (Option Frame) := #[]
  /-- Handles that the upper layer was given, used ones included. -/
  handles : Array ReturnHandle := #[]
  /-- The direction whose notifications are being waited for without hope. -/
  stalled : Option Direction := none
  /-- What happened. -/
  journal : Journal := {}
  /-- What stands over other adapters.  Memory and pools are common to all. -/
  aside : List Assembly := []

/-- The machine: the scene, the adapter's own plans, and the moments remembered. -/
structure Machine extends Scene where
  /-- What the adapter does of its own accord before each access. -/
  agenda : List (List Move) := []
  /-- The moments so far, the latest first, if they are remembered. -/
  moments : Option (List Scene) := none

namespace Machine

/-! ## Remembering -/

/-- Remembers the present moment. -/
def remember (m : Machine) : Machine :=
  match m.moments with
  | none => m
  | some past => { m with moments := some (m.toScene :: past) }

/-- Enters an event in the journal. -/
def record (m : Machine) (e : Event) : Machine :=
  { m with journal := m.journal.add e }.remember

/-- Gives a notice, if notices of its level are given. -/
def give (m : Machine) (n : Notice) : Machine :=
  if m.journal.gives n.level then m.record (.noticed n) else m

/-- Gives a notice if a condition holds. -/
def giveIf (m : Machine) (condition : Bool) (n : Notice) : Machine :=
  if condition then m.give n else m

/-- Runs something without entering any event in the journal. -/
def muted (m : Machine) (act : Machine → Machine) : Machine :=
  let detail := m.journal.detail
  let after := act { m with journal := { m.journal with detail := .nothing } }
  { after with journal := { after.journal with detail := detail } }

/-! ## Changing a part -/

/-- Changes the transmit ring, if there is one. -/
def modifyTx (m : Machine) (f : TxRing → TxRing) : Machine := { m with tx := m.tx.map f }

/-- Changes the receive ring, if there is one. -/
def modifyRx (m : Machine) (f : RxRing → RxRing) : Machine := { m with rx := m.rx.map f }

/-- Changes the arbiter, if there is one. -/
def modifyArbiter (m : Machine) (f : Arbiter → Arbiter) : Machine :=
  { m with arbiter := m.arbiter.map f }

/-- Changes the pool at a place, if there is one. -/
def modifyPool (m : Machine) (place : Nat) (f : BufferPool → BufferPool) : Machine :=
  { m with pools := m.pools.modify place fun e => { e with pool := f e.pool } }

/-- The pool at a place. -/
def poolAt? (m : Machine) (place : Nat) : Option BufferPool := m.pools[place]?.map PoolEntry.pool

/-! ## Moves of the adapter -/

/-- What a move comes to for whoever asks for it: how far the adapter has consumed, or the slot that
a frame goes to. -/
def moveOutcome (m : Machine) : Move → Outcome
  | .assign _ _ | .raise _ | .transmit _ | .fill _ => .done
  | .consume n => .count ((m.adapter.consume n).read .txConsumer).toNat
  | .receive _ => .ofCount? (m.adapter.receivingDescriptor?.map fun _ => m.adapter.receivingSlot)

/-- The adapter makes a move. -/
def move (m : Machine) (mv : Move) : Machine :=
  let m := { m with memory := m.adapter.store mv m.memory }
  { m with adapter := m.adapter.move mv }.record (.moved mv)

/-- The adapter's turn: one entry of the agenda is carried out. -/
def turn (m : Machine) : Machine :=
  match m.agenda with
  | [] => m
  | moves :: later => moves.foldl move { m with agenda := later }

@[simp] theorem turn_of_no_agenda {m : Machine} (h : m.agenda = []) : m.turn = m := by
  simp [turn, h]

/-! ## Accesses to the adapter -/

/-- Reads a register. -/
def read (m : Machine) (r : Register) : UInt32 × Machine :=
  let m := m.turn
  let v := m.adapter.read r
  (v, m.record (.read r v))

/-- Reads the counter in the low half of a register. -/
def readCounter (m : Machine) (r : Register) : Counter × Machine :=
  let (v, m) := m.read r
  (v.toUInt16, m)

/-- Writes a register. -/
def write (m : Machine) (r : Register) (v : UInt32) : Machine :=
  let m := m.turn
  { m with adapter := m.adapter.write r v }.record (.wrote r v)

/-- Writes a counter to a register. -/
def writeCounter (m : Machine) (r : Register) (c : Counter) : Machine := m.write r c.toUInt32

/-- Writes a transmit descriptor. -/
def writeTx (m : Machine) (slot : Nat) (d : TxDescriptor) : Machine :=
  let m := m.turn
  { m with adapter := m.adapter.writeTx slot d }.record (.wroteTx slot d)

/-- Posts an empty buffer in a receive slot. -/
def writeRx (m : Machine) (slot : Nat) (address : BusAddress) (capacity : UInt32) : Machine :=
  let m := m.turn
  { m with adapter := m.adapter.writeRx slot address capacity }.record
    (.wroteRx slot address capacity)

/-- Reads the completion word of a receive slot. -/
def readCompletion (m : Machine) (slot : Nat) : Completion × Machine :=
  let m := m.turn
  let c := m.adapter.completionAt slot
  (c, m.record (.readCompletion slot c))

/-! ## Memory -/

/-- Asks the allocator for a block. -/
def allocate (m : Machine) (layout : Layout) : Option BusAddress × Machine :=
  let (address, memory) := m.memory.allocate layout
  (address, { m with memory := memory }.record (.allocated layout address))

/-- Gives a block back. -/
def free (m : Machine) (address : BusAddress) : Machine :=
  { m with memory := m.memory.free address }.record (.freed address)

end Machine

end DescriptorRings
