import DescriptorRings.Machine.Pools

/-!
# The upper layer

Whoever uses the rings is called back: with every packet that completes, every frame that arrives,
and every notification that was asked for.  What it does then is laid down beforehand, as one
`Upper` for each request that may call back.

* `disposal k` is what becomes of the `k`-th frame of the request: it is dropped, held, or detached.
* `replies` are what the upper layer does in its callbacks, one reply for each callback of whatever
  kind, in order; when they have run out, callbacks do nothing.

A reply is any change of the machine at all.  It sees the machine of the moment and may make
requests of its own.
-/

namespace DescriptorRings

/-- What becomes of a frame that was delivered. -/
inductive Disposal where
  /-- It is dropped, and its buffer released. -/
  | drop
  /-- It is held. -/
  | hold
  /-- Its handle is detached and kept. -/
  | detach
  deriving DecidableEq, Repr

/-- What the upper layer is going to do in the callbacks of one request. -/
structure Upper where
  /-- What becomes of each frame. -/
  disposal : Nat → Disposal := fun _ => .drop
  /-- How many frames there have been. -/
  frames : Nat := 0
  /-- What is done in each callback to come. -/
  replies : List (Machine → Machine) := []

namespace Upper

/-- An upper layer that drops every frame and does nothing else. -/
def silent : Upper := {}

/-- Goes round a list of disposals; without any, frames are dropped. -/
def cycle (ds : List Disposal) (k : Nat) : Disposal := ds.getD (k % ds.length) .drop

end Upper

/-- A request under way: what it has counted, what the upper layer has yet to do, and the machine. -/
structure Served where
  /-- Packets completed, or frames delivered. -/
  count : Nat
  /-- The upper layer. -/
  upper : Upper
  /-- The machine. -/
  machine : Machine

namespace Served

/-- A request that begins. -/
def start (u : Upper) (m : Machine) : Served := ⟨0, u, m⟩

/-- Changes the machine. -/
def onMachine (s : Served) (f : Machine → Machine) : Served := { s with machine := f s.machine }

/-- The upper layer does what it has laid down for this callback. -/
def reply (s : Served) : Served :=
  match s.upper.replies with
  | [] => s
  | r :: later => { s with upper := { s.upper with replies := later }, machine := r s.machine }

/-- A packet is handed back. -/
def complete (s : Served) (p : Packet) : Served :=
  (s.onMachine fun m => m.record (.completed p)).reply

/-- What becomes of a frame. -/
def dispose (s : Served) (f : Frame) : Served :=
  let d := s.upper.disposal s.upper.frames
  let s := { s with upper := { s.upper with frames := s.upper.frames + 1 } }
  match d with
  | .drop => s.onMachine fun m => m.dropFrame f
  | .hold => s.onMachine fun m => { m with frames := m.frames.push (some f) }
  | .detach => s.onMachine fun m => m.detachFrame f

/-- A frame is handed over. -/
def deliver (s : Served) (f : Frame) : Served :=
  let s := s.onMachine fun m => m.record (.delivered f (f.bytes m.memory))
  (s.dispose f).reply

/-- The upper layer is notified. -/
def notify (s : Served) (d : Direction) : Served :=
  (s.onMachine fun m => m.record (.notified d)).reply

end Served

end DescriptorRings
