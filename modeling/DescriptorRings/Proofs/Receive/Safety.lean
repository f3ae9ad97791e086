import DescriptorRings.Machine.Reception
import DescriptorRings.Proofs.Device.Law
import DescriptorRings.Proofs.Receive.Pool
import DescriptorRings.Proofs.Receive.Window

/-!
# What is safe about a receive ring

Each buffer of a pool is in one place at a time: it is free, it lies in a slot of the ring, or the
upper layer has it under a handle.  Between two requests nothing else is possible (`OneOwner`).

The adapter has a say in this as well, since it writes to the buffers in the slots.  What it may
still fill are the buffers from its counter up to the doorbell, and all of those are posted, under
the addresses that it finds in the slots (`RxSafe`).

Such a buffer has to stay where it is until the adapter has filled it.  That is a statement about
two moments (`Scene.LeavesInPlace`).  It covers a little more than what the adapter may fill at
once: a buffer beyond the doorbell waits like the others, since the doorbell is going to be rung for
it.
-/

namespace DescriptorRings

open List

/-! ## One owner -/

/-- The handles that the upper layer has: those of the frames that it holds, and those that it has
detached and not used. -/
def Scene.out (s : Scene) : List ReturnHandle :=
  (s.frames.toList.filterMap id).map Frame.handle ++ s.handles.toList

theorem Scene.out_eq {s s' : Scene} (frames : s'.frames = s.frames) (handles : s'.handles = s.handles) :
    s'.out = s.out := by
  rw [out, frames, handles, out]

/-- There is a ring of the given size and a pool in its place, of which something holds. -/
def Scene.RingOver (s : Scene) (place slots : Nat) (P : RxRing → BufferPool → Prop) : Prop :=
  ∃ r p, s.rx = some r ∧ r.size.slots = slots ∧ (s.pools[place]?.map PoolEntry.pool) = some p ∧
    P r p

/-- **Each buffer has one owner.** -/
structure OneOwner (s : Scene) (r : RxRing) (p : BufferPool) : Prop where
  /-- A slot holds a buffer just when its counter lies between the two counters of the ring. -/
  filled : ∀ n < r.size.slots,
    (r.bufferAt? ((r.consumer.advance n).slot r.size.slots)).isSome ↔
      n < r.producer.past r.consumer
  /-- No buffer lies in two slots, and the buffers in the slots are the posted ones. -/
  posted : p.Lists .posted r.held
  /-- No buffer is on its way to a slot. -/
  acquired : ∀ b, p.stateOf? b ≠ some .acquired
  /-- The delivered buffers are those of held frames and unused handles, one for each. -/
  delivered : p.Lists .delivered (s.out.map ReturnHandle.buffer)
  /-- A buffer that the upper layer has is in no slot. -/
  apart : ∀ h ∈ s.out, ∀ slot, r.bufferAt? slot ≠ some h.buffer
  /-- The ring counts the filled slots. -/
  posted_eq : r.posted = r.held.length
  /-- The pool counts the same buffers. -/
  tally_eq : p.tally.posted = r.held.length
  /-- One slot stays empty. -/
  fits : r.held.length ≤ r.size.slots - 1

/-! ## What the adapter may fill -/

/-- The buffer in the slot of a counter. -/
def Scene.bufferFor? (s : Scene) (c : Counter) : Option BufferId :=
  s.rx.bind fun r => r.bufferAt? (c.slot r.size.slots)

/-- What the adapter may still fill: the buffers that lie from its counter up to the doorbell. -/
structure RxSafe (s : Scene) (r : RxRing) (p : BufferPool) (live : List BufferId) : Prop where
  /-- There is one for each counter. -/
  length_eq : live.length = s.adapter.ahead .rx
  /-- There are fewer than slots. -/
  fits : live.length ≤ r.size.slots - 1
  /-- Different counters have different buffers. -/
  nodup : live.Nodup
  /-- All of them are posted. -/
  posted : ∀ b ∈ live, p.stateOf? b = some .posted
  /-- So is every other buffer in a slot. -/
  held : ∀ slot b, r.bufferAt? slot = some b → p.stateOf? b = some .posted
  /-- They lie in the slots of the counters. -/
  placed : ∀ k b, live[k]? = some b →
    s.bufferFor? ((s.adapter.counter .rxConsumer).advance k) = some b
  /-- **The address last written into the slot of each counter is that of its buffer.** -/
  covered : ∀ k b, live[k]? = some b →
    ∃ address, p.addressOf? b = some address ∧
      s.adapter.rxAddress? (((s.adapter.counter .rxConsumer).advance k).slot r.size.slots) =
        some address

/-! ## Waiting for the adapter -/

/-- A buffer waits in the slot of a counter to be filled: the direction is on, and the adapter has
not passed the slot. -/
structure Scene.Awaits (s : Scene) (c : Counter) (b : BufferId) : Prop where
  /-- The direction is on. -/
  on : s.adapter.isOn .rxDmaControl = true
  /-- The counter lies between that of the adapter and that of the ring. -/
  ahead : ∃ r, s.rx = some r ∧ ∃ k < r.producer.past (s.adapter.counter .rxConsumer),
    c = (s.adapter.counter .rxConsumer).advance k
  /-- The buffer is in the slot. -/
  held : s.bufferFor? c = some b

/-- **Nothing is taken from the adapter.**  A buffer that waited at one moment waits at another,
unless the direction has been switched off or the adapter has passed its slot. -/
def Scene.LeavesInPlace (s s' : Scene) : Prop :=
  ∀ c b, s.Awaits c b → s'.adapter.isOn .rxDmaControl = true →
    s'.Awaits c b ∨
      c.past (s.adapter.counter .rxConsumer) <
        (s'.adapter.counter .rxConsumer).past (s.adapter.counter .rxConsumer)

namespace Scene

variable {s s' : Scene}

/-- **An adapter that moves passes some slots, and leaves the others where they are.** -/
theorem Awaits.moved {c : Counter} {b : BufferId} (h : s.Awaits c b) (rx : s'.rx = s.rx)
    (on : s'.adapter.isOn .rxDmaControl = true) :
    s'.Awaits c b ∨
      c.past (s.adapter.counter .rxConsumer) <
        (s'.adapter.counter .rxConsumer).past (s.adapter.counter .rxConsumer) := by
  obtain ⟨-, ⟨r, hr, k, hk, rfl⟩, held⟩ := h
  set a := s.adapter.counter .rxConsumer
  set a' := s'.adapter.counter .rxConsumer with ha'
  have window : r.producer.past a < Counter.span := Counter.past_lt _ _
  rw [Counter.past_advance a (Nat.lt_trans hk window)]
  by_cases passed : k < a'.past a
  · exact .inr passed
  · refine .inl ⟨on, ⟨r, rx.trans hr, k - a'.past a, ?_, ?_⟩, ?_⟩
    · have rest : r.producer.past a' = r.producer.past a - a'.past a := by
        conv_lhs => rw [← Counter.advance_past a r.producer, ← Counter.advance_past a a']
        exact Counter.past_advance_advance a (by omega) (by omega)
      rw [← ha', rest]
      omega
    · rw [← ha', ← Counter.advance_past a a', Counter.advance_advance, Counter.advance_past]
      exact congrArg _ (by omega)
    · rw [bufferFor?, rx]
      exact held

theorem LeavesInPlace.refl (s : Scene) : s.LeavesInPlace s := fun _ _ awaits _ => .inl awaits

/-- While the adapter does not move, what is left in place twice is left in place. -/
theorem LeavesInPlace.awaits (h : s.LeavesInPlace s') (same : s'.adapter = s.adapter) {c : Counter}
    {b : BufferId} (awaits : s.Awaits c b) : s'.Awaits c b := by
  rcases h c b awaits (same ▸ awaits.on) with awaits' | passed
  · exact awaits'
  · rw [same, Counter.past_self] at passed
    exact absurd passed (Nat.not_lt_zero _)

/-- Where the direction is off there is nothing to be left in place. -/
theorem leavesInPlace_of_off (off : s.adapter.on .rx = false) : s.LeavesInPlace s' :=
  fun _ _ awaits _ => absurd (off.symm.trans awaits.on) Bool.false_ne_true

/-- A change that concerns neither the ring nor the adapter takes nothing away. -/
theorem leavesInPlace_of_rx_eq (rx : s'.rx = s.rx) : s.LeavesInPlace s' :=
  fun _ _ awaits on => awaits.moved rx on

end Scene

end DescriptorRings
