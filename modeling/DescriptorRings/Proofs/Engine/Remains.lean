import DescriptorRings.Proofs.Engine.Switch
import DescriptorRings.Proofs.Machine.Blocks

/-!
# What a receive ring leaves behind

When a receive ring goes, three things are left: the buffers of its pool, the frames and handles that
the upper layer still has, and the register that switches the direction.  The ring was the only one
who could have moved a posted buffer or written that register.  So from then on, whatever the upper
layer drops and in whatever order, the posted buffers stay posted and the switch stays where the ring
has left it (`RxRemains`).

This decides what the adapter can do to a block that is given back later.  A block may only be given
back while the direction is off, or else the adapter could write into memory that has been granted to
somebody else (`Scene.FreesSafely`).  Neither the pool nor the upper layer looks at the switch: it is
the ring that has to switch the direction off before it goes.

Some of these moments lie within a request, after a buffer was released and before its handle is
forgotten.  As for a ring that is being served, `fresh` are the handles that are on their way.
-/

namespace DescriptorRings

open Relation List

/-! ## Giving blocks back -/

namespace Adapter

variable {a : Adapter} {address : BusAddress}

/-- Whether the adapter may write to a block: the receive direction is on, and one of the descriptors
from its counter up to the doorbell names the block. -/
def Exposes (a : Adapter) (address : BusAddress) : Prop :=
  a.isOn .rxDmaControl = true ∧ ∃ k < a.ahead .rx,
    a.rxAddress? (((a.counter .rxConsumer).advance k).slot a.rxSlots) = some address

instance : Decidable (a.Exposes address) := inferInstanceAs (Decidable (_ ∧ _))

/-- While the direction is off no block is exposed. -/
theorem not_exposes_of_off (off : a.read .rxDmaControl = DmaControl.off) : ¬a.Exposes address := by
  rintro ⟨on, -⟩
  rw [isOn, off] at on
  exact absurd on (by decide)

end Adapter

/-- **What the allocator asks for**: a block that is given back just now is given back while the
receive direction is off, and no descriptor that the adapter may use names it. -/
def Scene.FreesSafely (s : Scene) : Prop :=
  ∀ a, s.Frees a → s.adapter.read .rxDmaControl = DmaControl.off ∧ ¬s.adapter.Exposes a

/-- The switch of the receive direction holds a value, and these buffers of the pool at a place are
posted. -/
def Scene.Abandons (s : Scene) (place : Nat) (v : UInt32) (held : List BufferId) : Prop :=
  s.adapter.read .rxDmaControl = v ∧
    ∃ p, (s.pools[place]?.map PoolEntry.pool) = some p ∧ p.Lists .posted held

theorem Scene.Abandons.freesSafely {s : Scene} {place : Nat} {held : List BufferId}
    (h : s.Abandons place DmaControl.off held) : s.FreesSafely :=
  fun _ _ => ⟨h.1, Adapter.not_exposes_of_off h.1⟩

/-- What may happen after a ring has gone: the upper layer gives back what it has and drops references
to pools, and the adapter goes on. -/
inductive Leaving (permits : Move → Prop) (place : Nat) : Machine → Machine → Prop
  /-- Frames are dropped, handles detached or used, or the adapter makes a move. -/
  | holding {m m' : Machine} (h : Holding permits place m m') : Leaving permits place m m'
  /-- The reference to a pool is dropped. -/
  | dropPool (m : Machine) (other : Nat) : Leaving permits place m (m.dropPool other)
  /-- The adapter changes its plans. -/
  | plan (m : Machine) {agenda : List (List Move)} (h : Machine.Permitted permits agenda) :
      Leaving permits place m { m with agenda := agenda }

/-! ## What stays as it is -/

section Remains

variable {permits : Move → Prop} {place : Nat} {v : UInt32} {held : List BufferId} {k m m' : Machine}
  {fresh : List ReturnHandle}

/-- Since a machine `k` the switch of the receive direction has held one value, and one list of buffers
has been posted. -/
structure RxRemains (place : Nat) (v : UInt32) (held : List BufferId) (k : Machine)
    (fresh : List ReturnHandle) (m : Machine) : Prop where
  /-- Every event is kept. -/
  complete : m.journal.detail = .complete
  /-- The switch holds the value. -/
  switch : m.Reads .rxDmaControl v
  /-- The pool agrees. -/
  pool : ∃ p, m.poolAt? place = some p ∧ p.Ledger [] held (fresh ++ m.toScene.out)
  /-- The frames that are held belong to the pool. -/
  frames : ∀ f, some f ∈ m.frames.toList → f.pool = place
  /-- So it has been at every moment. -/
  past : k.Spans (fun s => s.Abandons place v held) m

namespace RxRemains

theorem abandons (h : RxRemains place v held k fresh m) : m.toScene.Abandons place v held := by
  obtain ⟨p, pool, ledger⟩ := h.pool
  exact ⟨h.switch.value, p, pool, ledger.posted⟩

/-- An event is entered. -/
theorem record (h : RxRemains place v held k fresh m) (e : Event) :
    RxRemains place v held k fresh (m.record e) := by
  have now : (m.record e).toScene.Abandons place v held := by
    rw [Machine.toScene_record]
    exact h.abandons
  refine ⟨?_, h.switch.record e, ?_, ?_, h.past.trans (.record rfl now)⟩
  · rw [Machine.journal_record, Journal.detail_add]
    exact h.complete
  · rw [Machine.poolAt?_record, Machine.toScene_record]
    exact h.pool
  · rw [Machine.toScene_record]
    exact h.frames

theorem give (h : RxRemains place v held k fresh m) (n : Notice) :
    RxRemains place v held k fresh (m.give n) := by
  unfold Machine.give
  split
  · exact h.record _
  · exact h

theorem move (h : RxRemains place v held k fresh m) {mv : Move} (spares : mv.Spares .rxDmaControl) :
    RxRemains place v held k fresh (m.move mv) := by
  have moved : RxRemains place v held k fresh
      { m with memory := m.adapter.store mv m.memory, adapter := m.adapter.move mv } :=
    ⟨h.complete, ⟨(spares m.adapter).trans h.switch.value, h.switch.planned⟩, h.pool, h.frames,
      h.past⟩
  exact moved.record (.moved mv)

/-- Only the entries of the pools change, and no pool. -/
theorem entries (h : RxRemains place v held k fresh m) (other : Nat)
    {f : PoolEntry → PoolEntry} (same : ∀ e, (f e).pool = e.pool) :
    RxRemains place v held k fresh { m with pools := m.pools.modify other f } := by
  obtain ⟨p, pool, ledger⟩ := h.pool
  exact ⟨h.complete, ⟨h.switch.value, h.switch.planned⟩,
    ⟨p, (m.poolAt?_entries same other place).trans pool, ledger⟩, h.frames, h.past⟩

theorem free (h : RxRemains place v held k fresh m) (a : BusAddress) :
    RxRemains place v held k fresh (m.free a) := by
  have freed : RxRemains place v held k fresh { m with memory := m.memory.free a } :=
    ⟨h.complete, ⟨h.switch.value, h.switch.planned⟩, h.pool, h.frames, h.past⟩
  exact freed.record (.freed a)

/-- **A pool is taken down.** -/
theorem reapPool (h : RxRemains place v held k fresh m) (other : Nat) :
    RxRemains place v held k fresh (m.reapPool other) :=
  Machine.keeps_reapPool (fun _ n h => h.give n) (fun _ a h => h.free a)
    (fun _ other h => h.entries other fun _ => rfl) h other

theorem dropPool (h : RxRemains place v held k fresh m) (other : Nat) :
    RxRemains place v held k fresh (m.dropPool other) :=
  (h.entries other (f := fun e => { e with listed := false }) fun _ => rfl).reapPool other

/-! ## Frames and handles -/

/-- The upper layer has the same handles in another arrangement. -/
theorem regroup (h : RxRemains place v held k fresh m) {fresh' : List ReturnHandle}
    (frames : Array (Option Frame)) (handles : Array ReturnHandle)
    (mine : ∀ f, some f ∈ frames.toList → f.pool = place)
    (same : fresh ++ m.toScene.out ~
      fresh' ++ Scene.out { m.toScene with frames := frames, handles := handles }) :
    RxRemains place v held k fresh' { m with frames := frames, handles := handles } := by
  obtain ⟨p, pool, ledger⟩ := h.pool
  exact ⟨h.complete, ⟨h.switch.value, h.switch.planned⟩,
    ⟨p, pool, ledger.perm (.refl _) (.refl _) same⟩, mine, h.past⟩

/-- A handle that is on its way is used. -/
theorem release {w : ReturnHandle} (h : RxRemains place v held k (w :: fresh) m) :
    ∃ m', m.release place w = (.ok (), m') ∧ RxRemains place v held k fresh m' := by
  obtain ⟨p, pool, ledger⟩ := h.pool
  refine ⟨_, Machine.release_eq pool ledger.honours, h.complete,
    ⟨h.switch.value, h.switch.planned⟩, ?_, h.frames, h.past⟩
  exact ⟨_, Machine.poolAt?_setPool pool, ledger.release⟩

/-- A frame that was held comes out of its place. -/
theorem removeFrame {f : Frame} {i : Nat} (h : RxRemains place v held k fresh m)
    (shown : m.frameAt? i = some f) :
    f.pool = place ∧ RxRemains place v held k (f.handle :: fresh) (m.removeFrame i) := by
  refine ⟨h.frames f (mem_of_getElem? (Machine.getElem?_of_frameAt? shown)),
    h.regroup _ m.handles (fun f' hf' => h.frames f' (Machine.mem_frames_removeFrame hf')) ?_⟩
  exact ((Machine.perm_out_removeFrame shown).append_left _).trans perm_middle

theorem dropFrame {f : Frame} (h : RxRemains place v held k (f.handle :: fresh) m)
    (pool : f.pool = place) : RxRemains place v held k fresh (m.dropFrame f) := by
  obtain ⟨m', released, h'⟩ := h.release
  rw [Machine.dropFrame, pool, released]
  exact h'.reapPool place

theorem detachFrame {f : Frame} (h : RxRemains place v held k (f.handle :: fresh) m) :
    RxRemains place v held k fresh (m.detachFrame f) := by
  have h' := h.reapPool f.pool
  unfold Machine.detachFrame
  refine h'.regroup _ _ h'.frames ?_
  exact perm_middle.symm.trans ((Scene.perm_out_push _ f.handle).append_left _)

theorem releaseHandle {w : ReturnHandle} {i : Nat} (h : RxRemains place v held k fresh m)
    (unused : m.handles[i]? = some w) :
    RxRemains place v held k fresh
      { (m.release place w).2 with handles := m.handles.eraseIdxIfInBounds i } := by
  have given : RxRemains place v held k (w :: fresh)
      { m with handles := m.handles.eraseIdxIfInBounds i } := by
    refine h.regroup m.frames _ h.frames ?_
    exact ((Machine.perm_out_erase unused).append_left _).trans perm_middle
  obtain ⟨p, pool, ledger⟩ := given.pool
  obtain ⟨m', released, h'⟩ := given.release
  rw [Machine.release_eq pool ledger.honours] at released
  obtain rfl := (Prod.mk.inj released).2
  rw [Machine.release_eq (m := m) pool ledger.honours]
  exact h'

/-! ## Whatever happens afterwards -/

theorem holding (h : RxRemains place v held k fresh m)
    (spares : ∀ mv, permits mv → mv.Spares .rxDmaControl) (act : Holding permits place m m') :
    RxRemains place v held k fresh m' := by
  cases act with
  | drop shown =>
    obtain ⟨pool, h'⟩ := h.removeFrame shown
    exact h'.dropFrame pool
  | detach shown => exact (h.removeFrame shown).2.detachFrame
  | release unused => exact h.releaseHandle unused
  | reply o => exact h.record _
  | move permitted => exact h.move (spares _ permitted)

/-- **Nothing that happens later changes it.** -/
theorem leaving (h : RxRemains place v held k fresh m)
    (spares : ∀ mv, permits mv → mv.Spares .rxDmaControl) (act : Leaving permits place m m') :
    RxRemains place v held k fresh m' := by
  cases act with
  | holding act => exact h.holding spares act
  | dropPool other => exact h.dropPool other
  | plan permitted =>
    exact ⟨h.complete, h.switch.plan spares permitted, h.pool, h.frames, h.past⟩

theorem run (h : RxRemains place v held k fresh m)
    (spares : ∀ mv, permits mv → mv.Spares .rxDmaControl)
    (acts : ReflTransGen (Leaving permits place) m m') : RxRemains place v held k fresh m' := by
  induction acts with
  | refl => exact h
  | tail _ act ih => exact ih.leaving spares act

/-- Rings and arbiter go. -/
theorem dropRings (h : RxRemains place v held k fresh m) :
    RxRemains place v held k fresh m.dropRings := by
  have gone : RxRemains place v held k fresh
      { m with engine := none, tx := none, rx := none, arbiter := none } :=
    ⟨h.complete, ⟨h.switch.value, h.switch.planned⟩, h.pool, h.frames, h.past⟩
  exact Machine.keeps_dropRings (fun _ n h => h.give n) (fun _ a h => h.free a)
    (fun _ other h => h.entries other fun _ => rfl) gone

end RxRemains

end Remains

end DescriptorRings
