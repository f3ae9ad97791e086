import DescriptorRings.Proofs.Machine.Strict
import DescriptorRings.Proofs.Receive.Start

/-!
# The receive ring passes every check

What a receive ring relies on is spread over the ring and its pool: that a slot of the window holds a
buffer, that the pool has this buffer down as posted, that an acquired buffer finds an empty slot.  All
of this is in the guard (`RxGuard`), and the guard holds at every point of a request.  So the request
is followed once more, along with the guard, and each check is passed because of what the guard says at
that point.

Callbacks come in between.  They leave the guard as it is (`RxMeanwhile.keeps`), and so the checks that
come after them are passed as well.
-/

namespace DescriptorRings

open Relation List

/-! ## What is known of any ring -/

namespace Strict

variable {m : Machine} {place : Nat} {p : BufferPool}

theorem unfilled_eq (r : RxRing) : unfilled r = .ok r.unfilled := by
  rw [unfilled, bind_eq (capacity_eq r.size)]
  exact sub_distance_eq r.size r.producer r.consumer

/-- Posted buffers can be taken back, one after the other. -/
theorem foldlM_recycle {batch posted : List BufferId} {out : List ReturnHandle} (bs : List BufferId)
    (pool : m.poolAt? place = some p) (ledger : p.Ledger batch (bs ++ posted) out) :
    bs.foldlM (recycle place) m = .ok (bs.foldl (fun m b => m.recycleOrReport place b) m) := by
  induction bs generalizing m p with
  | nil => rfl
  | cons b bs ih =>
    have state := (ledger.posted.mem_iff b).mp mem_cons_self
    have done := Machine.recycle_eq pool state
    have first : recycle place m b = .ok (m.setPool place (p.move b .free)) := by
      rw [recycle, done]
      rfl
    rw [foldlM_cons, bind_eq first, ih (Machine.poolAt?_setPool pool) ledger.recycle, foldl_cons,
      Machine.recycleOrReport, done]

end Strict

namespace RxAt

variable {T : RxTrack} {x : RxStage} {g : Hands} {m m' : Machine} {n due unrung : Nat}
  {b : BufferId} {batch : List BufferId} {s : Served} {u : Upper}

/-! ## Batches -/

/-- A free buffer is one of the buffers of the pool. -/
theorem passes_acquire (h : RxAt T x g m) :
    Strict.acquire m T.place = .ok (m.acquire T.place) := by
  obtain ⟨r, p, bs, guard⟩ := h.guarded
  have inside (b : BufferId) (free : p.free.head? = some b) :
      Strict.index b.index (Strict.buffersAt m T.place) = .ok () := by
    have state := (guard.ledger.free.mem_iff b).mp (mem_of_mem_head? free)
    rw [Strict.buffersAt, guard.pool]
    exact Strict.index_eq (BufferPool.index_lt_of_stateOf? state)
  rw [Strict.acquire, Machine.acquire_eq guard.pool]
  cases free : p.free.head? with
  | none => rfl
  | some b => exact Strict.bind_eq (inside b free) _

theorem passes_acquireMany (h : RxAt T x { g with batch := [] } m) (count : Nat) :
    Strict.acquireMany m T.place count = .ok (m.acquireMany T.place count) := by
  have each (n : Nat) (k : Machine.Batch) (h : RxAt T x { g with batch := k.buffers } k.machine) :
      Strict.nextOfBatch T.place k = .ok (Machine.Batch.next T.place k) ∧
        ((Machine.Batch.next T.place k).1 = true →
          RxAt T x { g with batch := (Machine.Batch.next T.place k).2.buffers }
            (Machine.Batch.next T.place k).2.machine) := by
    refine ⟨?_, fun _ => h.nextOfBatch.2⟩
    rw [Strict.nextOfBatch, Strict.bind_eq h.passes_acquire, Machine.Batch.next]
    obtain ⟨next, k'⟩ := k.machine.acquire T.place
    cases next <;> rfl
  exact Strict.bind_eq (Strict.loop_eq
    (fun _ (k : Machine.Batch) => RxAt T x { g with batch := k.buffers } k.machine) each h) _

/-- An acquired buffer is written into a slot of the ring, and posted. -/
theorem passes_postBuffer (h : RxAt T x { g with batch := b :: batch } m)
    (posted : m.postBuffer T.place b = (.ok (), m')) : Strict.postBuffer T.place m b = .ok m' := by
  obtain ⟨r, p, bs, guard⟩ := h.guarded
  have inside : (m.rx.map RxRing.tailSlot).getD 0 < Strict.slotsOf m := by
    rw [Strict.slotsOf, guard.rx]
    exact guard.holds.slot_lt r.producer
  rw [Strict.postBuffer, Strict.bind_eq (Strict.index_eq inside), posted]
  rfl

theorem passes_postAll (batch : List BufferId) (h : RxAt T x { g with batch := batch } m)
    (idle : g.taking = .nothing) (room : g.filled + batch.length ≤ T.size.capacity)
    (stays : ∀ (a : Adapter) (r : RxRing) (b : BufferId), x.Knows a r → x.Knows a (r.post b))
    (posted : Machine.forBuffers (fun b m => m.postBuffer T.place b) batch m = (.ok (), m')) :
    batch.foldlM (Strict.postBuffer T.place) m = .ok m' := by
  induction batch generalizing m g with
  | nil => exact congrArg Except.ok (Prod.mk.inj posted).2
  | cons b batch ih =>
    rw [length_cons] at room
    obtain ⟨k, first, hk⟩ := h.post idle (by omega) stays
    rw [Machine.forBuffers, first] at posted
    rw [foldlM_cons, Strict.bind_eq (h.passes_postBuffer first)]
    refine ih (g := { g with filled := g.filled + 1, unrung := g.unrung + 1 }) hk idle ?_ posted
    show g.filled + 1 + batch.length ≤ T.size.capacity
    omega

/-! ## Starting -/

theorem passes_recyclePosted (h : RxAt T x { filled := n } m) :
    Strict.recyclePosted m = .ok m.recyclePosted := by
  obtain ⟨r, p, bs, guard⟩ := h.guarded
  have ledger := guard.between
  rw [← append_nil r.held] at ledger
  unfold Strict.recyclePosted Machine.recyclePosted
  rw [guard.rx, Option.map_some]
  dsimp only
  rw [Strict.bind_eq (Strict.foldlM_recycle r.held (guard.place ▸ guard.pool) ledger)]
  rfl

theorem passes_abortStart (h : RxAt T .silenced { batch := batch } m) (needed : Nat) :
    Strict.abortStart m T.place needed batch = .ok (m.abortStart T.place needed batch) := by
  obtain ⟨k, put, -⟩ := RxAt.putBackAll (g := {}) batch h
  rw [Machine.abortStart, put]
  exact Strict.bind_eq (Strict.foldlM_demand put) _

theorem passes_completeStart (h : RxAt T .silenced { batch := batch } m) (needed : Nat)
    (fits : batch.length ≤ T.size.capacity) :
    Strict.completeStart m T.place needed batch = .ok (m.completeStart T.place needed batch) := by
  have placed : RxAt T .aligned { batch := batch } _ := RxAt.resync (g := { batch := batch }) h rfl
  have room : (0 : Nat) + batch.length ≤ T.size.capacity := (Nat.zero_add _).le.trans fits
  obtain ⟨k, posted, -⟩ := RxAt.postAll (g := {}) batch placed rfl room fun _ _ _ known => known
  have passes := passes_postAll (g := {}) batch placed rfl room (fun _ _ _ known => known) posted
  unfold Machine.completeStart
  dsimp only
  rw [posted]
  exact Strict.bind_eq passes _

/-- **Starting the ring passes every check**, whether it is refused or not. -/
theorem passes_startRx (h : RxAt T .plain { filled := n } m) (allowed : T.switches) :
    Strict.startRx m = .ok m.startRx := by
  obtain ⟨r, p, bs, guard⟩ := h.guarded
  have silenced := h.switchOff allowed
  have emptied := silenced.recyclePosted
  obtain ⟨short, acquired⟩ := RxAt.acquireMany (g := {}) emptied r.size.capacity
  unfold Strict.startRx Machine.startRx
  rw [guard.rx, Option.map_some]
  dsimp only
  rw [Strict.bind_eq (Strict.capacity_eq r.size), Strict.bind_eq silenced.passes_recyclePosted,
    guard.place, Strict.bind_eq (passes_acquireMany (g := {}) emptied _), RxRing.capacity]
  split
  · exact acquired.passes_abortStart _
  · exact acquired.passes_completeStart _ (guard.size ▸ short)

/-! ## Filling up -/

theorem passes_refillOne {f : Machine.Refill}
    (h : RxAt T .plain { filled := n, due := due, unrung := unrung + f.filled } f.machine)
    (room : n < T.size.capacity) :
    Strict.refillOne T.place f = .ok (Machine.refillOne T.place f) ∧
      ((Machine.refillOne T.place f).1 = true →
        RxAt T .plain
          { filled := n + 1
            due := due
            unrung := unrung + (Machine.refillOne T.place f).2.filled }
          (Machine.refillOne T.place f).2.machine) := by
  have passes := h.passes_acquire
  rcases h.acquire with ⟨b, taken, acquired⟩ | ⟨none, -⟩
  · obtain ⟨m', post, posted⟩ := acquired.post rfl room fun _ _ _ known => known
    have posts := acquired.passes_postBuffer post
    rw [Machine.refillOne_of_some taken post]
    refine ⟨?_, fun _ => posted⟩
    rw [Strict.refillOne, Strict.bind_eq passes]
    generalize f.machine.acquire T.place = a at taken posts ⊢
    obtain ⟨_, k⟩ := a
    obtain rfl := taken
    exact Strict.bind_eq posts _
  · rw [Machine.refillOne_of_none none]
    refine ⟨?_, fun again => absurd again Bool.false_ne_true⟩
    rw [Strict.refillOne, Strict.bind_eq passes]
    generalize f.machine.acquire T.place = a at none ⊢
    obtain ⟨_, k⟩ := a
    obtain rfl := none
    rfl

theorem passes_refill (h : RxAt T .plain { filled := n, due := due, unrung := unrung } m) :
    Strict.refill m T.place = .ok (m.refill T.place) := by
  have enough := RxAt.room (g := { due := due, unrung := unrung }) h
  obtain ⟨r, p, bs, guard⟩ := h.guarded
  unfold Strict.refill Machine.refill
  rw [guard.rx] at enough ⊢
  rw [Option.map_some, Option.getD_some] at enough ⊢
  dsimp only
  rw [Strict.bind_eq (Strict.unfilled_eq r)]
  refine Strict.loop_eq (fun rounds (f : Machine.Refill) => ∃ n, n + rounds ≤ T.size.capacity ∧
    RxAt T .plain { filled := n, due := due, unrung := unrung + f.filled } f.machine) ?_ ⟨n, enough, h⟩
  rintro rounds f ⟨n, enough, h⟩
  obtain ⟨passes, next⟩ := h.passes_refillOne (by omega)
  exact ⟨passes, fun again => ⟨n + 1, by omega, next again⟩⟩

/-! ## Taking completions in -/

/-- A frame that was just shown can be dropped. -/
theorem passes_dispose {f : Frame} {fresh : List ReturnHandle}
    (h : RxAt T x { g with fresh := f.handle :: fresh } s.machine) (pool : f.pool = T.place) :
    Strict.dispose s f = .ok (s.dispose f) := by
  obtain ⟨m', released, -⟩ := h.release
  have drops : Strict.dropFrame s.machine f = .ok (m'.reapPool T.place) := by
    rw [Strict.dropFrame, pool, released]
    rfl
  unfold Strict.dispose
  split
  · exact Strict.bind_eq drops _
  · rfl

/-- A frame is as long as the completion says, less what is left in front of it. -/
theorem passes_deliverFrame {c : Completion} {r : RxRing} {p : BufferPool}
    (h : RxAt T .plain { g with transit := [b], taking := .read b c } s.machine)
    (rx : s.machine.rx = some r) (pool : s.machine.poolAt? T.place = some p)
    (whole : r.deliverable p.bufferSize c = true) :
    Strict.deliverFrame s T.place b (p.base b) c.length.toNat =
      .ok (Machine.deliverFrame s T.place b (p.base b) c.length.toNat) := by
  have state : p.stateOf? b = some .posted := by
    obtain ⟨r', p', bs, guard⟩ := h.guarded
    obtain rfl : p' = p := Option.some.inj (guard.pool.symm.trans pool)
    exact (guard.ledger.posted.mem_iff b).mp (mem_append_right _ mem_cons_self)
  have inside : b.index < Strict.buffersAt s.machine T.place := by
    rw [Strict.buffersAt, pool]
    exact BufferPool.index_lt_of_stateOf? state
  have padded : r.pad ≤ c.length.toNat := by
    have fits := (Bool.and_eq_true_iff.mp whole).2
    exact of_decide_eq_true (Bool.and_eq_true_iff.mp fits).1
  have placed : (s.machine.setPool T.place (p.deliver b)).rx = some r := rx
  have shown := h.showFrame rx pool whole
  have disposes := passes_dispose (g := { g with transit := [], taking := _ })
    (s := ⟨s.count + 1, s.upper, s.machine.showFrame T.place r p b c⟩) shown rfl
  rw [Machine.deliverFrame_eq rx pool state]
  have marked : Strict.demand (s.machine.markDelivered T.place b) =
      .ok ((p.deliver b).handleOf b, s.machine.setPool T.place (p.deliver b)) := by
    rw [Machine.markDelivered_eq pool state]
    rfl
  unfold Strict.deliverFrame
  rw [Strict.bind_eq (Strict.index_eq inside), Strict.bind_eq marked]
  dsimp only
  rw [placed, Option.map_some, Option.getD_some, Strict.bind_eq (Strict.sub_eq padded),
    Machine.modifyRx_eq_setRx placed]
  exact Strict.bind_eq disposes _

/-- A completion that is no frame gives its buffer back. -/
theorem passes_dropCompletion {c : Completion}
    (h : RxAt T .plain { g with transit := [b], taking := .read b c } m) :
    Strict.dropCompletion m T.place b c = .ok (m.dropCompletion T.place b c) := by
  obtain ⟨r, p, bs, guard⟩ := h.guarded
  have state := (guard.ledger.posted.mem_iff b).mp (mem_append_right _ mem_cons_self)
  have pool : ((m.give (.rxDropping c)).modifyRx RxRing.noteFramingError).poolAt? T.place = some p :=
    (m.poolAt?_give _ _).trans guard.pool
  have done := Machine.recycle_eq pool state
  rw [Strict.dropCompletion, Strict.recycle, Machine.dropCompletion, Machine.recycleOrReport, done]
  rfl

theorem passes_takeCompletion {c : Completion}
    (h : RxAt T .plain { g with transit := [b], taking := .read b c } s.machine) :
    Strict.takeCompletion s T.place b c = .ok (Machine.takeCompletion s T.place b c) := by
  obtain ⟨r, p, bs, guard⟩ := h.guarded
  have posted := (guard.ledger.posted.mem_iff b).mp (mem_append_right _ mem_cons_self)
  unfold Strict.takeCompletion Machine.takeCompletion
  dsimp only
  rw [guard.rx, guard.pool, Option.map_some, Option.getD_some, Option.any_some, Option.bind_some,
    BufferPool.addressOf?_eq_base posted]
  split
  case isTrue whole => exact h.passes_deliverFrame guard.rx guard.pool whole
  case isFalse => exact Strict.bind_eq h.passes_dropCompletion _

/-- **A completion that is due passes every check**: its slot holds a buffer. -/
theorem passes_takeSlot
    (h : RxAt T .plain { filled := n, due := due + 1, unrung := unrung } s.machine) :
    Strict.takeSlot s T.place = .ok (Machine.takeSlot s T.place) := by
  obtain ⟨b, slot, known, passed⟩ := RxAt.pass (g := { filled := n, unrung := unrung }) h rfl
  obtain ⟨c, k, read, look⟩ :=
    RxAt.take (g := { filled := n - 1, due := due, unrung := unrung, transit := [b] }) passed
  have inside : slot < Strict.slotsOf s.machine := by
    obtain ⟨r, p, bs, guard⟩ := h.guarded
    rw [guard.rx, Option.map_some] at known
    obtain ⟨rfl, -⟩ := Prod.mk.inj (Option.some.inj known)
    rw [Strict.slotsOf, guard.rx]
    exact guard.holds.slot_lt r.consumer
  unfold Strict.takeSlot Machine.takeSlot
  rw [known]
  dsimp only [Served.onMachine]
  rw [Strict.bind_eq (Strict.index_eq inside), read]
  exact passes_takeCompletion (g := { filled := n - 1, due := due, unrung := unrung })
    (s := { s with machine := k }) look

/-! ## A whole service -/

theorem passes_refillService {k : Machine.RxService}
    (h : RxAt T .plain { filled := n, due := due, unrung := unrung } k.served.machine) :
    Strict.refillService k T.place = .ok (k.refill T.place) :=
  Strict.bind_eq h.passes_refill _

/-- A round begins with a completion that is due, and so does the next. -/
theorem passes_round {k : Machine.RxService}
    (h : RxAt T .plain { filled := n, due := due + 1, unrung := k.filled } k.served.machine)
    (abides : k.served.upper.Abides (RxMeanwhile T.permits T.place)) :
    Strict.round T.place k = .ok (Machine.RxService.round T.place k) := by
  obtain ⟨⟨n', taken⟩, -⟩ := h.takeSlot abides
  have refills : Strict.refillService { k with served := Machine.takeSlot k.served T.place } T.place =
      .ok (Machine.RxService.refill { k with served := Machine.takeSlot k.served T.place } T.place) :=
    taken.passes_refillService
  rw [Strict.round, Strict.bind_eq h.passes_takeSlot, Strict.bind_eq refills]
  rfl

theorem passes_serveRx (h : RxAt T .plain { filled := n } m)
    (abides : u.Abides (RxMeanwhile T.permits T.place)) :
    Strict.serveRx m u T.place = .ok (m.serveRx u T.place) := by
  obtain ⟨k, read, ⟨r, p, bs, guard⟩, run⟩ := h.readCounter .rxConsumer
  have announced : RxAt T .plain
      { filled := n, due := r.ready (k.adapter.counter .rxConsumer) } k :=
    ⟨⟨r, p, bs, guard.announce⟩, run⟩
  have checked := announced.checkRxReading (k.adapter.counter .rxConsumer)
  set c := k.adapter.counter .rxConsumer
  set begun : Machine.RxService := ⟨.start u (k.checkRxReading c), 0⟩
  -- as many completions are due as rounds are left
  have rounds : Strict.loop (Strict.round T.place) (r.ready c) begun =
      .ok (loop (Machine.RxService.round T.place) (r.ready c) begun) := by
    refine Strict.loop_eq (fun due (s : Machine.RxService) =>
      (∃ n, RxAt T .plain { filled := n, due := due, unrung := s.filled } s.served.machine) ∧
        s.served.upper.Abides (RxMeanwhile T.permits T.place)) ?_ ⟨⟨n, checked⟩, abides⟩
    rintro due s ⟨⟨n, h⟩, abides⟩
    obtain ⟨⟨n₁, taken⟩, abides'⟩ := h.takeSlot abides
    obtain ⟨n₂, refilled⟩ := taken.refill
    exact ⟨h.passes_round abides, fun _ => ⟨⟨n₂, refilled⟩, abides'⟩⟩
  rw [← Nat.zero_add (r.ready c)] at checked
  obtain ⟨⟨n₁, served⟩, -⟩ := serveRounds (r.ready c) (s := begun) checked abides
  unfold Strict.serveRx Machine.serveRx
  rw [read]
  dsimp only
  rw [guard.rx, Option.map_some, Option.getD_some, Strict.bind_eq rounds,
    Strict.bind_eq served.passes_refillService]
  rfl

/-- **Serving the ring passes every check**, whatever the adapter reports. -/
theorem passes_advanceRx (h : RxAt T .plain { filled := n } m)
    (abides : u.Abides (RxMeanwhile T.permits T.place)) :
    Strict.advanceRx m u = .ok (m.advanceRx u) := by
  obtain ⟨r, p, bs, guard⟩ := h.guarded
  unfold Strict.advanceRx Machine.advanceRx
  rw [guard.rx]
  dsimp only
  cases r.phase with
  | stopped => rfl
  | cancelled => exact Strict.bind_eq h.passes_recyclePosted _
  | running =>
    rw [guard.place]
    exact h.passes_serveRx abides

end RxAt

end DescriptorRings
