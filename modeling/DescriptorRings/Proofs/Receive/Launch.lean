import DescriptorRings.Proofs.Engine.Silence
import DescriptorRings.Proofs.Receive.Ownership

/-!
# Starting a receive ring fills it or frees it

A start takes back what is left from an earlier run, acquires a buffer for every usable slot, and posts
the whole batch if it is complete.  Otherwise it puts the batch back.  So there are two outcomes, and
which of them it is depends on one number: how many buffers are not delivered.

What is done on the way (`Machine.Does`) says which outcome it is.  In the first one
(`Machine.RxLaunched`) it is a list of accesses that is known to the last: the direction is switched
off, the adapter's counter is read, one descriptor is written for each slot from that counter on, the
doorbell is rung behind all of them, and only then the direction is switched on.  In the second one
(`Machine.RxRefused`) the direction is switched off, and that is all.

After a refusal the ring is as good as dead until a start succeeds: serving it changes nothing whatever
else happens meanwhile.
-/

namespace DescriptorRings

open Relation List

/-! ## Posting a batch -/

namespace RxRing

/-- Only the slots and the producer counter change when buffers are posted. -/
theorem foldl_post (batch : List BufferId) (r : RxRing) :
    (batch.foldl post r).consumer = r.consumer ∧ (batch.foldl post r).size = r.size ∧
      (batch.foldl post r).stats = r.stats := by
  induction batch generalizing r with
  | nil => exact ⟨rfl, rfl, rfl⟩
  | cons b batch ih => exact ih (r.post b)

/-- Clearing an empty ring does nothing. -/
theorem Holds.clear_eq {r : RxRing} (empty : r.Holds []) : r.clear = r := by
  have held : r.held = [] := empty.held.eq_nil
  have vacant : (r.slots.map fun _ => none) = r.slots := by
    refine Array.ext (Array.size_map) fun i _ inside => ?_
    rw [Array.getElem_map]
    have here := filterMap_eq_nil_iff.mp held r.slots[i] (Array.getElem_mem_toList inside)
    exact here.symm
  have producer : r.producer = r.consumer := empty.producer.trans (Counter.advance_zero _)
  unfold RxRing.clear
  rw [held, vacant]
  obtain ⟨pool, size, pad, c, c', slots, phase, stats⟩ := r
  obtain rfl : c' = c := producer
  rfl

/-- A batch for which there is room joins the window in order. -/
theorem Holds.posts {batch bs : List BufferId} {r : RxRing} (holds : r.Holds bs)
    (room : bs.length + batch.length ≤ r.capacity) :
    (batch.foldl RxRing.post r).Holds (bs ++ batch) := by
  induction batch generalizing r bs with
  | nil => rwa [append_nil]
  | cons b batch ih =>
    rw [length_cons] at room
    have next := ih (holds.post (by omega) b) (by
      rw [length_append, length_singleton]
      show bs.length + 1 + batch.length ≤ r.capacity
      omega)
    rwa [append_assoc] at next

end RxRing

namespace Machine

variable {m : Machine} {r : RxRing} {p : BufferPool} {out : List ReturnHandle} {place : Nat}

/-- The descriptors of a batch, in the slots from a counter on. -/
def rxWrites (p : BufferPool) (size : Nat) (c : Counter) (batch : List BufferId) : List Event :=
  (c.row size batch).map fun (slot, b) => .wroteRx slot (p.base b) (UInt32.ofNat p.bufferSize)

theorem rxWrites_cons (p : BufferPool) (size : RingSize) (c : Counter) (b : BufferId)
    (batch : List BufferId) :
    rxWrites p size.slots c (b :: batch) =
      .wroteRx (c.slot size.slots) (p.base b) (UInt32.ofNat p.bufferSize) ::
        rxWrites p size.slots (c.advance 1) batch := by
  rw [rxWrites, ← singleton_append, Counter.row_append, map_append]
  rfl

/-- Descriptors say where buffers are, not in which state. -/
theorem rxWrites_congr {p' : BufferPool} (kept : p.Kept p') (size : Nat) (c : Counter)
    (batch : List BufferId) : rxWrites p' size c batch = rxWrites p size c batch := by
  have bufferSize : p'.bufferSize = p.bufferSize := congrArg Layout.size kept.layout
  simp only [rxWrites, kept.base, bufferSize]

/-- **A batch is posted in a row.** -/
theorem postAll_eq (batch : List BufferId) {bs : List BufferId} (rx : m.rx = some r)
    (pool : m.poolAt? place = some p) (ledger : p.Ledger batch bs out) :
    ∃ m' p', forBuffers (fun b m => m.postBuffer place b) batch m = (.ok (), m') ∧
      m'.rx = some (batch.foldl RxRing.post r) ∧ m'.poolAt? place = some p' ∧ p.Kept p' ∧
      p'.Ledger [] (batch.reverse ++ bs) out ∧
      m.Does (rxWrites p r.size.slots r.producer batch) m' := by
  induction batch generalizing m r p bs with
  | nil => exact ⟨m, p, rfl, rx, pool, .refl p, ledger, .of_journal_eq rfl⟩
  | cons b batch ih =>
    have state := (ledger.acquired.mem_iff b).mp mem_cons_self
    have pool' : m.turn.poolAt? place = some p := (m.poolAt?_turn place).trans pool
    have posted := postBuffer_eq (m.rx_turn.trans rx) pool' state
    set k := m.turn.pokeRx r.tailSlot (p.base b) (UInt32.ofNat p.bufferSize) with hk
    have there : k.poolAt? place = some p := by
      rw [hk, pokeRx, poolAt?_record]
      exact pool'
    have kept := p.kept_move b .posted
    obtain ⟨m', p', all, rx', pool'', kept', ledger', does⟩ :=
      ih (m := (k.setPool place (p.move b .posted)).setRx (r.post b)) rfl (poolAt?_setPool there)
        ledger.post
    refine ⟨m', p', ?_, rx', pool'', kept.trans kept', ?_, ?_⟩
    · rw [forBuffers, posted]
      exact all
    · rwa [reverse_cons, append_assoc]
    · have wrote : m.turn.Does [.wroteRx r.tailSlot (p.base b) (UInt32.ofNat p.bufferSize)] k :=
        .of_journal_add (journal_record _ _) rfl
      have first : m.Does [.wroteRx r.tailSlot (p.base b) (UInt32.ofNat p.bufferSize)]
          ((k.setPool place (p.move b .posted)).setRx (r.post b)) :=
        ((Does.turn m).trans wrote).quiet rfl
      rw [rxWrites_cons, ← rxWrites_congr kept]
      exact first.trans does

/-- Taking posted buffers back is nothing that is seen from outside. -/
theorem does_recyclePosted (rx : m.rx = some r) (pool : m.poolAt? r.pool = some p)
    (ledger : p.Ledger [] r.held out) : m.Does [] m.recyclePosted := by
  obtain ⟨p', emptied, -⟩ := recyclePosted_eq rx pool ledger
  have cleared : m.Does [] ((m.setPool r.pool p').setRx r.clear) := .of_journal_eq rfl
  rw [emptied]
  exact cleared.trans (.giveIf _ _ _)

/-- At first the direction is switched off. -/
theorem does_before_start (rx : m.rx = some r) (pool : m.poolAt? r.pool = some p)
    (ledger : p.Ledger [] r.held out) :
    m.Does [.wrote .rxDmaControl DmaControl.off]
      (m.write .rxDmaControl DmaControl.off).recyclePosted :=
  (Does.write m _ _).trans (does_recyclePosted ((m.rx_write _ _).trans rx)
    ((m.poolAt?_write .rxDmaControl DmaControl.off r.pool).trans pool) ledger)

/-- **What a start does with a complete batch.** -/
theorem completeStart_eq {batch : List BufferId} (rx : m.rx = some r)
    (pool : m.poolAt? place = some p) (ledger : p.Ledger batch [] out) (holds : r.Holds [])
    (room : batch.length ≤ r.capacity) (needed : Nat) :
    ∃ v m' p', m.completeStart place needed batch = (.ok (), m') ∧
      m'.rx = some ((batch.foldl RxRing.post (r.resync v.toUInt16)).enter .running) ∧
      m'.poolAt? place = some p' ∧ p.Kept p' ∧ p'.Ledger [] (batch.reverse ++ []) out ∧
      m.Does (.read .rxConsumer v :: rxWrites p r.size.slots v.toUInt16 batch ++
        [.wrote .rxProducer (Counter.advance v.toUInt16 batch.length).toUInt32,
          .wrote .rxDmaControl DmaControl.enable]) m' := by
  set v := (m.read .rxConsumer).1 with hv
  have placed : (m.read .rxConsumer).2.rx = some r := by
    rw [read, toScene_record]
    exact m.rx_turn.trans rx
  have stocked : (m.read .rxConsumer).2.poolAt? place = some p := by
    rw [read, poolAt?_record]
    exact (m.poolAt?_turn place).trans pool
  obtain ⟨k, p', posted, rx', pool', kept, ledger', wrote⟩ :=
    postAll_eq (m := (m.read .rxConsumer).2.setRx (r.resync v.toUInt16)) batch rfl stocked ledger
  -- the window ends behind the batch
  have fits : ([] : List BufferId).length + batch.length ≤ (r.resync v.toUInt16).capacity :=
    (Nat.zero_add _).le.trans room
  have window := (holds.resync v.toUInt16).posts fits
  have ends : (batch.foldl RxRing.post (r.resync v.toUInt16)).producer =
      Counter.advance v.toUInt16 batch.length := by
    rw [window.producer, (RxRing.foldl_post batch _).1]
    rfl
  set q := batch.foldl RxRing.post (r.resync v.toUInt16)
  set k' := k.setRx (q.enter .running) with hk'
  refine ⟨v, ((k'.writeCounter .rxProducer q.producer).write .rxDmaControl DmaControl.enable).give
    (.rxStarted v.toUInt16 needed), p', ?_, ?_, ?_, kept, ledger', ?_⟩
  · have resynced : (m.read .rxConsumer).2.modifyRx (fun r => r.resync v.toUInt16) =
        (m.read .rxConsumer).2.setRx (r.resync v.toUInt16) := modifyRx_eq_setRx placed _
    have entered : k.modifyRx (fun r => r.enter .running) = k' := modifyRx_eq_setRx rx' _
    unfold completeStart readCounter
    dsimp only
    rw [← hv, resynced, posted]
    dsimp only
    rw [entered]
    rfl
  · rw [rx_give, rx_write, writeCounter, rx_write]
    rfl
  · rw [poolAt?_give, poolAt?_write, writeCounter, poolAt?_write]
    exact pool'
  · have looked : m.Does [.read .rxConsumer v]
        ((m.read .rxConsumer).2.setRx (r.resync v.toUInt16)) := (Does.read m .rxConsumer).quiet rfl
    have filled : m.Does ([.read .rxConsumer v] ++ rxWrites p r.size.slots v.toUInt16 batch) k' :=
      (looked.trans wrote).quiet rfl
    have rung := filled.trans (Does.write k' .rxProducer q.producer.toUInt32)
    have all := rung.trans (Does.write _ .rxDmaControl DmaControl.enable)
    rw [append_assoc] at all
    rw [← ends]
    exact all.given _

/-- It stays off while buffers are taken back. -/
theorem off_before_start (rx : m.rx = some r) (pool : m.poolAt? r.pool = some p)
    (ledger : p.Ledger [] r.held out) :
    (m.write .rxDmaControl DmaControl.off).recyclePosted.adapter.read .rxDmaControl =
      DmaControl.off := by
  obtain ⟨p', emptied, -⟩ := recyclePosted_eq ((m.rx_write .rxDmaControl DmaControl.off).trans rx)
    ((m.poolAt?_write .rxDmaControl DmaControl.off r.pool).trans pool) ledger
  rw [emptied, adapter_giveIf]
  show (m.write .rxDmaControl DmaControl.off).adapter.read .rxDmaControl = DmaControl.off
  rw [write, toScene_record]
  exact Adapter.read_write_self _ _ _

/-- There is nothing to take back from an empty ring. -/
theorem recyclePosted_of_empty (rx : m.rx = some r) (empty : r.Holds []) : m.recyclePosted = m := by
  have held : r.held = [] := empty.held.eq_nil
  have cleared : m.modifyRx RxRing.clear = m := by
    rw [modifyRx_eq_setRx rx, empty.clear_eq, setRx, ← rx]
  unfold recyclePosted
  rw [rx, Option.map_some]
  dsimp only
  rw [held, foldl_nil, cleared]
  rfl

end Machine

/-! ## The two outcomes -/

/-- **What a start leaves in any case**, of a ring `r` over a pool `p`. -/
structure Machine.RxRestarted (place : Nat) (m : Machine) (r r' : RxRing) (p p' : BufferPool) :
    Prop where
  /-- The ring afterwards. -/
  rx : m.startRx.2.rx = some r'
  /-- The pool afterwards. -/
  pool : m.startRx.2.poolAt? place = some p'
  /-- Its buffers are the same ones. -/
  kept : p.Kept p'
  /-- **What was posted before is counted as taken back**, and nothing else is counted. -/
  counted : r'.stats = { r.stats with discarded := r.stats.discarded + r.posted }
  /-- A buffer that was delivered is left alone. -/
  delivered : ∀ b, p.stateOf? b = some .delivered → p'.buffers[b.index]? = p.buffers[b.index]?
  /-- The upper layer has the same frames and handles. -/
  held : m.startRx.2.frames = m.frames ∧ m.startRx.2.handles = m.handles

/-- **A start succeeds.**  The value `v` was read, and the buffers of the batch are posted. -/
structure Machine.RxLaunched (place : Nat) (m : Machine) (r r' : RxRing) (p p' : BufferPool)
    (v : UInt32) (batch : List BufferId) : Prop extends m.RxRestarted place r r' p p' where
  /-- The ring runs. -/
  phase : r'.phase = .running
  /-- Its window begins where the adapter stands. -/
  consumer : r'.consumer = v.toUInt16
  /-- It holds the batch, from there on. -/
  holds : r'.Holds batch
  /-- There is a buffer for each usable slot. -/
  full : batch.length = r.capacity
  /-- They are the posted buffers of the pool, and no two of them are the same. -/
  posted : p'.Lists .posted batch
  /-- **The doorbell is rung behind all descriptors**, and then the direction is switched on. -/
  done : ∃ es, m.startRx.2.journal.events.toList = m.journal.events.toList ++ es ∧
    es.filter Event.isDone = [.wrote .rxDmaControl DmaControl.off, .read .rxConsumer v] ++
      Machine.rxWrites p r.size.slots v.toUInt16 batch ++
      [.wrote .rxProducer (Counter.advance v.toUInt16 r.capacity).toUInt32,
        .wrote .rxDmaControl DmaControl.enable]

/-- **A start is refused.** -/
structure Machine.RxRefused (place : Nat) (m : Machine) (r r' : RxRing) (p p' : BufferPool) :
    Prop extends m.RxRestarted place r r' p p' where
  /-- The ring is stopped. -/
  phase : r'.phase = .stopped
  /-- It holds nothing. -/
  posted : r'.posted = 0
  /-- The direction is off. -/
  off : m.startRx.2.adapter.read .rxDmaControl = DmaControl.off
  /-- Nothing was done but to switch it off. -/
  done : ∃ es, m.startRx.2.journal.events.toList = m.journal.events.toList ++ es ∧
    es.filter Event.isDone = [.wrote .rxDmaControl DmaControl.off]
  /-- **Each buffer that is not delivered is free**, and that once. -/
  free : ∀ b, b.index < p.capacity → p.stateOf? b ≠ some .delivered →
    p'.stateOf? b = some .free ∧ p'.free.count b = 1
  /-- **To serve the ring changes nothing** until a start succeeds. -/
  idle : ∀ m', ReflTransGen (RxCall (fun _ => True) place False) m.startRx.2 m' →
    ∀ u : Upper, m'.advanceRx u = .start u m'

namespace RxInUse

variable {permits : Move → Prop} {place : Nat} {size : RingSize} {m m' : Machine} {r r' : RxRing}
  {p p' : BufferPool}

/-- The buffers that are out stay out. -/
theorem restarted (used : RxInUse permits place size m) (rx : m.rx = some r)
    (pool : m.poolAt? place = some p) {bs : List BufferId} (rx' : m.startRx.2.rx = some r')
    (pool' : m.startRx.2.poolAt? place = some p') (kept : p.Kept p')
    (ledger' : p'.Ledger [] bs m.toScene.out)
    (counted : r'.stats = { r.stats with discarded := r.stats.discarded + r.held.length }) :
    m.RxRestarted place r r' p p' := by
  obtain ⟨-, ledger, posted⟩ := used.ledger rx pool
  refine ⟨rx', pool', kept, by rw [posted, counted], fun b here => ?_,
    (Machine.working_startRx m).held_eq fun _ => trivial⟩
  exact ledger.untouched ledger' kept ((ledger.delivered.mem_iff b).mpr here)

/-- **A start for which there are buffers enough succeeds.** -/
theorem launched (used : RxInUse permits place size m) (rx : m.rx = some r)
    (pool : m.poolAt? place = some p) (enough : r.capacity ≤ p.capacity - m.toScene.out.length) :
    m.startRx.1 = .ok () ∧ ∃ r' p' v batch, m.RxLaunched place r r' p p' v batch := by
  obtain ⟨n, q, p₀, bs, guard⟩ := id used
  obtain rfl : q = r := Option.some.inj (guard.rx.symm.trans rx)
  obtain ⟨here, ledger, -⟩ := used.ledger rx pool
  subst here
  obtain ⟨rx₁, ⟨p₁, pool₁, -⟩, -⟩ := Machine.emptied_before_start rx pool ledger
  obtain ⟨batch, p₂, acquired, kept, ledger₂, length⟩ :=
    Machine.acquireMany_before_start rx pool ledger
  have before := Machine.does_before_start rx pool ledger
  rw [Nat.min_eq_left enough] at length
  set k := (m.write .rxDmaControl DmaControl.off).recyclePosted with hk
  have holds : (q.clear.enter q.phase).Holds [] := guard.holds.clear.congr rfl rfl rfl rfl
  obtain ⟨v, m', p', started, rx', pool', kept', ledger', done⟩ :=
    Machine.completeStart_eq (m := k.setPool q.pool p₂) rx₁ (Machine.poolAt?_setPool pool₁) ledger₂
      holds length.le q.capacity
  have whole : m.startRx = (.ok (), m') := by
    unfold Machine.startRx
    rw [rx, Option.map_some]
    dsimp only
    rw [← hk, acquired]
    dsimp only
    rw [if_neg (Nat.not_lt.mpr length.ge), started]
  have after : m.startRx.2 = m' := by rw [whole]
  rw [append_nil] at ledger'
  have window : (batch.foldl RxRing.post ((q.clear.enter q.phase).resync v.toUInt16)).Holds batch :=
    (holds.resync v.toUInt16).posts ((Nat.zero_add _).le.trans length.le)
  obtain ⟨consumer, -, stats⟩ :=
    RxRing.foldl_post batch ((q.clear.enter q.phase).resync v.toUInt16)
  rw [← after] at rx' pool' done
  rw [Machine.rxWrites_congr kept, length] at done
  have prepared : m.Does [.wrote .rxDmaControl DmaControl.off] (k.setPool q.pool p₂) :=
    before.quiet rfl
  exact ⟨by rw [whole], _, p', v, batch,
    used.restarted rx pool rx' pool' (kept.trans kept') ledger' stats, rfl, consumer,
    window.congr rfl rfl rfl rfl, length, ledger'.posted.perm (reverse_perm batch),
    (prepared.trans done).events used.complete⟩

/-- To serve a ring changes nothing if it is empty and does not run. -/
theorem advanceRx_eq (used : RxInUse permits place size m) (rx : m.rx = some r)
    (empty : r.posted = 0) (idle : r.phase ≠ .running) (u : Upper) :
    m.advanceRx u = .start u m := by
  obtain ⟨n, q, p, bs, guard⟩ := used
  obtain rfl : q = r := Option.some.inj (guard.rx.symm.trans rx)
  obtain rfl : bs = [] := length_eq_zero_iff.mp (guard.holds.posted_eq.symm.trans empty)
  unfold Machine.advanceRx
  rw [rx]
  dsimp only
  split
  · rfl
  · rw [Machine.recyclePosted_of_empty rx guard.holds]
  · next running => exact absurd running idle

/-- **A start for which there are too few buffers is refused.** -/
theorem refused (used : RxInUse (fun _ => True) place size m) (rx : m.rx = some r)
    (pool : m.poolAt? place = some p) (short : p.capacity - m.toScene.out.length < r.capacity) :
    m.startRx.1 = .error (.insufficientBuffers r.capacity (p.capacity - m.toScene.out.length)) ∧
      ∃ r' p', m.RxRefused place r r' p p' := by
  obtain ⟨here, ledger, posted⟩ := used.ledger rx pool
  subst here
  have before := Machine.does_before_start rx pool ledger
  have off := Machine.off_before_start rx pool ledger
  obtain ⟨rx₁, ⟨p₁, pool₁, -⟩, -⟩ := Machine.emptied_before_start rx pool ledger
  obtain ⟨p', refused, kept, ledger'⟩ := Machine.startRx_eq_of_short rx pool ledger short
  set k := (m.write .rxDmaControl DmaControl.off).recyclePosted
  have after := congrArg Prod.snd refused
  dsimp only at after
  set k' := (k.setPool r.pool p').setRx (r.clear.enter .stopped)
  have rx' : m.startRx.2.rx = some (r.clear.enter .stopped) := by
    rw [after, Machine.rx_give]
    rfl
  have pool' : m.startRx.2.poolAt? r.pool = some p' := by
    rw [after, Machine.poolAt?_give]
    exact Machine.poolAt?_setPool pool₁
  have done : m.Does [.wrote .rxDmaControl DmaControl.off] k' := before.quiet rfl
  refine ⟨congrArg Prod.fst refused, _, p', used.restarted rx pool rx' pool' kept ledger' rfl, rfl,
    r.posted_clear, ?_, ?_, fun b inside kept' => ?_, fun m' later u => ?_⟩
  · rw [after, Machine.adapter_give]
    exact off
  · rw [after]
    exact (done.given _).events used.complete
  · have unheld : b ∉ m.toScene.out.map ReturnHandle.buffer := fun out =>
      kept' ((ledger.delivered.mem_iff b).mp out)
    have free := ledger'.free_of_notMem (kept.capacity ▸ inside) unheld
    exact ⟨free, count_eq_one_of_mem ledger'.free.nodup ((ledger'.free.mem_iff b).mpr free)⟩
  · have call : RxCall (fun _ => True) r.pool True m m.startRx.2 := .start m fun _ => trivial
    have stopped := used.call call
    have drained : RxDrained r (r.clear.enter .stopped) :=
      ⟨r.held_clear, r.posted_clear, nofun, rfl⟩
    obtain ⟨q, rx'', still⟩ := (RxQuiet.calls (fun _ drained => drained.phase)
      (fun _ _ drained => drained.next) stopped ⟨_, rx', drained⟩ later).rx
    exact (stopped.calls later).advanceRx_eq rx'' still.posted still.phase u

end RxInUse

/-! ## The theorem -/

/-- **A start fills the ring or frees it.**  However a new ring over a new pool was used, in whatever
phase it is and whatever the adapter answers: a start succeeds just when the buffers that are not
delivered are as many as the usable slots.  Then each of those has a buffer, and the adapter learns of
it in the right order.  Otherwise the start says how many there are, and leaves the ring stopped and
empty and all of them free. -/
theorem start_fills_the_ring_or_frees_it {place slots : Nat} {m₀ m : Machine}
    (new : m₀.NewRx place slots)
    (run : ReflTransGen (RxCall (fun _ => True) place True) m₀ m) :
    ∃ r p, m.rx = some r ∧ m.poolAt? place = some p ∧ r.capacity = slots - 1 ∧
      (m.startRx.1 = .ok () ↔ slots - 1 ≤ p.capacity - p.tally.delivered) ∧
      (m.startRx.1 = .ok () → ∃ r' p' v batch, m.RxLaunched place r r' p p' v batch) ∧
      (m.startRx.1 ≠ .ok () →
        m.startRx.1 = .error (.insufficientBuffers (slots - 1) (p.capacity - p.tally.delivered)) ∧
          ∃ r' p', m.RxRefused place r r' p p') := by
  obtain ⟨bufferSize, pad, r₀, made, rx₀⟩ := new.made
  obtain ⟨_, layout, addresses, named, pool₀⟩ := new.pool
  obtain ⟨-, -, width⟩ := RxRing.holds_create made
  have begun : RxInUse (fun _ => True) place r₀.size m₀ :=
    .of_new made rx₀ named pool₀ new.frames new.handles new.complete fun _ _ _ _ => trivial
  have used := begun.calls run
  obtain ⟨n, r, p, bs, guard⟩ := id used
  have rx := guard.rx
  have pool : m.poolAt? place = some p := guard.pool
  have capacity : r.capacity = slots - 1 := by
    rw [RxRing.capacity, used.size_eq rx, RingSize.capacity, width]
  have delivered : p.tally.delivered = m.toScene.out.length := by
    rw [(used.ledger rx pool).2.1.tally_eq]
  refine ⟨r, p, rx, pool, capacity, ?_⟩
  rw [← capacity, delivered]
  rcases Nat.lt_or_ge (p.capacity - m.toScene.out.length) r.capacity with short | enough
  · obtain ⟨answer, outcome⟩ := used.refused rx pool short
    have failed : m.startRx.1 ≠ .ok () := by simp [answer]
    exact ⟨⟨fun ok => absurd ok failed, fun enough => absurd short (Nat.not_lt.mpr enough)⟩,
      fun ok => absurd ok failed, fun _ => ⟨answer, outcome⟩⟩
  · obtain ⟨ok, outcome⟩ := used.launched rx pool enough
    exact ⟨⟨fun _ => enough, fun _ => ok⟩, fun _ => outcome, fun failed => absurd ok failed⟩

/-- A running ring with one frame out is started again where the adapter's counter is about to wrap.
Then a second frame is out, and the next start is refused. -/
theorem start_fills_the_ring_or_frees_it_twice :
    ∃ m k, ReflTransGen (RxCall (fun _ => True) 0 True) (.withRx ⟨4, by decide⟩ 4) m ∧
      ReflTransGen (RxCall (fun _ => True) 0 True) m.startRx.2 k ∧
      m.rx.map (fun r => (r.phase, r.posted)) = some (.running, 3) ∧
      (∃ r r' p p' v batch, m.RxLaunched 0 r r' p p' v batch ∧ v.toUInt16 = 65534) ∧
      k.rx.map (fun r => (r.phase, r.posted, r.stats.discarded)) = some (.cancelled, 2, 3) ∧
      k.startRx.1 = .error (.insufficientBuffers 3 2) ∧ ∃ r r' p p', k.RxRefused 0 r r' p p' := by
  let arrives : Move := .receive ⟨[], 2, 66, RxStatus.wholeFrame⟩
  let keeping : Upper := { disposal := fun _ => .hold }
  have bound : keeping.Abides (RxMeanwhile (fun _ => True) 0) := fun _ h => absurd h not_mem_nil
  have move (mv : Move) (m : Machine) : RxCall (fun _ => True) 0 True m (m.move mv) :=
    .meanwhile (.holding (.move m trivial))
  let m : Machine := ((((Machine.withRx ⟨4, by decide⟩ 4).startRx.2.move arrives).advanceRx
    keeping).machine.move (.assign .rxConsumer 65534))
  let k : Machine := ((m.startRx.2.move arrives).advanceRx keeping).machine.cancelRx
  have first : ReflTransGen (RxCall (fun _ => True) 0 True) (.withRx ⟨4, by decide⟩ 4) m :=
    ReflTransGen.refl
      |>.tail (.start _ fun _ => trivial)
      |>.tail (move arrives _)
      |>.tail (.advance _ bound)
      |>.tail (move _ _)
  have second : ReflTransGen (RxCall (fun _ => True) 0 True) m.startRx.2 k :=
    ReflTransGen.refl
      |>.tail (move arrives _)
      |>.tail (.advance _ bound)
      |>.tail (.cancel _)
  have named : 4 ≤ Config.maxBuffers := by decide
  have new : (Machine.withRx ⟨4, by decide⟩ 4).NewRx 0 4 :=
    Machine.newRx_withRx ⟨4, by decide⟩ named
  obtain ⟨r, p, -, -, -, -, launched, -⟩ := start_fills_the_ring_or_frees_it new first
  obtain ⟨r', p', v, batch, launch⟩ := launched (by decide +kernel)
  have whole := (first.tail (.start m fun _ => trivial)).trans second
  obtain ⟨q, p₂, -, -, -, -, -, refused⟩ := start_fills_the_ring_or_frees_it new whole
  have answer : k.startRx.1 = .error (.insufficientBuffers 3 2) := by decide +kernel
  obtain ⟨-, q', p₂', refusal⟩ := refused (by simp [answer])
  have consumer : m.startRx.2.rx.map RxRing.consumer = some 65534 := by decide +kernel
  rw [launch.rx] at consumer
  exact ⟨m, k, first, second, by decide +kernel,
    ⟨r, r', p, p', v, batch, launch, launch.consumer.symm.trans (Option.some.inj consumer)⟩,
    by decide +kernel, answer, q, q', p₂, p₂', refusal⟩

end DescriptorRings
