import DescriptorRings.Proofs.Engine.Remains
import DescriptorRings.Proofs.Engine.Silence
import DescriptorRings.Proofs.Engine.Start
import DescriptorRings.Proofs.Machine.Buffers
import DescriptorRings.Script.Session

/-!
# Taking rings and engines down

A receive ring that is dropped does nothing: it has no last word.  What it leaves behind is what it had
between two requests (`RxInUse.remains`).  Its switch tells its phase, and its slots hold the posted
buffers.

* A ring that is not running when it goes leaves the direction off.  Every block that is given back
  later is then given back safely (`idle_ring_is_taken_down_safely`), whoever was the last to refer to
  the pool.

* A ring that is running leaves the direction on, and its buffers posted.  The pool goes all the same,
  and the adapter may still write into blocks that the allocator has got back
  (`running_ring_leaves_blocks_exposed`).

* An engine does have a last word.  It switches everything off and empties its receive ring before it
  lets its parts go, in whatever phase they were, so its blocks are always given back safely
  (`engine_is_taken_down_quietly`).

The reference to the pool may be dropped at any time, also while a ring or an engine is in use.  That
changes nothing for the ring, which refers to the pool as well.
-/

namespace DescriptorRings

open Relation List

variable {permits : Move → Prop} {place slots : Nat} {size : RingSize} {starts : Prop}
  {k m m' : Machine}

/-! ## References that are dropped while a ring is in use -/

namespace RxInUse

theorem record (used : RxInUse permits place size m) (e : Event) :
    RxInUse permits place size (m.record e) := by
  obtain ⟨n, r, p, bs, guard⟩ := used
  exact ⟨n, r, p, bs, guard.record e⟩

theorem entries (used : RxInUse permits place size m) (other : Nat) {f : PoolEntry → PoolEntry}
    (same : ∀ e, (f e).pool = e.pool) :
    RxInUse permits place size { m with pools := m.pools.modify other f } := by
  obtain ⟨n, r, p, bs, guard⟩ := used
  exact ⟨n, r, p, bs, guard.rx, (m.poolAt?_entries same other place).trans guard.pool, guard.place,
    guard.size, guard.complete, guard.planned, guard.holds, guard.filled, guard.ledger, guard.frames,
    guard.due, guard.table, guard.knows, guard.window⟩

/-- **The ring is not concerned** when a reference to a pool is dropped. -/
theorem dropPool (used : RxInUse permits place size m) (other : Nat) :
    RxInUse permits place size (m.dropPool other) := by
  refine Machine.keeps_dropPool (fun k n h => ?_) (fun k a h => ?_)
    (fun _ other h => h.entries other fun _ => rfl) (fun _ other h => h.entries other fun _ => rfl)
    used other
  · unfold Machine.give
    split
    · exact h.record _
    · exact h
  · obtain ⟨n, r, p, bs, guard⟩ := h
    have freed : RxInUse permits place size { k with memory := k.memory.free a } :=
      ⟨n, r, p, bs, guard.rx, guard.pool, guard.place, guard.size, guard.complete, guard.planned,
        guard.holds, guard.filled, guard.ledger, guard.frames, guard.due, guard.table, guard.knows,
        guard.window⟩
    exact freed.record _

theorem leaving (used : RxInUse permits place size m) (act : Leaving permits place m m') :
    RxInUse permits place size m' := by
  cases act with
  | holding act =>
    have call : RxCall permits place False m m' := .meanwhile (.holding act)
    exact used.call call
  | dropPool other => exact used.dropPool other
  | plan permitted =>
    have call : RxCall permits place False m _ := .meanwhile (.plan m permitted)
    exact used.call call

/-- **What is left if the ring goes now.** -/
theorem remains (used : RxInUse permits place size m) {r : RxRing} (rx : m.rx = some r)
    (geared : RxGeared m) : RxRemains place r.phase.control r.held m [] m := by
  obtain ⟨p, pool⟩ := used.pool
  obtain ⟨-, ledger, -⟩ := used.ledger rx pool
  obtain ⟨r', rx', reads⟩ := geared
  obtain rfl := Option.some.inj (rx'.symm.trans rx)
  have frames : ∀ f, some f ∈ m.frames.toList → f.pool = place := by
    obtain ⟨n, r, p, bs, guard⟩ := used
    exact guard.frames
  exact ⟨used.complete, reads, ⟨p, pool, ledger⟩, frames, .refl _ m⟩

end RxInUse

namespace Leaving

variable {reg : Register} {v : UInt32}

theorem rx_eq (act : Leaving permits place m m') : m'.rx = m.rx := by
  cases act with
  | holding act => exact act.spared.rx
  | dropPool other =>
    refine Machine.keeps_dropPool (P := fun k => k.rx = m.rx) (fun k n h => ?_) (fun k a h => ?_)
      (fun _ _ h => h) (fun _ _ h => h) rfl other
    · rw [Machine.rx_give]
      exact h
    · rw [Machine.free, Machine.toScene_record]
      exact h
  | plan => rfl

/-- A register that only software writes is left alone. -/
theorem reads (act : Leaving permits place m m') (spares : ∀ mv, permits mv → mv.Spares reg)
    (foreign : Part.rx.owns reg = false) (status : reg ≠ .irqStatus) (h : m.Reads reg v) :
    m'.Reads reg v := by
  cases act with
  | holding act => exact h.holding spares foreign status act
  | dropPool other =>
    refine Machine.keeps_dropPool (fun _ n h => h.give n) (fun k a h => ?_)
      (fun _ _ h => ⟨h.value, h.planned⟩) (fun _ _ h => ⟨h.value, h.planned⟩) h other
    exact Machine.Reads.record (m := { k with memory := k.memory.free a }) ⟨h.value, h.planned⟩ _
  | plan permitted => exact h.plan spares permitted

end Leaving

theorem RxGeared.leaving (geared : RxGeared m) (spares : ∀ mv, permits mv → mv.Spares .rxDmaControl)
    (act : Leaving permits place m m') : RxGeared m' := by
  obtain ⟨r, rx, reads⟩ := geared
  exact ⟨r, act.rx_eq.trans rx, act.reads spares rfl (by decide) reads⟩

/-! ## A ring by itself -/

/-- A call to a receive ring, or something that may happen after it has gone. -/
def RxCallOrLeaving (permits : Move → Prop) (place : Nat) (starts : Prop) (m m' : Machine) : Prop :=
  RxCall permits place starts m m' ∨ Leaving permits place m m'

/-- Phase and switch agree all along, whatever references are dropped in between. -/
theorem RxInUse.geared_run (used : RxInUse permits place size m) (geared : RxGeared m)
    (spares : ∀ mv, permits mv → mv.Spares .rxDmaControl)
    (run : ReflTransGen (RxCallOrLeaving permits place starts) m m') :
    RxInUse permits place size m' ∧ RxGeared m' := by
  induction run with
  | refl => exact ⟨used, geared⟩
  | tail _ step ih =>
    obtain ⟨used, geared⟩ := ih
    rcases step with call | act
    · exact ⟨used.call call, geared.call spares used call⟩
    · exact ⟨used.leaving act, geared.leaving spares act⟩

/-- **A ring that does not run is taken down safely.**  A receive ring is used by itself, in any way,
and dropped in the end; references to pools and frames are dropped before and after it, in any order.
From the moment at which the ring had its last call, the switch of the direction tells the phase in
which the ring was, and so it does whenever a block is given back.  So if the ring was not running, each
block is given back while the direction is off and no descriptor in use names it. -/
theorem idle_ring_is_taken_down_safely (spares : ∀ mv, permits mv → mv.Spares .rxDmaControl)
    (made : k.RxMade place slots) (planned : Machine.Permitted permits k.agenda)
    (run : ReflTransGen (RxCallOrLeaving permits place True) k m)
    (later : ReflTransGen (Leaving permits place) m.dropRings m') :
    ∃ r, m.rx = some r ∧
      m.Spans (fun s => ∀ a, s.Frees a → s.adapter.read .rxDmaControl = r.phase.control) m' ∧
      (r.phase ≠ .running → m.Spans Scene.FreesSafely m') := by
  obtain ⟨size, -, new⟩ := RxInUse.of_made made planned
  have geared : RxGeared k :=
    .of_made made fun ms hms mv hmv => spares mv (planned ms hms mv hmv)
  obtain ⟨used, geared⟩ := new.geared_run geared spares run
  obtain ⟨r, rx, -⟩ := id geared
  have past := (((used.remains rx geared).dropRings).run spares later).past
  refine ⟨r, rx, past.mono fun s abandons _ _ => abandons.1, fun idle => past.mono fun s abandons => ?_⟩
  rw [Phase.control_of_idle idle] at abandons
  exact abandons.freesSafely

/-- A receive ring of four slots that was made just now, over a pool of three buffers. -/
def Machine.ringAlone : Machine :=
  (((Machine.blank 4).createPool 3 256 64).2.buildRx { slots := 4 }).2

/-- The addresses of the three buffers. -/
def Machine.addressesAlone : List BusAddress :=
  (range 3).map fun k => .ofNat (Allocator.firstAddress + k * Allocator.usualDistance)

theorem Machine.rxMade_ringAlone : Machine.ringAlone.RxMade 0 4 where
  made := ⟨256, 2, _, rfl, rfl⟩
  pool := ⟨1, ⟨256, 64⟩, Machine.addressesAlone, by decide, rfl⟩
  frames := rfl
  handles := rfl
  complete := rfl
  off := rfl

/-- The ring is started and cancelled, and its three buffers are still posted when it goes.  They are
given back when the last reference to the pool goes after it. -/
theorem idle_ring_is_taken_down_safely_posted :
    ∃ (m m' : Machine) (r : RxRing),
      ReflTransGen (RxCallOrLeaving (Move.Spares .rxDmaControl) 0 True) .ringAlone m ∧
      ReflTransGen (Leaving (Move.Spares .rxDmaControl) 0) m.dropRings m' ∧
      m.rx = some r ∧ r.phase ≠ .running ∧ r.posted = 3 ∧ m.Spans Scene.FreesSafely m' ∧
      blocksOut m.journal.events.toList = Machine.addressesAlone.reverse ∧
      blocksOut m'.journal.events.toList = [] := by
  let m : Machine := Machine.ringAlone.startRx.2.cancelRx
  let m' : Machine := m.dropRings.dropPool 0
  have run : ReflTransGen (RxCallOrLeaving (Move.Spares .rxDmaControl) 0 True) .ringAlone m :=
    ReflTransGen.refl
      |>.tail (.inl (.start _ fun _ => trivial))
      |>.tail (.inl (.cancel _))
  have later : ReflTransGen (Leaving (Move.Spares .rxDmaControl) 0) m.dropRings m' :=
    .single (.dropPool _ 0)
  obtain ⟨r, rx, -, safe⟩ := idle_ring_is_taken_down_safely (fun _ spares => spares)
    Machine.rxMade_ringAlone (fun ms none => absurd none not_mem_nil) run later
  have ring : m.rx.map (fun r => (r.phase, r.posted)) = some (.cancelled, 3) := by decide +kernel
  rw [rx, Option.map_some] at ring
  obtain ⟨phase, posted⟩ := Prod.mk.inj (Option.some.inj ring)
  have idle : r.phase ≠ .running := by
    rw [phase]
    decide
  exact ⟨m, m', r, run, later, rx, idle, posted, safe idle, by decide +kernel, by decide +kernel⟩

/-- **A ring that runs is not.**  The ring is started, and dropped without being cancelled.  When the
last reference to the pool goes, its blocks are given back while the direction is on, and descriptors in
use name them. -/
theorem running_ring_leaves_blocks_exposed :
    ∃ m m' : Machine,
      ReflTransGen (RxCallOrLeaving (Move.Spares .rxDmaControl) 0 True) .ringAlone m ∧
      ReflTransGen (Leaving (Move.Spares .rxDmaControl) 0) m.dropRings m' ∧
      ∃ past, m'.moments = some past ∧ ∃ s ∈ past, ∃ a, s.Frees a ∧
        s.adapter.read .rxDmaControl = DmaControl.enable ∧ s.adapter.Exposes a := by
  let m : Machine := Machine.ringAlone.startRx.2
  let m' : Machine := m.dropRings.dropPool 0
  have run : ReflTransGen (RxCallOrLeaving (Move.Spares .rxDmaControl) 0 True) .ringAlone m :=
    .single (.inl (.start _ fun _ => trivial))
  have later : ReflTransGen (Leaving (Move.Spares .rxDmaControl) 0) m.dropRings m' :=
    .single (.dropPool _ 0)
  have exposed : ∃ s ∈ m'.moments.getD [], ∃ a ∈ Machine.addressesAlone, s.Frees a ∧
      s.adapter.read .rxDmaControl = DmaControl.enable ∧ s.adapter.Exposes a := by decide +kernel
  have remembers : m'.moments.isSome = true := by decide +kernel
  obtain ⟨past, moments⟩ := Option.isSome_iff_exists.mp remembers
  rw [moments, Option.getD_some] at exposed
  obtain ⟨s, inside, a, -, frees⟩ := exposed
  exact ⟨m, m', run, later, past, moments, s, inside, a, frees⟩

/-! ## An engine -/

/-- Whether the upper layer is called. -/
def Event.isCallback : Event → Bool
  | .completed _ | .delivered _ _ | .notified _ | .replied _ => true
  | _ => false

/-- A request to an engine, or something that may also happen after it has gone. -/
def EngineRequestOrLeaving (R : Rules) (n : Nat) (m m' : Machine) : Prop :=
  EngineRequest R n m m' ∨ Leaving R.permits R.place m m'

/-- Everything of a machine `k` was switched off, and its receive ring was emptied.  So it has been
since a machine `j`. -/
structure Machine.SwitchedOff (place : Nat) (k j m : Machine) : Prop where
  /-- The adapter may not interrupt. -/
  irq : m.Reads .irqEnable 0
  /-- The transmit direction is off. -/
  tx : m.Reads .txDmaControl DmaControl.off
  /-- The receive direction is off, and no buffer is posted. -/
  rx : RxRemains place DmaControl.off [] j [] m
  /-- The upper layer has what it had. -/
  out : m.toScene.out = k.toScene.out
  /-- It was not called. -/
  silent : k.Enters (fun e => e.isCallback = false) m

section Engine

variable {n depth : Nat} {txSize rxSize : RingSize} {startsTx startsRx : Prop} {p : Part}
  {shifts : Prop} {reg : Register} {v : UInt32}

/-- Whatever a part does alone, it leaves the registers alone that it does not write. -/
theorem Machine.Reads.apart (h : m.Reads reg v) (foreign : p.owns reg = false)
    (unswitched : p.switch? ≠ some reg) (status : reg ≠ .irqStatus)
    (run : Working p shifts (fun _ _ => False) m m') : m'.Reads reg v :=
  run.keeps (fun _ _ stroke => stroke.reads foreign (fun _ => unswitched) status)
    (fun _ _ none => none.elim) h

namespace Machine.SwitchedOff

variable {j : Machine}

/-- Nothing has changed but what the rings hold and the pools. -/
theorem same (h : SwitchedOff place k j m) (adapter : m'.adapter = m.adapter)
    (agenda : m'.agenda = m.agenda) (journal : m'.journal = m.journal)
    (out : m'.toScene.out = m.toScene.out)
    (rx : RxRemains place DmaControl.off [] j [] m → RxRemains place DmaControl.off [] j [] m') :
    SwitchedOff place k j m' where
  irq := ⟨adapter ▸ h.irq.value, agenda ▸ h.irq.planned⟩
  tx := ⟨adapter ▸ h.tx.value, agenda ▸ h.tx.planned⟩
  rx := rx h.rx
  out := out.trans h.out
  silent := h.silent.trans (.of_journal_eq _ journal)

theorem record (h : SwitchedOff place k j m) {e : Event} (silent : e.isCallback = false) :
    SwitchedOff place k j (m.record e) where
  irq := h.irq.record e
  tx := h.tx.record e
  rx := h.rx.record e
  out := by
    rw [Machine.toScene_record]
    exact h.out
  silent := h.silent.trans (.record silent m)

theorem give (h : SwitchedOff place k j m) (n : Notice) : SwitchedOff place k j (m.give n) := by
  unfold Machine.give
  split
  · exact h.record rfl
  · exact h

/-- **The parts go** after everything was switched off, and perhaps the pool goes with them. -/
theorem gone (h : SwitchedOff place k j m.switchedOff) : SwitchedOff place k j m.dropEngine := by
  rw [dropEngine_eq]
  have noted : SwitchedOff place k j (m.switchedOff.giveIf
      ((m.switchedOff.tx.map TxRing.outstanding).getD 0 != 0)
      (.engineLostPackets ((m.switchedOff.tx.map TxRing.outstanding).getD 0))) := by
    unfold giveIf
    split
    · exact h.give _
    · exact h
  refine keeps_dropRings (P := SwitchedOff place k j) (fun _ n h => h.give n) (fun k' a h => ?_)
    (fun _ other h => h.same rfl rfl rfl rfl fun rx => rx.entries other fun _ => rfl) ?_
  · have forgotten : SwitchedOff place k j { k' with memory := k'.memory.free a } :=
      h.same rfl rfl rfl rfl fun rx =>
        ⟨rx.complete, ⟨rx.switch.value, rx.switch.planned⟩, rx.pool, rx.frames, rx.past⟩
    exact forgotten.record (e := .freed a) rfl
  · exact noted.same rfl rfl rfl rfl fun rx =>
      ⟨rx.complete, ⟨rx.switch.value, rx.switch.planned⟩, rx.pool, rx.frames, rx.past⟩

end Machine.SwitchedOff

/-- Since a machine `k` the parts have been among themselves. -/
structure Machine.Secluded (k m : Machine) : Prop where
  /-- The upper layer has what it had. -/
  out : m.toScene.out = k.toScene.out
  /-- It was not called. -/
  silent : k.Enters (fun e => e.isCallback = false) m

namespace Machine.Secluded

theorem trans {m'' : Machine} (h : m.Secluded m') (h' : m'.Secluded m'') : m.Secluded m'' :=
  ⟨h'.out.trans h.out, h.silent.trans h'.silent⟩

/-- A part has been at work, and none of its events was a callback. -/
theorem of_working (run : Working p True (fun _ _ => False) m m')
    (silent : m.Enters (fun e => e.isCallback = false) m') : m.Secluded m' :=
  ⟨Scene.out_eq (run.held_eq fun _ => trivial).1 (run.held_eq fun _ => trivial).2, silent⟩

theorem silent_write (m : Machine) (r : Register) (w : UInt32) :
    m.Enters (fun e => e.isCallback = false) (m.write r w) :=
  .write (P := fun e => e.isCallback = false) (fun _ => rfl) rfl m

theorem disarm (m : Machine) : m.Secluded (m.write .irqEnable 0) := by
  have written : Working .irq True (fun _ _ => False) m (m.write .irqEnable 0) := .write m rfl 0
  exact of_working written (silent_write m _ _)

theorem cancelTx (m : Machine) : m.Secluded m.cancelTx := by
  refine of_working m.working_cancelTx ?_
  unfold Machine.cancelTx
  split
  · exact .refl _ m
  · exact (silent_write m _ _).trans ((Enters.modifyTx _ _ _).trans (.give (fun _ => rfl) _ _))

theorem cancelRx (m : Machine) : m.Secluded m.cancelRx := by
  refine of_working m.working_cancelRx ?_
  unfold Machine.cancelRx
  split
  · exact .refl _ m
  · dsimp only
    refine Enters.trans ?_ (.give (fun _ => rfl) _ _)
    exact (silent_write m _ _).trans (.of_journal_eq _ rfl)

theorem recyclePosted {r : RxRing} {q : BufferPool} {out : List ReturnHandle} (rx : m.rx = some r)
    (pool : m.poolAt? r.pool = some q) (ledger : q.Ledger [] r.held out) :
    m.Secluded m.recyclePosted := by
  refine of_working m.working_recyclePosted ?_
  obtain ⟨q', emptied, -⟩ := recyclePosted_eq rx pool ledger
  rw [emptied]
  refine Enters.trans ?_ (.giveIf (fun _ => rfl) _ _ _)
  exact .of_journal_eq _ rfl

end Machine.Secluded

/-- Nothing that may happen after the receive ring has gone concerns the transmit ring. -/
theorem Leaving.txMeanwhile (act : Leaving permits place m m') :
    ReflTransGen (TxMeanwhile permits) m m' := by
  have elsewhere {k k' : Machine} (h : ReflTransGen (TxMeanwhile permits) m k) (apart : TxApart k k') :
      ReflTransGen (TxMeanwhile permits) m k' := h.tail (.elsewhere apart)
  have same (k : Machine) (pools : Array PoolEntry) (memory : Memory) :
      TxApart k { k with pools := pools, memory := memory } :=
    ⟨rfl, .refl _ _, rfl, rfl, rfl, rfl⟩
  cases act with
  | holding act =>
    have call : Calls ⟨permits, place, True, True⟩ 1 { tx := true } m m' := Call.holding act
    exact call.txView
  | plan permitted => exact .single (.plan m permitted)
  | dropPool other =>
    refine Machine.keeps_dropPool (P := ReflTransGen (TxMeanwhile permits) m) (fun k n h => ?_)
      (fun k a h => ?_) (fun k _ h => elsewhere h (same k _ k.memory))
      (fun k _ h => elsewhere h (same k _ k.memory)) .refl other
    · unfold Machine.give
      split
      · exact h.tail (.note k rfl)
      · exact h
    · exact (elsewhere h (same k k.pools (k.memory.free a))).tail (.note _ rfl)

namespace EngineInUse

variable (spares : ∀ mv, permits mv → mv.SparesSwitches ∧ mv.Spares .irqEnable)

include spares

/-- **An engine stays in order**, whatever references are dropped while it is used. -/
theorem runOrLeaving (used : EngineInUse permits place depth txSize rxSize m)
    (run : ReflTransGen (EngineRequestOrLeaving ⟨permits, place, startsTx, startsRx⟩ n) m m') :
    EngineInUse permits place depth txSize rxSize m' := by
  induction run with
  | refl => exact used
  | tail _ step ih =>
    rcases step with request | act
    · exact ih.run (fun mv ok => (spares mv ok).1) (.single request)
    · have calls : ReflTransGen (TxCall permits True) _ _ :=
        act.txMeanwhile.lift id fun _ _ => TxCall.meanwhile
      exact ⟨ih.tx.calls calls, ih.rx.leaving act,
        ih.txGeared.calls (fun mv ok => (spares mv ok).1.1) calls,
        ih.rxGeared.leaving (fun mv ok => (spares mv ok).1.2) act⟩

/-- **Everything is switched off, and the receive ring is emptied**, in whatever phase the rings
were. -/
theorem switchedOff (used : EngineInUse permits place depth txSize rxSize m) :
    Machine.SwitchedOff place m m.switchedOff m.switchedOff := by
  let R : Rules := ⟨permits, place, True, True⟩
  have idle (k k' : Machine) (none : False) : TxView R false k k' ∧ RxView R false k k' := none.elim
  have planned : Machine.Permitted (Move.Spares .irqEnable) m.agenda :=
    fun ms hms mv hmv => (spares mv (used.tx.ready.planned ms hms mv hmv)).2
  -- the adapter may not interrupt any more
  have written : Working .irq True (fun _ _ => False) m (m.write .irqEnable 0) := .write m rfl 0
  have irq₁ : (m.write .irqEnable 0).Reads .irqEnable 0 := Machine.Reads.write_self ⟨rfl, planned⟩ 0
  have secluded₁ := Machine.Secluded.disarm m
  have used₁ : EngineInUse permits place depth txSize rxSize (m.write .irqEnable 0) := by
    have tx : TxView R false m _ := .working (by decide) (fun k k' h => (idle k k' h).1) written
    have rx : RxView R false m _ := .working (by decide) (fun k k' h => (idle k k' h).2) written
    exact ⟨used.tx.calls tx, used.rx.calls rx,
      used.txGeared.calls (fun mv ok => (spares mv ok).1.1) tx,
      used.rxGeared.calls (fun mv ok => (spares mv ok).1.2) used.rx rx⟩
  unfold Machine.switchedOff
  generalize m.write .irqEnable 0 = k₁ at *
  -- the transmit ring is cancelled
  have cancelledTx : Working .tx True (fun _ _ => False) k₁ k₁.cancelTx := k₁.working_cancelTx
  have irq₂ := irq₁.apart rfl (by decide) (by decide) cancelledTx
  obtain ⟨q, tx₁, geared⟩ := used₁.txGeared
  have tx₂ := (geared.cancelTx tx₁).1
  have secluded₂ := secluded₁.trans (.cancelTx k₁)
  have request₂ : EngineRequest R 0 k₁ k₁.cancelTx := .call (.cancelTx k₁ rfl)
  have used₂ := used₁.run (fun mv ok => (spares mv ok).1) (.single request₂)
  generalize k₁.cancelTx = k₂ at *
  -- so is the receive ring
  have cancelledRx : Working .rx True (fun _ _ => False) k₂ k₂.cancelRx := k₂.working_cancelRx
  have irq₃ := irq₂.apart rfl (by decide) (by decide) cancelledRx
  have tx₃ := tx₂.apart rfl (by decide) (by decide) cancelledRx
  obtain ⟨r, rx₂, reads⟩ := used₂.rxGeared
  obtain ⟨off₃, rx₃⟩ := reads.cancelRx rx₂
  have secluded₃ := secluded₂.trans (.cancelRx k₂)
  have used₃ := used₂.rx.cancelRx
  have emptying := k₂.advanceRx_cancelRx .silent
  generalize k₂.cancelRx = k₃ at *
  -- and then it is emptied
  rw [emptying]
  have recycled : Working .rx True (fun _ _ => False) k₃ k₃.recyclePosted :=
    k₃.working_recyclePosted
  obtain ⟨p, pool₃⟩ := used₃.pool
  obtain ⟨here, ledger, -⟩ := used₃.ledger rx₃ pool₃
  have used₄ : RxInUse permits place rxSize k₃.recyclePosted := by
    rw [← emptying]
    have call : RxCall permits place True k₃ (k₃.advanceRx .silent).machine :=
      .advance k₃ (Upper.abides_silent _)
    exact used₃.call call
  have off₄ := off₃.alone rfl (by decide) k₃.working_recyclePosted
  have rx₄ : k₃.recyclePosted.rx = some (r.enter .cancelled).clear :=
    (Machine.emptied_recyclePosted rx₃ (here ▸ pool₃) ledger).rx
  have remains := used₄.remains rx₄ ⟨_, rx₄, off₄⟩
  rw [RxRing.held_clear] at remains
  have secluded₄ := secluded₃.trans (.recyclePosted rx₃ (here ▸ pool₃) ledger)
  exact ⟨irq₃.apart rfl (by decide) (by decide) recycled,
    tx₃.apart rfl (by decide) (by decide) recycled, remains, secluded₄.out, secluded₄.silent⟩

end EngineInUse

/-- **An engine is taken down quietly.**  An engine is used in any way, references to pools and frames
are dropped while it is used, and then it is dropped itself.  When it has gone, the adapter may neither
interrupt nor transfer, the upper layer was not called, and no buffer is posted: every buffer that the
upper layer does not have is free.  A block of its pool that is given back after that, or while the
engine is going, is given back while the receive direction is off, no buffer is posted and no descriptor
in use names it, in whatever order frames and references are dropped. -/
theorem engine_is_taken_down_quietly {c : Config} {e : Machine}
    (spares : ∀ mv, permits mv → mv.SparesSwitches ∧ mv.Spares .irqEnable)
    (unused : k.Unused permits) (made : k.createEngine c = (.ok (), e))
    (run : ReflTransGen (EngineRequestOrLeaving ⟨permits, k.pools.size, True, True⟩ n) e m)
    (later : ReflTransGen (Leaving permits k.pools.size) m.dropEngine m') :
    (m.dropEngine.adapter.read .irqEnable = 0 ∧
      m.dropEngine.adapter.read .txDmaControl = DmaControl.off ∧
      m.dropEngine.adapter.read .rxDmaControl = DmaControl.off) ∧
    (∃ es, m.dropEngine.journal.events.toList = m.journal.events.toList ++ es ∧
      ∀ ev ∈ es, ev.isCallback = false) ∧
    m.dropEngine.toScene.out = m.toScene.out ∧
    (∃ p, m.dropEngine.poolAt? k.pools.size = some p ∧ p.tally.posted = 0 ∧
      p.available = p.capacity - m.toScene.out.length) ∧
    m.Spans (fun s => ∀ a, s.Frees a →
      s.Abandons k.pools.size DmaControl.off [] ∧ ¬s.adapter.Exposes a) m' := by
  obtain ⟨txSize, rxSize, -, -, begun⟩ := EngineInUse.of_made (fun mv ok => (spares mv ok).1) unused made
  have used := begun.runOrLeaving spares run
  have complete := used.tx.kept.complete
  have off := used.switchedOff spares
  have gone := off.gone
  obtain ⟨es, events, silent⟩ := gone.silent.events complete
  obtain ⟨p, pool, ledger⟩ := gone.rx.pool
  rw [nil_append, gone.out] at ledger
  have before : m.Spans (fun s => ∀ a, s.Frees a →
      s.Abandons k.pools.size DmaControl.off [] ∧ ¬s.adapter.Exposes a) m.switchedOff :=
    (m.undisturbed_switchedOff.moments complete).mono fun s quiet a frees => absurd frees (quiet.2 a)
  have after := (gone.rx.run (fun mv ok => (spares mv ok).1.2) later).past
  refine ⟨⟨gone.irq.value, gone.tx.value, gone.rx.switch.value⟩, ⟨es, events, silent⟩, gone.out,
    ⟨p, pool, by rw [ledger.tally_eq]; rfl, ledger.available_eq⟩, before.trans (after.mono ?_)⟩
  exact fun s abandons a frees => ⟨abandons, (abandons.freesSafely a frees).2⟩

/-- A small engine is running, with a packet queued and a frame held, and the reference to its pool has
been dropped.  When it is dropped it has three posted buffers.  The pool goes with the frame. -/
theorem engine_is_taken_down_quietly_held :
    ∃ m m' : Machine,
      ReflTransGen (EngineRequestOrLeaving
        ⟨fun mv => mv.SparesSwitches ∧ mv.Spares .irqEnable, 0, True, True⟩ 0) .small m ∧
      ReflTransGen (Leaving (fun mv => mv.SparesSwitches ∧ mv.Spares .irqEnable) 0) m.dropEngine m' ∧
      m.tx.map TxRing.outstanding = some 1 ∧ m.rx.map RxRing.posted = some 3 ∧
      m.toScene.out.length = 1 ∧
      m.dropEngine.adapter.read .rxDmaControl = DmaControl.off ∧
      m.Spans (fun s => ∀ a, s.Frees a →
        s.Abandons 0 DmaControl.off [] ∧ ¬s.adapter.Exposes a) m' ∧
      (blocksOut m.dropEngine.journal.events.toList).length = 4 ∧
      blocksOut m'.journal.events.toList = [] := by
  let permits (mv : Move) : Prop := mv.SparesSwitches ∧ mv.Spares .irqEnable
  have frame : permits .frame :=
    ⟨Move.sparesSwitches_frame, Move.spares_of_ne_assign (by decide) nofun⟩
  let packet : Packet := .single 1 ⟨.ofNat 0x1000, 64⟩
  let sending : Machine := ((Machine.small.startEngine.2.submit packet).2.advanceTx .silent).machine
  let holding : Machine := ((sending.move .frame).advanceRx .keeping).machine
  let m : Machine := holding.dropPool 0
  have run : ReflTransGen (EngineRequestOrLeaving ⟨permits, 0, True, True⟩ 0) .small m :=
    ReflTransGen.refl
      |>.tail (.inl (.start _ (fun _ => trivial) fun _ => trivial))
      |>.tail (.inl (.call (.submit _ packet)))
      |>.tail (.inl (.call (.advanceTx _ rfl (Upper.abides_silent _))))
      |>.tail (.inl (.call (.holding (.move _ frame))))
      |>.tail (.inl (.call (.advanceRx _ rfl (Upper.abides_keeping _))))
      |>.tail (.inr (.dropPool _ 0))
  have last : (m.dropEngine.frameAt? 0).map (fun f => blocksOut
      ((m.dropEngine.removeFrame 0).dropFrame f).journal.events.toList) = some [] := by
    decide +kernel
  obtain ⟨f, shown, gone⟩ := Option.map_eq_some_iff.mp last
  have later : ReflTransGen (Leaving permits 0) m.dropEngine
      ((m.dropEngine.removeFrame 0).dropFrame f) := .single (.holding (.drop _ shown))
  obtain ⟨off, -, -, -, past⟩ := engine_is_taken_down_quietly (fun _ (ok : permits _) => ok)
    (Machine.unused_blank 4) Machine.createEngine_small run later
  exact ⟨m, _, run, later, by decide +kernel, by decide +kernel, by decide +kernel, off.2.2, past,
    by decide +kernel, gone⟩

end Engine

end DescriptorRings
