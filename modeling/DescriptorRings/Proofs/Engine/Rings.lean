import DescriptorRings.Proofs.Engine.Course
import DescriptorRings.Proofs.Machine.Grants
import DescriptorRings.Proofs.Receive.Start
import DescriptorRings.Proofs.Transmit.Stream

/-!
# The rings of an engine

The run of an engine is a run of calls to either of its rings, and each call keeps what is known of
the ring.  So between any two requests both rings are in use (`TxInUse`, `RxInUse`), whatever the
engine has been used for; `EngineRequest.txCalls` and `EngineRequest.rxCalls` say so for the run and
`TxInUse.calls` and `RxInUse.calls` for the rings.

A run begins where the rings have just been made.  How that is done is of no concern to a ring, and
`Machine.made_createEngine` says that making an engine is one way to do it.
-/

namespace DescriptorRings

open Relation List

variable {R : Rules} {n : Nat} {m m' : Machine}

/-! ## Runs of an engine -/

/-- **The run of an engine is a run of calls to its transmit ring.** -/
theorem EngineRequest.txCalls (run : ReflTransGen (EngineRequest R n) m m') :
    ReflTransGen (TxCall R.permits R.startsTx) m m' := by
  have calls (k k' : Machine) (h : ReflTransGen (Calls R (n + 1) {}) k k') :
      TxView R false k k' := by
    induction h with
    | refl => exact .refl R false k
    | tail _ call ih => exact ih.trans call.txView
  induction run with
  | refl => exact .refl
  | tail _ request ih => exact ih.trans (calls _ _ request.calls)

/-- **The run of an engine is a run of calls to its receive ring.** -/
theorem EngineRequest.rxCalls (run : ReflTransGen (EngineRequest R n) m m') :
    ReflTransGen (RxCall R.permits R.place R.startsRx) m m' := by
  have calls (k k' : Machine) (h : ReflTransGen (Calls R (n + 1) {}) k k') :
      RxView R false k k' := by
    induction h with
    | refl => exact .refl R false k
    | tail _ call ih => exact ih.trans call.rxView
  induction run with
  | refl => exact .refl
  | tail _ request ih => exact ih.trans (calls _ _ request.calls)

/-! ## The transmit ring -/

section Transmit

variable {permits : Move → Prop} {starts : Prop} {size : RingSize} {slots depth : Nat}

/-- A machine with a transmit ring that was made just now. -/
structure Machine.TxMade (slots depth : Nat) (m : Machine) : Prop where
  /-- The ring is new. -/
  made : ∃ r, TxRing.create slots depth = .ok r ∧ m.tx = some r
  /-- Every event is kept. -/
  complete : m.journal.detail = .complete
  /-- No packet was taken in. -/
  accepted : m.journal.accepted = []
  /-- No packet was handed back. -/
  completed : m.journal.completed = []
  /-- The direction is off. -/
  off : m.adapter.read .txDmaControl = DmaControl.off

/-- A call to the ring is a run of steps. -/
theorem TxCall.steps (h : TxCall permits starts m m') (ready : TxReady permits size depth m) :
    ReflTransGen (TxStep permits) (.idle, m) (.idle, m') := by
  cases h with
  | start => exact steps_startTx ready
  | cancel => exact steps_cancelTx ready
  | advance abides => exact steps_advanceTx abides ready
  | meanwhile h => exact h.steps ready

namespace TxInUse

theorem of_made (made : m.TxMade slots depth) (planned : Machine.Permitted permits m.agenda) :
    ∃ size : RingSize, size.slots = slots ∧ TxInUse permits size depth m := by
  obtain ⟨r, new, tx⟩ := made.made
  obtain ⟨hs, hd, ledger⟩ := TxLedger.create made.accepted made.completed new
  refine ⟨r.size, hs, ⟨⟨r, tx, rfl, hd⟩, planned⟩, ⟨made.complete, r, tx, rfl, hd, ledger⟩, ?_⟩
  exact .create new tx

/-- Every call keeps the ring in order. -/
theorem call (used : TxInUse permits size depth m) (h : TxCall permits starts m m') :
    TxInUse permits size depth m' :=
  used.steps (h.steps used.ready)

/-- So does every run. -/
theorem calls (used : TxInUse permits size depth m)
    (run : ReflTransGen (TxCall permits starts) m m') : TxInUse permits size depth m' := by
  induction run with
  | refl => exact used
  | tail _ h ih => exact ih.call h

theorem tx (used : TxInUse permits size depth m) : ∃ r, m.tx = some r := by
  obtain ⟨r, tx, -⟩ := used.ready.ring
  exact ⟨r, tx⟩

end TxInUse

end Transmit

/-! ## The receive ring -/

section Receive

variable {permits : Move → Prop} {place slots : Nat} {starts : Prop} {size : RingSize}

/-- A machine with a receive ring that was made just now over a pool that was also made just now. -/
structure Machine.RxMade (place slots : Nat) (m : Machine) : Prop where
  /-- The ring is new. -/
  made : ∃ bufferSize pad r, RxRing.create place bufferSize slots pad = .ok r ∧ m.rx = some r
  /-- So is the pool, which has no more buffers than there are names for. -/
  pool : ∃ id layout addresses, addresses.length ≤ Config.maxBuffers ∧
    m.poolAt? place = some (.ofAddresses id layout addresses)
  /-- No frame is held. -/
  frames : m.frames = #[]
  /-- No handle is out. -/
  handles : m.handles = #[]
  /-- Every event is kept. -/
  complete : m.journal.detail = .complete
  /-- The direction is off. -/
  off : m.adapter.read .rxDmaControl = DmaControl.off

/-- A ring over an adapter of which nothing is known but the moves that it may make. -/
def RxTerms.over (place : Nat) (size : RingSize) (permits : Move → Prop) : RxTerms :=
  ⟨place, size, permits, False, False.elim⟩

/-- A machine with a receive ring in use, between two requests. -/
def RxInUse (permits : Move → Prop) (place : Nat) (size : RingSize) (m : Machine) : Prop :=
  ∃ n r p bs, RxGuard (.over place size permits) .plain { filled := n } m r p bs

/-- A call to the ring is a run of steps. -/
theorem RxCall.course {T : RxTrack} {n : Nat} (h : RxCall T.permits T.place starts m m')
    (allowed : T.switches) (start : RxAt T .plain { filled := n } m) :
    ∃ n', RxAt T .plain { filled := n' } m' := by
  cases h with
  | start =>
    obtain ⟨n', started, -⟩ := start.startRx allowed
    exact ⟨n', started⟩
  | cancel => exact ⟨n, start.cancelRx allowed⟩
  | advance abides => exact start.advanceRx abides
  | meanwhile h => exact ⟨n, h.keeps start ⟨rfl, rfl, rfl⟩⟩

namespace RxInUse

/-- A ring and a pool that were made just now are in order. -/
theorem of_new {bufferSize pad : Nat} {r : RxRing} {id : UInt16} {layout : Layout}
    {addresses : List BusAddress} (new : RxRing.create place bufferSize slots pad = .ok r)
    (rx : m.rx = some r) (named : addresses.length ≤ Config.maxBuffers)
    (pool : m.poolAt? place = some (.ofAddresses id layout addresses)) (frames : m.frames = #[])
    (handles : m.handles = #[]) (complete : m.journal.detail = .complete)
    (planned : Machine.Permitted permits m.agenda) : RxInUse permits place r.size m := by
  obtain ⟨holds, place, -⟩ := RxRing.holds_create new
  have out : m.toScene.out = [] := by
    rw [Scene.out, frames, handles]
    rfl
  have ledger : (BufferPool.ofAddresses id layout addresses).Ledger [] ([] ++ [])
      ([] ++ m.toScene.out) := by
    rw [out]
    exact BufferPool.ledger_ofAddresses id layout named
  refine ⟨0, r, _, [], rx, pool, place, rfl, complete, planned, holds, rfl, ledger, ?_,
    Nat.le_refl _, .nil _ _ _, fun _ => trivial, False.elim⟩
  rw [frames]
  exact fun f hf => absurd hf not_mem_nil

theorem of_made (made : m.RxMade place slots) (planned : Machine.Permitted permits m.agenda) :
    ∃ size : RingSize, size.slots = slots ∧ RxInUse permits place size m := by
  obtain ⟨bufferSize, pad, r, new, rx⟩ := made.made
  obtain ⟨id, layout, addresses, named, pool⟩ := made.pool
  obtain ⟨-, -, hs⟩ := RxRing.holds_create new
  exact ⟨r.size, hs, of_new new rx named pool made.frames made.handles made.complete planned⟩

/-- Every call keeps the ring in order. -/
theorem call (used : RxInUse permits place size m) (h : RxCall permits place starts m m') :
    RxInUse permits place size m' := by
  obtain ⟨n, r, p, bs, guard⟩ := used
  obtain ⟨n', guarded, -⟩ := h.course (T := (RxTerms.over place size permits).track True m) trivial
    (guard.here True)
  exact ⟨n', guarded⟩

/-- So does every run. -/
theorem calls (used : RxInUse permits place size m)
    (run : ReflTransGen (RxCall permits place starts) m m') : RxInUse permits place size m' := by
  induction run with
  | refl => exact used
  | tail _ h ih => exact ih.call h

theorem cancelRx (used : RxInUse permits place size m) : RxInUse permits place size m.cancelRx := by
  have cancelled : RxCall permits place False m m.cancelRx := .cancel m
  exact used.call cancelled

theorem pool (used : RxInUse permits place size m) : ∃ p, m.poolAt? place = some p := by
  obtain ⟨n, r, p, bs, guard⟩ := used
  exact ⟨p, guard.pool⟩

theorem complete (used : RxInUse permits place size m) : m.journal.detail = .complete := by
  obtain ⟨n, r, p, bs, guard⟩ := used
  exact guard.complete

theorem size_eq (used : RxInUse permits place size m) {r : RxRing} (rx : m.rx = some r) :
    r.size = size := by
  obtain ⟨n, r', p, bs, guard⟩ := used
  obtain rfl : r' = r := Option.some.inj (guard.rx.symm.trans rx)
  exact guard.size

/-- What is known of the ring and the pool between two requests. -/
theorem ledger (used : RxInUse permits place size m) {r : RxRing} {p : BufferPool}
    (rx : m.rx = some r) (pool : m.poolAt? place = some p) :
    r.pool = place ∧ p.Ledger [] r.held m.toScene.out ∧ r.posted = r.held.length := by
  obtain ⟨n, r', p', bs, guard⟩ := used
  obtain rfl : r' = r := Option.some.inj (guard.rx.symm.trans rx)
  obtain rfl : p' = p := Option.some.inj (guard.pool.symm.trans pool)
  exact ⟨guard.place, guard.between, guard.holds.posted_eq.trans guard.holds.held.length_eq.symm⟩

/-- **The buffers stay where they are**, whoever has them. -/
theorem kept (used : RxInUse permits place size m)
    (run : ReflTransGen (RxCall permits place starts) m m') {p : BufferPool}
    (pool : m.poolAt? place = some p) : ∃ p', m'.poolAt? place = some p' ∧ p.Kept p' := by
  induction run with
  | refl => exact ⟨p, pool, .refl p⟩
  | @tail k k' before call ih =>
    obtain ⟨p₁, pool₁, kept₁⟩ := ih
    obtain ⟨n, r, q, bs, guard⟩ := used.calls before
    obtain ⟨n', guarded⟩ := call.course (T := (RxTerms.over place size permits).track True k) trivial
      (guard.here True)
    obtain ⟨p₂, pool₂, kept₂⟩ := guarded.kept pool₁
    exact ⟨p₂, pool₂, kept₁.trans kept₂⟩

end RxInUse

end Receive

/-! ## A new engine -/

section Create

variable {permits : Move → Prop}

/-- A machine that no ring was used on yet, and that keeps all events. -/
structure Machine.Unused (permits : Move → Prop) (m : Machine) : Prop where
  /-- Every event is kept. -/
  complete : m.journal.detail = .complete
  /-- No packet was taken in. -/
  accepted : m.journal.accepted = []
  /-- No packet was handed back. -/
  completed : m.journal.completed = []
  /-- No frame is held. -/
  frames : m.frames = #[]
  /-- No handle is out. -/
  handles : m.handles = #[]
  /-- The transmit direction is off. -/
  txOff : m.adapter.read .txDmaControl = DmaControl.off
  /-- The receive direction is off. -/
  rxOff : m.adapter.read .rxDmaControl = DmaControl.off
  /-- The adapter plans only what it may do. -/
  planned : Machine.Permitted permits m.agenda

namespace Machine.Unused

/-- An event is entered that is no packet taken in or handed back. -/
theorem record (h : m.Unused permits) {e : Event} (accepted : e.accepted? = none)
    (completed : e.completed? = none) : (m.record e).Unused permits := by
  have journal := journal_record m e
  refine ⟨?_, ?_, ?_, ?_, ?_, ?_, ?_, ?_⟩
  · rw [journal, Journal.detail_add]
    exact h.complete
  · rw [journal, Journal.accepted, Journal.pick_add_of_none h.complete accepted]
    exact h.accepted
  · rw [journal, Journal.completed, Journal.pick_add_of_none h.complete completed]
    exact h.completed
  · rw [toScene_record]
    exact h.frames
  · rw [toScene_record]
    exact h.handles
  · rw [toScene_record]
    exact h.txOff
  · rw [toScene_record]
    exact h.rxOff
  · rw [agenda_record]
    exact h.planned

theorem give (h : m.Unused permits) (n : Notice) : (m.give n).Unused permits := by
  unfold Machine.give
  split
  · exact h.record rfl rfl
  · exact h

variable (spares : ∀ mv, permits mv → mv.SparesSwitches)

include spares in
theorem turn (h : m.Unused permits) : m.turn.Unused permits := by
  refine Machine.keeps_turn_of_planned h.planned (fun _ _ planned => ?_) (fun k mv permitted hk => ?_) h
  · exact ⟨h.complete, h.accepted, h.completed, h.frames, h.handles, h.txOff, h.rxOff, planned⟩
  · obtain ⟨tx, rx⟩ := spares mv permitted
    have moved : Machine.Unused permits
        { k with memory := k.adapter.store mv k.memory, adapter := k.adapter.move mv } :=
      ⟨hk.complete, hk.accepted, hk.completed, hk.frames, hk.handles, (tx k.adapter).trans hk.txOff,
        (rx k.adapter).trans hk.rxOff, hk.planned⟩
    exact moved.record (e := .moved mv) rfl rfl

/-- Blocks are allocated. -/
theorem allocateMany (h : m.Unused permits) (layout : Layout) (count : Nat) :
    (m.allocateMany layout count).2.Unused permits := by
  have next (g : Grant) (hg : g.machine.Unused permits) :
      (Grant.next layout g).2.machine.Unused permits := by
    have granted : Machine.Unused permits
        { g.machine with memory := (g.machine.memory.allocate layout).2 } :=
      ⟨hg.complete, hg.accepted, hg.completed, hg.frames, hg.handles, hg.txOff, hg.rxOff,
        hg.planned⟩
    have asked : (g.machine.allocate layout).2.Unused permits :=
      granted.record (e := .allocated layout (g.machine.memory.allocate layout).1) rfl rfl
    unfold Grant.next
    split
    · next answer => rwa [answer] at asked
    · next answer => rwa [answer] at asked
  exact loop_keeps (P := fun g : Grant => g.machine.Unused permits) next count h

/-- A pool is made. -/
theorem createPool (h : m.Unused permits) {count size align place : Nat}
    (made : m.createPool count size align = (.ok place, m')) :
    m'.Unused permits ∧ place = m.pools.size ∧ ∃ id layout addresses,
      addresses.length ≤ Config.maxBuffers ∧
        m'.poolAt? place = some (.ofAddresses id layout addresses) := by
  obtain ⟨id, layout, addresses, pool, length, named⟩ := poolAt?_createPool made
  refine ⟨?_, (createPool_eq_ok made).1, id, layout, addresses, length.trans_le named, pool⟩
  obtain ⟨rfl, -, layout, id, addresses, k, -, asked, -, rfl⟩ := createPool_eq_ok made
  have unused := h.allocateMany layout count
  rw [asked] at unused
  have given := unused.give (.poolCreated id count size)
  exact ⟨given.complete, given.accepted, given.completed, given.frames, given.handles,
    given.txOff, given.rxOff, given.planned⟩

include spares in
/-- A register is written that is no switch. -/
theorem write (h : m.Unused permits) {r : Register} (tx : .txDmaControl ≠ r)
    (rx : .rxDmaControl ≠ r) (v : UInt32) : (m.write r v).Unused permits := by
  have turned := h.turn spares
  have written : (m.turn.setAdapter (m.turn.adapter.write r v)).Unused permits :=
    ⟨turned.complete, turned.accepted, turned.completed, turned.frames, turned.handles,
      (Adapter.read_write_elsewhere _ tx (by decide) v).trans turned.txOff,
      (Adapter.read_write_elsewhere _ rx (by decide) v).trans turned.rxOff, turned.planned⟩
  exact written.record (e := .wrote r v) rfl rfl

end Machine.Unused

theorem Machine.createRings_eq_ok {c : Config} {place : Nat} {tx : TxRing} {rx : RxRing}
    (h : createRings c place = .ok (tx, rx)) : TxRing.create c.txSlots c.queueDepth = .ok tx ∧
      RxRing.create place c.bufferSize c.rxSlots c.leadingPad = .ok rx := by
  unfold createRings at h
  split at h
  · exact nomatch h
  · next new =>
    cases other : RxRing.create place c.bufferSize c.rxSlots c.leadingPad with
    | error cause =>
      rw [other] at h
      exact nomatch h
    | ok ring =>
      rw [other] at h
      obtain ⟨rfl, rfl⟩ := Prod.mk.inj (Except.ok.inj h)
      exact ⟨new, rfl⟩

/-- **What becomes of making an engine**: it has a pool, two rings over it and an arbiter, and a notice
was given of it. -/
theorem Machine.createEngine_eq_ok {c : Config} (made : m.createEngine c = (.ok (), m')) :
    ∃ place k tx rx, m.createPool c.bufferCount c.bufferSize c.bufferAlign = (.ok place, k) ∧
      TxRing.create c.txSlots c.queueDepth = .ok tx ∧
      RxRing.create place c.bufferSize c.rxSlots c.leadingPad = .ok rx ∧
      m' = (createArbiter { k with engine := some ⟨c, place⟩, tx := some tx, rx := some rx }).give
        (.engineCreated c.txSlots c.rxSlots c.bufferCount) := by
  unfold createEngine at made
  split at made
  · exact nomatch congrArg Prod.fst made
  · split at made
    · exact nomatch congrArg Prod.fst made
    · next place k pooled =>
      split at made
      · exact nomatch congrArg Prod.fst made
      · next tx rx rings =>
        obtain ⟨newTx, newRx⟩ := createRings_eq_ok rings
        exact ⟨place, k, tx, rx, pooled, newTx, newRx, (Prod.mk.inj made).2.symm⟩

/-- **An engine that is made has new rings**, over a new pool, and a new arbiter. -/
theorem Machine.made_createEngine (unused : m.Unused permits)
    (spares : ∀ mv, permits mv → mv.SparesSwitches) {c : Config}
    (made : m.createEngine c = (.ok (), m')) :
    m'.TxMade c.txSlots c.queueDepth ∧ m'.RxMade m.pools.size c.rxSlots ∧
      m'.arbiter = some {} ∧ Permitted permits m'.agenda := by
  obtain ⟨place, k, tx, rx, pooled, newTx, newRx, rfl⟩ := createEngine_eq_ok made
  obtain ⟨unused', rfl, id, layout, addresses, named, pool⟩ := unused.createPool pooled
  set k' : Machine := { k with engine := some ⟨c, m.pools.size⟩, tx := some tx, rx := some rx }
  have placed : k'.Unused permits :=
    ⟨unused'.complete, unused'.accepted, unused'.completed, unused'.frames, unused'.handles,
      unused'.txOff, unused'.rxOff, unused'.planned⟩
  have written := placed.write spares (r := .irqEnable) (by decide) (by decide) 0
  have armed : k'.createArbiter.Unused permits :=
    ⟨written.complete, written.accepted, written.completed, written.frames, written.handles,
      written.txOff, written.rxOff, written.planned⟩
  set n : Notice := .engineCreated c.txSlots c.rxSlots c.bufferCount
  have done : (k'.createArbiter.give n).Unused permits := armed.give n
  have tx' : (k'.createArbiter.give n).tx = some tx :=
    (tx_give _ _).trans (tx_write k' .irqEnable 0)
  have rx' : (k'.createArbiter.give n).rx = some rx :=
    (rx_give _ _).trans (rx_write k' .irqEnable 0)
  have pool' : (k'.createArbiter.give n).poolAt? m.pools.size =
      some (.ofAddresses id layout addresses) :=
    (poolAt?_give _ _ _).trans ((poolAt?_write k' .irqEnable 0 _).trans pool)
  have arbiter : (k'.createArbiter.give n).arbiter = some {} := by
    obtain ⟨j, scene⟩ := exists_toScene_give k'.createArbiter n
    rw [scene, createArbiter]
  exact ⟨⟨⟨tx, newTx, tx'⟩, done.complete, done.accepted, done.completed, done.txOff⟩,
    ⟨⟨_, _, rx, newRx, rx'⟩, ⟨id, layout, addresses, named, pool'⟩, done.frames, done.handles,
      done.complete, done.rxOff⟩, arbiter, done.planned⟩

/-- A machine in which nothing has happened yet, over an adapter that goes round so many receive
slots. -/
def Machine.blank (rxSlots : Nat) : Machine where
  adapter := { rxSlots := rxSlots }
  journal := { detail := .complete }
  moments := some []

theorem Machine.unused_blank (rxSlots : Nat) : (Machine.blank rxSlots).Unused permits :=
  ⟨rfl, rfl, rfl, rfl, rfl, rfl, rfl, fun _ none => absurd none not_mem_nil⟩

/-- Two rings of four slots, and four buffers. -/
def Config.small : Config where
  txSlots := 4
  rxSlots := 4
  bufferCount := 4
  bufferSize := 128
  bufferAlign := 64
  leadingPad := 2
  queueDepth := 4

/-- A machine with a small engine that was made just now. -/
def Machine.small : Machine := ((Machine.blank 4).createEngine .small).2

theorem Machine.createEngine_small : (Machine.blank 4).createEngine .small = (.ok (), .small) :=
  Prod.ext (by decide +kernel) rfl

/-- A whole frame arrives. -/
def Move.frame : Move := .fill ⟨[], 2, 66, RxStatus.wholeFrame⟩

theorem Move.sparesSwitches_frame : Move.frame.SparesSwitches :=
  ⟨spares_of_ne_assign (by decide) nofun, spares_of_ne_assign (by decide) nofun⟩

/-- An upper layer that holds every frame and does nothing else. -/
def Upper.keeping : Upper := { disposal := fun _ => .hold }

theorem Upper.abides_keeping (Act : Machine → Machine → Prop) : Upper.keeping.Abides Act :=
  fun _ none => absurd none not_mem_nil

end Create

end DescriptorRings
