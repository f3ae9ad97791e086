import DescriptorRings.Proofs.Engine.Switch

/-!
# Starting an engine

An engine starts both rings or neither.  Three things can happen, and it depends on what is known
before which of them does.  While transmit descriptors are in flight the start is refused, and then
nothing at all happens.  Otherwise the transmit ring starts, and it is left to the pool whether the
receive ring can be filled.  If it cannot, the transmit ring is cancelled, which is not the same as
never having been started: its packets stay where they are, but from then on they can only come back
as ignored (`Machine.RolledBack`).

What a machine with an engine is like between two requests is `EngineInUse`, and every run keeps it.
-/

namespace DescriptorRings

open Relation List

variable {permits : Move → Prop} {place depth : Nat} {startsTx startsRx : Prop} {n : Nat}
  {txSize rxSize : RingSize} {m m' : Machine}

/-! ## An engine in use -/

/-- A machine with an engine in use, between two requests. -/
structure EngineInUse (permits : Move → Prop) (place depth : Nat) (txSize rxSize : RingSize)
    (m : Machine) : Prop where
  /-- The transmit ring is in use. -/
  tx : TxInUse permits txSize depth m
  /-- So is the receive ring. -/
  rx : RxInUse permits place rxSize m
  /-- The transmit direction is on just while its ring is running. -/
  txGeared : TxGeared m
  /-- So is the receive direction. -/
  rxGeared : RxGeared m

namespace EngineInUse

section Spares

variable (spares : ∀ mv, permits mv → mv.SparesSwitches)

include spares

/-- Every run keeps the engine in order. -/
theorem run (used : EngineInUse permits place depth txSize rxSize m)
    (run : ReflTransGen (EngineRequest ⟨permits, place, startsTx, startsRx⟩ n) m m') :
    EngineInUse permits place depth txSize rxSize m' where
  tx := used.tx.calls (EngineRequest.txCalls run)
  rx := used.rx.calls (EngineRequest.rxCalls run)
  txGeared := used.txGeared.calls (fun mv ok => (spares mv ok).1) (EngineRequest.txCalls run)
  rxGeared := used.rxGeared.calls (fun mv ok => (spares mv ok).2) used.rx (EngineRequest.rxCalls run)

theorem of_made {c : Config} {k : Machine} (unused : k.Unused permits)
    (made : k.createEngine c = (.ok (), m)) :
    ∃ txSize rxSize : RingSize, txSize.slots = c.txSlots ∧ rxSize.slots = c.rxSlots ∧
      EngineInUse permits k.pools.size c.queueDepth txSize rxSize m := by
  obtain ⟨tx, rx, -, planned⟩ := k.made_createEngine unused spares made
  obtain ⟨txSize, txSlots, usedTx⟩ := TxInUse.of_made tx planned
  obtain ⟨rxSize, rxSlots, usedRx⟩ := RxInUse.of_made rx planned
  refine ⟨txSize, rxSize, txSlots, rxSlots, usedTx, usedRx, .of_made tx ?_, .of_made rx ?_⟩
  · exact fun ms hms mv hmv => (spares mv (planned ms hms mv hmv)).1
  · exact fun ms hms mv hmv => (spares mv (planned ms hms mv hmv)).2

end Spares

end EngineInUse

/-! ## What a start hands back -/

namespace Machine

/-- From one machine to another no packet is handed back. -/
abbrev HandsNothingBack : Machine → Machine → Prop := Enters fun e => e.completed? = none

theorem handsNothingBack_write (m : Machine) (r : Register) (v : UInt32) :
    HandsNothingBack m (m.write r v) :=
  Enters.write (P := fun e => e.completed? = none) (fun _ => rfl) rfl m

theorem handsNothingBack_give (m : Machine) (n : Notice) : HandsNothingBack m (m.give n) :=
  .give (fun _ => rfl) m n

theorem handsNothingBack_startTx (m : Machine) : HandsNothingBack m m.startTx.2 := by
  unfold startTx
  split
  · exact .refl _ m
  · have read : HandsNothingBack m (m.readCounter .txConsumer).2 :=
      .read (fun _ => rfl) (fun _ => rfl) m
    have placed := read.trans (.modifyTx _ _ fun r => r.begin (m.readCounter .txConsumer).1)
    have aligned := placed.trans (handsNothingBack_write _ .txProducer
      (m.readCounter .txConsumer).1.toUInt32)
    have on := aligned.trans (handsNothingBack_write _ .txDmaControl DmaControl.enable)
    exact on.trans (handsNothingBack_give _ _)

theorem handsNothingBack_cancelTx (m : Machine) : HandsNothingBack m m.cancelTx := by
  unfold cancelTx
  split
  · exact .refl _ m
  · have off := handsNothingBack_write m .txDmaControl DmaControl.off
    exact (off.trans (.modifyTx _ _ _)).trans (handsNothingBack_give _ _)

/-- Only the transmit ring hands packets back. -/
theorem handsNothingBack_of_working {p : Part} {shifts : Prop} (other : p ≠ .tx)
    (run : Working p shifts (fun _ _ => False) m m') : HandsNothingBack m m' := by
  refine run.keeps (P := HandsNothingBack m) (fun k k' stroke before => ?_)
    (fun _ _ none => none.elim) (.refl _ m)
  refine before.trans (stroke.entered.mono fun e he => ?_)
  cases p <;> cases e <;> first | rfl | exact absurd rfl other | exact absurd he Bool.false_ne_true

/-- Starting an engine hands nothing back, however it ends. -/
theorem handsNothingBack_startEngine (m : Machine) : HandsNothingBack m m.startEngine.2 := by
  have first := handsNothingBack_startTx m
  unfold startEngine
  split
  · next e =>
    rw [e] at first
    exact first
  · next k e =>
    rw [e] at first
    have second := handsNothingBack_of_working (by decide) (working_startRx k)
    split
    · next e' =>
      rw [e'] at second
      exact (first.trans second).trans (handsNothingBack_cancelTx _)
    · next e' =>
      rw [e'] at second
      exact first.trans second

end Machine

/-! ## The ways in which a start ends -/

/-- What a start leaves behind that was refused for want of buffers.  Before it there were a transmit
ring `q` and a pool `p`. -/
structure Machine.RolledBack (permits : Move → Prop) (place : Nat) (q : TxRing) (p : BufferPool)
    (m m' : Machine) : Prop where
  /-- Both directions are off. -/
  off : m'.adapter.read .txDmaControl = DmaControl.off ∧
    m'.adapter.read .rxDmaControl = DmaControl.off
  /-- The transmit ring is cancelled, with all its packets and nothing in flight. -/
  tx : ∃ q', m'.tx = some q' ∧ q'.phase = .cancelled ∧ q'.inFlight = 0 ∧
    q'.outstanding = q.outstanding
  /-- No buffer is posted. -/
  rx : ∃ r', m'.rx = some r' ∧ r'.posted = 0
  /-- The buffers that the upper layer has are left alone, and the others are free. -/
  pool : ∃ p', m'.poolAt? place = some p' ∧
    (∀ b, p.stateOf? b = some .delivered → p'.buffers[b.index]? = p.buffers[b.index]?) ∧
    ∀ b, b.index < p'.capacity → p'.stateOf? b = some .delivered ∨ p'.stateOf? b = some .free
  /-- The upper layer has the same frames and handles. -/
  held : m'.frames = m.frames ∧ m'.handles = m.handles
  /-- **The next service hands all packets back**, marked and in order. -/
  handsBack : ∀ u : Upper, u.Abides (TxMeanwhile permits) →
    (m'.advanceTx u).machine.journal.completed =
      m.journal.completed ++ q.packets.map Packet.ignore

/-- What a start leaves behind that was not refused. -/
structure Machine.Underway (needed : Nat) (m : Machine) : Prop where
  /-- Both directions are on. -/
  on : m.adapter.read .txDmaControl = DmaControl.enable ∧
    m.adapter.read .rxDmaControl = DmaControl.enable
  /-- Nothing is in flight. -/
  tx : ∃ q, m.tx = some q ∧ q.inFlight = 0
  /-- Every usable slot has a buffer. -/
  rx : ∃ r, m.rx = some r ∧ r.posted = needed

namespace EngineInUse

variable (spares : ∀ mv, permits mv → mv.SparesSwitches)
  {q : TxRing} {r : RxRing} {p : BufferPool}

include spares

/-- The first half of a start: nothing is in flight, so the transmit ring runs.  Nothing else has
changed that the second half depends on. -/
theorem halfway (used : EngineInUse permits place depth txSize rxSize m) (tx : m.tx = some q)
    (clear : q.inFlight = 0) :
    ∃ k c, EngineInUse permits place depth txSize rxSize k ∧ k.tx = some (q.begin c) ∧
      k.rx = m.rx ∧ k.poolAt? place = m.poolAt? place ∧ k.frames = m.frames ∧
      k.handles = m.handles ∧
      m.startEngine = match k.startRx with
        | (.error cause, k) => (.error cause, k.cancelTx)
        | (.ok (), k) => (.ok (), k) := by
  obtain ⟨q', tx', reads⟩ := used.txGeared
  obtain rfl := Option.some.inj (tx'.symm.trans tx)
  rcases reads.startTx tx with ⟨busy, -⟩ | ⟨-, ok, -, begun⟩
  · exact absurd clear busy
  · have call : EngineRequest ⟨permits, place, True, True⟩ 0 m m.startTx.2 :=
      .call (.startTx m rfl fun _ => trivial)
    obtain ⟨rx, pools⟩ := (Machine.working_startTx m).rx_eq (by decide)
    obtain ⟨frames, handles⟩ := (Machine.working_startTx m).held_eq nofun
    refine ⟨m.startTx.2, _, used.run spares (.single call), begun, rx, ?_, frames, handles, ?_⟩
    · rw [Machine.poolAt?, pools, Machine.poolAt?]
    · unfold Machine.startEngine
      generalize m.startTx = started at ok ⊢
      obtain ⟨answer, k⟩ := started
      obtain rfl : answer = .ok () := ok
      rfl

/-- The retreat: the receive ring is empty, and the transmit ring is cancelled again. -/
theorem retreat (used : EngineInUse permits place depth txSize rxSize m) (tx : m.tx = some q)
    (rx : m.rx = some r) (idle : r.phase ≠ .running) :
    (m.cancelTx.adapter.read .txDmaControl = DmaControl.off ∧
        m.cancelTx.adapter.read .rxDmaControl = DmaControl.off) ∧
      (∃ q', m.cancelTx.tx = some q' ∧ q.Cancelled q') ∧ m.cancelTx.rx = some r ∧
      m.cancelTx.poolAt? place = m.poolAt? place ∧ m.cancelTx.frames = m.frames ∧
      m.cancelTx.handles = m.handles := by
  obtain ⟨q', tx', reads⟩ := used.txGeared
  obtain rfl := Option.some.inj (tx'.symm.trans tx)
  obtain ⟨txOff, cancelled⟩ := reads.cancelTx tx
  obtain ⟨sameRx, pools⟩ := (Machine.working_cancelTx m).rx_eq (by decide)
  obtain ⟨frames, handles⟩ := (Machine.working_cancelTx m).held_eq nofun
  have rx' : m.cancelTx.rx = some r := sameRx.trans rx
  have call : EngineRequest ⟨permits, place, True, True⟩ 0 m m.cancelTx := .call (.cancelTx m rfl)
  obtain ⟨r', rx'', rxOff⟩ := (used.run spares (.single call)).rxGeared
  obtain rfl := Option.some.inj (rx''.symm.trans rx')
  have rxOff' := rxOff.value.trans (Phase.control_of_idle idle)
  refine ⟨⟨txOff.value, rxOff'⟩, cancelled, rx', ?_, frames, handles⟩
  rw [Machine.poolAt?, pools, Machine.poolAt?]

/-- A start that is refused for want of buffers is rolled back. -/
theorem rolledBack (used : EngineInUse permits place depth txSize rxSize m) (tx : m.tx = some q)
    (clear : q.inFlight = 0) (rx : m.rx = some r) (pool : m.poolAt? place = some p)
    (short : p.capacity - m.toScene.out.length < r.capacity) :
    m.startEngine.1 = .error (.insufficientBuffers r.capacity (p.capacity - m.toScene.out.length)) ∧
      m.RolledBack permits place q p m.startEngine.2 := by
  obtain ⟨here, ledger, -⟩ := used.rx.ledger rx pool
  have handsNothingBack := m.handsNothingBack_startEngine
  obtain ⟨k, c, used₁, tx₁, rx₁, pool₁, frames, handles, engine⟩ := used.halfway spares tx clear
  have out : k.toScene.out = m.toScene.out := Scene.out_eq frames handles
  rw [rx] at rx₁
  rw [pool] at pool₁
  -- the receive ring is left empty
  obtain ⟨refused, emptied⟩ : k.startRx.1 =
        .error (.insufficientBuffers r.capacity (p.capacity - m.toScene.out.length)) ∧
      RxEmptied r p m.toScene.out .stopped k k.startRx.2 := by
    rw [← out]
    rcases used₁.rx.start rx₁ pool₁ with ⟨-, refused, emptied⟩ | ⟨enough, -⟩
    · exact ⟨refused, emptied⟩
    · rw [out] at enough
      omega
  have tried : EngineRequest ⟨permits, place, True, True⟩ 0 k k.startRx.2 :=
    .call (.startRx k rfl fun _ => trivial)
  have tx₂ : k.startRx.2.tx = some (q.begin c) :=
    ((Machine.working_startRx k).tx_eq (by decide)).trans tx₁
  obtain ⟨frames₂, handles₂⟩ := (Machine.working_startRx k).held_eq fun _ => trivial
  -- and the transmit ring is cancelled
  have idle : Phase.stopped ≠ .running := by decide
  obtain ⟨off, ⟨q', tx₃, cancelled⟩, rx₃, pool₃, frames₃, handles₃⟩ :=
    (used₁.run spares (.single tried)).retreat spares tx₂ emptied.rx idle
  obtain ⟨p', pool', kept, ledger'⟩ := emptied.pool
  rw [show k.startRx = (_, k.startRx.2) from Prod.ext refused rfl] at engine
  have ended : m.startEngine.2 = k.startRx.2.cancelTx := by rw [engine]
  refine ⟨by rw [engine], ?_⟩
  rw [ended] at handsNothingBack ⊢
  refine ⟨off,
    ⟨q', tx₃, cancelled.phase, cancelled.inFlight.trans (q.inFlight_begin c), cancelled.outstanding⟩,
    ⟨_, rx₃, r.posted_clear⟩,
    ⟨p', pool₃.trans (here ▸ pool'), fun b delivered => ?_, fun b inside => ?_⟩,
    ⟨frames₃.trans (frames₂.trans frames), handles₃.trans (handles₂.trans handles)⟩,
    fun u abides => ?_⟩
  · exact ledger.untouched ledger' kept ((ledger.delivered.mem_iff b).mpr delivered)
  · by_cases out : b ∈ m.toScene.out.map ReturnHandle.buffer
    · exact .inl ((ledger'.delivered.mem_iff b).mp out)
    · exact .inr (ledger'.free_of_notMem inside out)
  · obtain ⟨-, completed, -⟩ := advanceTx_of_cancelled abides tx₃ cancelled.phase
    have complete := used.tx.kept.complete
    rw [completed (handsNothingBack.detail.trans complete), cancelled.packets]
    exact congrArg (· ++ _) (handsNothingBack.pick_eq complete fun e none => none)

/-- A start for which there are buffers enough succeeds. -/
theorem underway (used : EngineInUse permits place depth txSize rxSize m) (tx : m.tx = some q)
    (clear : q.inFlight = 0) (rx : m.rx = some r) (pool : m.poolAt? place = some p)
    (enough : r.capacity ≤ p.capacity - m.toScene.out.length) :
    m.startEngine.1 = .ok () ∧ m.startEngine.2.Underway r.capacity := by
  obtain ⟨k, c, used₁, tx₁, rx₁, pool₁, frames, handles, engine⟩ := used.halfway spares tx clear
  have out : k.toScene.out = m.toScene.out := Scene.out_eq frames handles
  rw [rx] at rx₁
  rw [pool] at pool₁
  obtain ⟨ok, r', rx₂, running, posted⟩ : k.startRx.1 = .ok () ∧
      ∃ r', k.startRx.2.rx = some r' ∧ r'.phase = .running ∧ r'.posted = r.capacity := by
    rcases used₁.rx.start rx₁ pool₁ with ⟨short, -⟩ | ⟨-, started⟩
    · rw [out] at short
      omega
    · exact started
  have started : EngineRequest ⟨permits, place, True, True⟩ 0 k k.startRx.2 :=
    .call (.startRx k rfl fun _ => trivial)
  have used₂ := used₁.run spares (.single started)
  have tx₂ : k.startRx.2.tx = some (q.begin c) :=
    ((Machine.working_startRx k).tx_eq (by decide)).trans tx₁
  rw [show k.startRx = (.ok (), k.startRx.2) from Prod.ext ok rfl] at engine
  generalize k.startRx.2 = k₂ at engine rx₂ used₂ tx₂
  obtain ⟨q', tx', txReads⟩ := used₂.txGeared
  obtain rfl := Option.some.inj (tx'.symm.trans tx₂)
  obtain ⟨r'', rx', rxReads⟩ := used₂.rxGeared
  obtain rfl := Option.some.inj (rx'.symm.trans rx₂)
  rw [running] at rxReads
  rw [engine]
  exact ⟨rfl, ⟨txReads.value, rxReads.value⟩, ⟨_, tx₂, q.inFlight_begin c⟩, ⟨_, rx₂, posted⟩⟩

end EngineInUse

/-- **An engine starts as a whole or not at all.**  However an engine was used, a start is refused in
two cases only.  While transmit descriptors are in flight it is refused at once and nothing happens.
Otherwise it takes a buffer for each usable slot, and if the buffers that are not delivered are too
few, everything is switched off again, those buffers are free, and the packets of the transmit ring
are kept to be handed back as ignored.  If neither is the case, both rings run. -/
theorem engine_starts_whole_or_not_at_all {c : Config} {k m₀ : Machine}
    (spares : ∀ mv, permits mv → mv.SparesSwitches)
    (unused : k.Unused permits) (made : k.createEngine c = (.ok (), m₀))
    (run : ReflTransGen (EngineRequest ⟨permits, k.pools.size, True, True⟩ n) m₀ m) :
    ∃ q p, m.tx = some q ∧ m.poolAt? k.pools.size = some p ∧
      q.packets.length = q.outstanding ∧
      Forall₂ Packet.Marked m.journal.accepted (m.journal.completed ++ q.packets) ∧
      (q.inFlight ≠ 0 ∧ m.startEngine = (.error .badState, m) ∨
        q.inFlight = 0 ∧ p.capacity - p.tally.delivered < c.rxSlots - 1 ∧
          m.startEngine.1 =
            .error (.insufficientBuffers (c.rxSlots - 1) (p.capacity - p.tally.delivered)) ∧
          m.RolledBack permits k.pools.size q p m.startEngine.2 ∨
        q.inFlight = 0 ∧ c.rxSlots - 1 ≤ p.capacity - p.tally.delivered ∧
          m.startEngine.1 = .ok () ∧ m.startEngine.2.Underway (c.rxSlots - 1)) := by
  obtain ⟨txSize, rxSize, -, slots, begun⟩ := EngineInUse.of_made spares unused made
  have used := begun.run spares run
  obtain ⟨q, tx, reads⟩ := used.txGeared
  obtain ⟨r, rx, -⟩ := used.rxGeared
  obtain ⟨p, pool⟩ := used.rx.pool
  obtain ⟨-, ledger, -⟩ := used.rx.ledger rx pool
  obtain ⟨-, -, books⟩ := used.tx.kept.ledger tx
  have capacity : r.capacity = c.rxSlots - 1 := by
    rw [RxRing.capacity, used.rx.size_eq rx, RingSize.capacity, slots]
  have delivered : p.tally.delivered = m.toScene.out.length := by rw [ledger.tally_eq]
  refine ⟨q, p, tx, pool, (TxLedger.packets_length q).trans books.outstanding.symm, books.order, ?_⟩
  rw [← capacity, delivered]
  by_cases clear : q.inFlight = 0
  · rcases Nat.lt_or_ge (p.capacity - m.toScene.out.length) r.capacity with short | enough
    · obtain ⟨refused, back⟩ := used.rolledBack spares tx clear rx pool short
      exact .inr (.inl ⟨clear, short, refused, back⟩)
    · obtain ⟨ok, underway⟩ := used.underway spares tx clear rx pool enough
      exact .inr (.inr ⟨clear, enough, ok, underway⟩)
  · rcases reads.startTx tx with ⟨-, refused⟩ | ⟨idle, -⟩
    · exact .inl ⟨clear, by rw [Machine.startEngine, refused]⟩
    · exact absurd idle clear

/-- A small engine is running, with a packet in the intake and two of its four buffers out.  It cannot
be started again. -/
theorem engine_starts_whole_or_not_at_all_short :
    ∃ (m : Machine) (q : TxRing) (p : BufferPool),
      ReflTransGen (EngineRequest ⟨Move.SparesSwitches, 0, True, True⟩ 0) .small m ∧
      m.tx = some q ∧ q.phase = .running ∧ q.outstanding = 1 ∧
      m.poolAt? 0 = some p ∧ p.tally.delivered = 2 ∧
      m.startEngine.1 = .error (.insufficientBuffers 3 2) ∧
      m.RolledBack Move.SparesSwitches 0 q p m.startEngine.2 := by
  let packet : Packet := .single 1 ⟨.ofNat 0x1000, 64⟩
  let filled : Machine := (Machine.small.startEngine.2.move .frame).move .frame
  let m : Machine := ((filled.advanceRx .keeping).machine.submit packet).2
  have run : ReflTransGen (EngineRequest ⟨Move.SparesSwitches, 0, True, True⟩ 0) .small m :=
    ReflTransGen.refl
      |>.tail (.start _ (fun _ => trivial) fun _ => trivial)
      |>.tail (.call (.holding (.move _ Move.sparesSwitches_frame)))
      |>.tail (.call (.holding (.move _ Move.sparesSwitches_frame)))
      |>.tail (.call (.advanceRx _ rfl (Upper.abides_keeping _)))
      |>.tail (.call (.submit _ packet))
  have short : m.startEngine.1 = .error (.insufficientBuffers 3 2) := by decide +kernel
  obtain ⟨q, p, tx, pool, -, -, outcome⟩ := engine_starts_whole_or_not_at_all
    (fun _ spared => spared) (Machine.unused_blank 4) Machine.createEngine_small run
  have ring : m.tx.map (fun q => (q.phase, q.outstanding)) = some (.running, 1) := by
    decide +kernel
  have delivered : (m.poolAt? 0).map (fun p => p.tally.delivered) = some 2 := by decide +kernel
  rw [tx, Option.map_some] at ring
  obtain ⟨running, outstanding⟩ := Prod.mk.inj (Option.some.inj ring)
  refine ⟨m, q, p, run, tx, running, outstanding, pool, ?_, short, ?_⟩
  · rw [show m.poolAt? 0 = some p from pool] at delivered
    exact Option.some.inj delivered
  · rcases outcome with ⟨-, refused⟩ | ⟨-, -, -, back⟩ | ⟨-, -, ok, -⟩
    · exact nomatch short.symm.trans (congrArg Prod.fst refused)
    · exact back
    · exact nomatch short.symm.trans ok

end DescriptorRings
