import DescriptorRings.Proofs.Engine.Rings

/-!
# The switch of a direction

A ring switches its direction on when it is started and off when it is cancelled, so the phase of
the ring and the register that holds the switch tell the same thing: between any two requests the
register holds `Phase.control` of the phase.  That takes an adapter that leaves the register alone,
and nothing else.
-/

namespace DescriptorRings

open Relation List

/-- What the switch of a direction holds while its ring is in a phase. -/
def Phase.control : Phase → UInt32
  | .running => DmaControl.enable
  | .stopped | .cancelled => DmaControl.off

theorem Phase.control_of_idle {phase : Phase} (idle : phase ≠ .running) :
    phase.control = DmaControl.off := by
  cases phase with
  | running => exact absurd rfl idle
  | stopped | cancelled => rfl

variable {p : Part} {Act : Machine → Machine → Prop} {permits : Move → Prop} {place : Nat}
  {starts : Prop} {m m' : Machine} {reg : Register} {v : UInt32}

/-! ## What leaves a register alone -/

namespace Machine.Reads

theorem write_self (h : m.Reads reg v) (w : UInt32) : (m.write reg w).Reads reg w :=
  h.turn.overwrite w

theorem give (h : m.Reads reg v) (n : Notice) : (m.give n).Reads reg v := by
  unfold Machine.give
  split
  · exact h.record _
  · exact h

/-- A part that is not at its switch leaves the registers alone that it does not own. -/
theorem working (h : m.Reads reg v) (foreign : p.owns reg = false) (status : reg ≠ .irqStatus)
    (acts : ∀ k k', Act k k' → k.Reads reg v → k'.Reads reg v) (run : Working p False Act m m') :
    m'.Reads reg v :=
  run.keeps (fun _ _ stroke => stroke.reads foreign False.elim status) acts h

/-- What happens while nobody else acts. -/
theorem alone (h : m.Reads reg v) (foreign : p.owns reg = false) (status : reg ≠ .irqStatus)
    (run : Working p False (fun _ _ => False) m m') : m'.Reads reg v :=
  h.working foreign status (fun _ _ none => none.elim) run

theorem plan (h : m.Reads reg v) (spares : ∀ mv, permits mv → mv.Spares reg)
    {agenda : List (List Move)} (permitted : Permitted permits agenda) :
    Reads reg v { m with agenda := agenda } :=
  ⟨h.value, fun ms hms mv hmv => spares mv (permitted ms hms mv hmv)⟩

/-- **The upper layer and other parts leave the switch of the transmit ring alone.** -/
theorem txMeanwhile (spares : ∀ mv, permits mv → mv.Spares .txDmaControl)
    (act : TxMeanwhile permits m m') (h : m.Reads .txDmaControl v) : m'.Reads .txDmaControl v := by
  cases act with
  | submit p =>
    unfold submit
    split
    · exact h
    · exact record (m := m.modifyTx fun r => r.accept p) ⟨h.value, h.planned⟩ _
  | turn => exact h.turn
  | move permitted => exact h.move (spares _ permitted)
  | plan permitted => exact h.plan spares permitted
  | elsewhere apart =>
    refine ⟨apart.registers.control.trans h.value, ?_⟩
    rw [apart.agenda]
    exact h.planned
  | note => exact h.record _

/-- So does whoever gives buffers back. -/
theorem holding (spares : ∀ mv, permits mv → mv.Spares reg) (foreign : Part.rx.owns reg = false)
    (status : reg ≠ .irqStatus) (act : Holding permits place m m') (h : m.Reads reg v) :
    m'.Reads reg v := by
  rcases act.cases with run | ⟨o, rfl⟩ | ⟨mv, permitted, rfl⟩
  · exact h.alone foreign status run
  · exact h.record _
  · exact h.move (spares mv permitted)

/-- **The upper layer and other parts leave the switch of the receive ring alone.** -/
theorem rxMeanwhile (spares : ∀ mv, permits mv → mv.Spares .rxDmaControl)
    (act : RxMeanwhile permits place m m') (h : m.Reads .rxDmaControl v) :
    m'.Reads .rxDmaControl v := by
  cases act with
  | holding act => exact h.holding spares rfl (by decide) act
  | turn => exact h.turn
  | plan permitted => exact h.plan spares permitted
  | note => exact h.record _
  | @write s w other =>
    refine h.poke (fun same => other ?_) (by decide) w
    rw [← same]
    decide
  | writeTx slot d =>
    exact record (m := m.setAdapter (m.adapter.writeTx slot d)) ⟨h.value, h.planned⟩ _
  | elsewhere => exact ⟨h.value, h.planned⟩

/-! ## Starting and cancelling -/

/-- **Starting the transmit ring** is refused while descriptors are in flight, and then nothing
happens at all; otherwise the ring runs, and its direction is on. -/
theorem startTx {r : TxRing} (h : m.Reads .txDmaControl v) (tx : m.tx = some r) :
    r.inFlight ≠ 0 ∧ m.startTx = (.error .badState, m) ∨
      r.inFlight = 0 ∧ m.startTx.1 = .ok () ∧ m.startTx.2.Reads .txDmaControl DmaControl.enable ∧
        m.startTx.2.tx = some (r.begin (m.readCounter .txConsumer).1) := by
  by_cases busy : r.inFlight = 0
  · have clear : ¬(m.tx.any fun r => r.inFlight != 0) = true := by
      rw [tx, Option.any_some, busy]
      exact Bool.false_ne_true
    have ok : m.startTx.1 = .ok () := by
      unfold Machine.startTx
      rw [if_neg clear]
    refine .inr ⟨busy, ok, ?_, (startTx_of_ok tx ok).2⟩
    have read : (m.readCounter .txConsumer).2.Reads .txDmaControl v := h.turn.record _
    have placed : Reads .txDmaControl v
        ((m.readCounter .txConsumer).2.modifyTx fun r => r.begin (m.readCounter .txConsumer).1) :=
      ⟨read.value, read.planned⟩
    have aligned := placed.turn.poke (s := .txProducer) (by decide) (by decide)
      (m.readCounter .txConsumer).1.toUInt32
    unfold Machine.startTx
    rw [if_neg clear]
    exact (aligned.write_self DmaControl.enable).give _
  · refine .inl ⟨busy, ?_⟩
    have refused : (m.tx.any fun r => r.inFlight != 0) = true := by
      rw [tx, Option.any_some]
      exact bne_iff_ne.mpr busy
    rw [Machine.startTx, if_pos refused]

end Machine.Reads

namespace Machine

/-- A ring that is not cancelled yet is cancelled. -/
theorem cancelTx_of_live {r : TxRing} (tx : m.tx = some r) (live : r.phase ≠ .cancelled) :
    m.cancelTx = ((m.write .txDmaControl DmaControl.off).setTx r.cancel).give
      (.txCancelled r.cancel.queue.length) := by
  have idle : ¬(m.tx.any TxRing.isCancelled) = true := by
    rw [tx]
    exact fun cancelled => live (eq_of_beq cancelled)
  have tx' : (m.write .txDmaControl DmaControl.off).tx = some r := (tx_write _ _ _).trans tx
  unfold cancelTx
  rw [if_neg idle]
  dsimp only
  rw [modifyTx_eq_setTx tx']
  rfl

theorem cancelRx_of_live {r : RxRing} (rx : m.rx = some r) (live : r.phase ≠ .cancelled) :
    m.cancelRx = ((m.write .rxDmaControl DmaControl.off).setRx (r.enter .cancelled)).give
      (.rxCancelled r.posted) := by
  have idle : ¬(m.rx.any RxRing.isCancelled) = true := by
    rw [rx]
    exact fun cancelled => live (eq_of_beq cancelled)
  have rx' : (m.write .rxDmaControl DmaControl.off).rx = some r := (rx_write _ _ _).trans rx
  unfold cancelRx
  rw [if_neg idle]
  dsimp only
  rw [modifyRx_eq_setRx rx']
  rfl

/-- A ring that is cancelled is not cancelled again. -/
theorem cancelRx_of_cancelled {r : RxRing} (rx : m.rx = some r) (cancelled : r.phase = .cancelled) :
    m.cancelRx = m := by
  have idle : (m.rx.any RxRing.isCancelled) = true := by
    rw [rx]
    exact beq_iff_eq.mpr cancelled
  rw [cancelRx, if_pos idle]

end Machine

/-- A ring `q` is what cancelling a ring `r` makes of it, now or before. -/
structure TxRing.Cancelled (r q : TxRing) : Prop where
  /-- It is cancelled. -/
  phase : q.phase = .cancelled
  /-- It has the same packets, marked or not. -/
  packets : q.packets.map Packet.ignore = r.packets.map Packet.ignore
  /-- It counts as many. -/
  outstanding : q.outstanding = r.outstanding
  /-- As many descriptors are in flight. -/
  inFlight : q.inFlight = r.inFlight

theorem TxRing.cancelled_cancel (r : TxRing) : r.Cancelled r.cancel := by
  refine ⟨rfl, ?_, rfl, rfl⟩
  have twice : Packet.ignore ∘ Packet.ignore = Packet.ignore := rfl
  rw [packets, packets, queue_cancel, map_append, map_append, List.map_map, twice]
  rfl

namespace Machine.Reads

/-- **Cancelling the transmit ring** leaves its direction off. -/
theorem cancelTx {r : TxRing} (h : m.Reads .txDmaControl r.phase.control) (tx : m.tx = some r) :
    m.cancelTx.Reads .txDmaControl DmaControl.off ∧
      ∃ q, m.cancelTx.tx = some q ∧ r.Cancelled q := by
  by_cases cancelled : r.phase = .cancelled
  · rw [cancelTx_of_cancelled tx cancelled]
    rw [cancelled] at h
    exact ⟨h, r, tx, cancelled, rfl, rfl, rfl⟩
  · rw [cancelTx_of_live tx cancelled]
    have off := h.write_self DmaControl.off
    have set : Reads .txDmaControl DmaControl.off
        ((m.write .txDmaControl DmaControl.off).setTx r.cancel) := ⟨off.value, off.planned⟩
    exact ⟨set.give _, r.cancel, tx_give _ _, r.cancelled_cancel⟩

/-- **Cancelling the receive ring** leaves its direction off, and the ring as it is. -/
theorem cancelRx {r : RxRing} (h : m.Reads .rxDmaControl r.phase.control) (rx : m.rx = some r) :
    m.cancelRx.Reads .rxDmaControl DmaControl.off ∧ m.cancelRx.rx = some (r.enter .cancelled) := by
  by_cases cancelled : r.phase = .cancelled
  · rw [cancelRx_of_cancelled rx cancelled]
    have same : r.enter .cancelled = r := by
      rw [RxRing.enter, ← cancelled]
    rw [cancelled] at h
    exact ⟨h, by rw [same]; exact rx⟩
  · rw [cancelRx_of_live rx cancelled]
    have off := h.write_self DmaControl.off
    have set : Reads .rxDmaControl DmaControl.off
        ((m.write .rxDmaControl DmaControl.off).setRx (r.enter .cancelled)) :=
      ⟨off.value, off.planned⟩
    exact ⟨set.give _, rx_give _ _⟩

/-- **Starting the receive ring** leaves its direction on, or off if that is refused. -/
theorem startRx {r : RxRing} (h : m.Reads .rxDmaControl v) (rx : m.rx = some r) :
    m.startRx.1 = .ok () ∧ m.startRx.2.Reads .rxDmaControl DmaControl.enable ∨
      m.startRx.1 ≠ .ok () ∧ m.startRx.2.Reads .rxDmaControl DmaControl.off := by
  have acquired : Reads .rxDmaControl DmaControl.off
      ((m.write .rxDmaControl DmaControl.off).recyclePosted.acquireMany r.pool r.capacity).2 :=
    (h.write_self DmaControl.off).alone rfl (by decide)
      ((working_recyclePosted _).trans (working_acquireMany _ _ _))
  unfold Machine.startRx
  rw [rx, Option.map_some]
  dsimp only
  generalize (m.write .rxDmaControl DmaControl.off).recyclePosted.acquireMany r.pool r.capacity = b
    at acquired ⊢
  obtain ⟨batch, k⟩ := b
  dsimp only at acquired ⊢
  split
  case isTrue short =>
    refine .inr ?_
    have returned : Working .rx False (fun _ _ => False) k _ :=
      working_forBuffers (fun b k => working_putBack k r.pool b) batch k
    have back := acquired.alone rfl (by decide) returned
    unfold abortStart
    split
    · next e =>
      rw [e] at back
      exact ⟨nofun, back⟩
    · next k' e =>
      rw [e] at back
      have stopped : Reads .rxDmaControl DmaControl.off (k'.modifyRx fun q => q.enter .stopped) :=
        ⟨back.value, back.planned⟩
      exact ⟨nofun, stopped.give _⟩
  case isFalse =>
    have placed : Reads .rxDmaControl DmaControl.off
        ((k.readCounter .rxConsumer).2.modifyRx fun q =>
          q.resync (k.readCounter .rxConsumer).1) :=
      ⟨(acquired.turn.record _).value, (acquired.turn.record _).planned⟩
    have given (k : Machine) : Working .rx False (fun _ _ => False) k _ :=
      working_forBuffers (fun b k => working_postBuffer k r.pool b) batch k
    have posted := placed.alone rfl (by decide) (given _)
    unfold completeStart
    dsimp only
    split
    · next e =>
      rw [e] at posted
      exact .inr ⟨nofun, posted⟩
    · next k' e =>
      rw [e] at posted
      have running : Reads .rxDmaControl DmaControl.off (k'.modifyRx fun q => q.enter .running) :=
        ⟨posted.value, posted.planned⟩
      have rung := running.turn.poke (s := .rxProducer) (by decide) (by decide)
        (((k'.modifyRx fun q => q.enter .running).rx.map RxRing.producer).getD 0).toUInt32
      exact .inl ⟨rfl, (rung.write_self DmaControl.enable).give _⟩

end Machine.Reads

/-! ## Phase and switch -/

section Geared

variable {size : RingSize}

/-- The transmit direction is on just while its ring is running. -/
def TxGeared (m : Machine) : Prop :=
  ∃ r, m.tx = some r ∧ m.Reads .txDmaControl r.phase.control

/-- The receive direction is on just while its ring is running. -/
def RxGeared (m : Machine) : Prop :=
  ∃ r, m.rx = some r ∧ m.Reads .rxDmaControl r.phase.control

theorem TxMeanwhile.phase_eq (act : TxMeanwhile permits m m') {r : TxRing} (tx : m.tx = some r) :
    ∃ q, m'.tx = some q ∧ q.phase = r.phase := by
  obtain ⟨intake, n, tx'⟩ := act.tx_eq tx
  exact ⟨_, tx', rfl⟩

theorem Holding.phase_eq (act : Holding permits place m m') :
    m'.rx.map RxRing.phase = m.rx.map RxRing.phase := by
  rcases act.cases with run | ⟨o, rfl⟩ | ⟨mv, permitted, rfl⟩
  · exact run.keeps (P := fun k => k.rx.map RxRing.phase = m.rx.map RxRing.phase)
      (fun _ _ stroke h => stroke.phase_eq.2.trans h) (fun _ _ none => none.elim) rfl
  · rw [Machine.toScene_record]
  · rw [Machine.toScene_move]

theorem RxMeanwhile.phase_eq (act : RxMeanwhile permits place m m') :
    m'.rx.map RxRing.phase = m.rx.map RxRing.phase := by
  cases act with
  | holding act => exact act.phase_eq
  | turn => rw [m.rx_turn]
  | plan | elsewhere => rfl
  | note => rw [Machine.toScene_record]
  | write => rw [Machine.toScene_poke]
  | writeTx => rw [Machine.toScene_pokeTx]

/-- **Every call to the transmit ring keeps phase and switch together.** -/
theorem TxGeared.call (h : TxGeared m) (spares : ∀ mv, permits mv → mv.Spares .txDmaControl)
    (call : TxCall permits starts m m') : TxGeared m' := by
  obtain ⟨r, tx, reads⟩ := h
  cases call with
  | start =>
    rcases reads.startTx tx with ⟨-, refused⟩ | ⟨-, -, on, tx'⟩
    · rw [refused]
      exact ⟨r, tx, reads⟩
    · exact ⟨_, tx', on⟩
  | cancel =>
    obtain ⟨off, q, tx', cancelled⟩ := reads.cancelTx tx
    refine ⟨q, tx', ?_⟩
    rw [cancelled.phase]
    exact off
  | advance abides =>
    let Inv (k : Machine) : Prop :=
      k.tx.map TxRing.phase = some r.phase ∧ k.Reads .txDmaControl r.phase.control
    have start : Inv m := ⟨by rw [tx]; rfl, reads⟩
    obtain ⟨phase, reads'⟩ : Inv _ := (Machine.works_advanceTx m abides).run.keeps
      (fun k k' stroke h => ⟨stroke.phase_eq.1.trans h.1,
        stroke.reads rfl False.elim (by decide) h.2⟩)
      (fun k k' act h => by
        obtain ⟨q, tx, same⟩ := Option.map_eq_some_iff.mp h.1
        obtain ⟨q', tx', same'⟩ := act.phase_eq tx
        exact ⟨by rw [tx', Option.map_some, same', same], h.2.txMeanwhile spares act⟩) start
    obtain ⟨q, tx', same⟩ := Option.map_eq_some_iff.mp phase
    exact ⟨q, tx', by rw [same]; exact reads'⟩
  | meanwhile act =>
    obtain ⟨q, tx', same⟩ := act.phase_eq tx
    exact ⟨q, tx', by rw [same]; exact reads.txMeanwhile spares act⟩

theorem TxGeared.calls (h : TxGeared m) (spares : ∀ mv, permits mv → mv.Spares .txDmaControl)
    (run : ReflTransGen (TxCall permits starts) m m') : TxGeared m' := by
  induction run with
  | refl => exact h
  | tail _ call ih => exact ih.call spares call

/-- **What a start of the receive ring comes to**: it is refused just when too many buffers are
out. -/
theorem RxInUse.start (used : RxInUse permits place size m) {r : RxRing} {q : BufferPool}
    (rx : m.rx = some r) (pool : m.poolAt? place = some q) :
    (q.capacity - m.toScene.out.length < r.capacity ∧
        m.startRx.1 = .error (.insufficientBuffers r.capacity (q.capacity - m.toScene.out.length)) ∧
        RxEmptied r q m.toScene.out .stopped m m.startRx.2) ∨
      (r.capacity ≤ q.capacity - m.toScene.out.length ∧ m.startRx.1 = .ok () ∧
        ∃ r', m.startRx.2.rx = some r' ∧ r'.phase = .running ∧ r'.posted = r.capacity) := by
  obtain ⟨n, r', q', bs, guard⟩ := used
  obtain rfl : r' = r := Option.some.inj (guard.rx.symm.trans rx)
  obtain rfl : q' = q := Option.some.inj (guard.pool.symm.trans pool)
  by_cases short : q'.capacity - m.toScene.out.length < r'.capacity
  · exact .inl ⟨short, Machine.startRx_of_short rx (guard.place ▸ pool) guard.between short⟩
  · have enough := Nat.le_of_not_lt short
    have begun := guard.here True
    have ok := begun.startRx_of_enough trivial rx pool enough
    obtain ⟨n', ⟨⟨r'', p', bs', guard'⟩, -⟩, full⟩ := begun.startRx trivial
    refine .inr ⟨enough, ok, r'', guard'.rx, Machine.phase_startRx rx ok guard'.rx, ?_⟩
    have filled : bs'.length = n' := guard'.filled
    rw [guard'.holds.posted_eq, filled, full ok, RxRing.capacity, guard.size]
    rfl

/-- **Every call to the receive ring keeps phase and switch together.** -/
theorem RxGeared.call (h : RxGeared m) (spares : ∀ mv, permits mv → mv.Spares .rxDmaControl)
    (used : RxInUse permits place size m) (call : RxCall permits place starts m m') :
    RxGeared m' := by
  obtain ⟨r, rx, reads⟩ := h
  cases call with
  | start =>
    obtain ⟨q, pool⟩ : ∃ q, m.poolAt? place = some q := by
      obtain ⟨n, r', q, bs, guard⟩ := used
      exact ⟨q, guard.pool⟩
    rcases used.start rx pool with ⟨-, refused, emptied⟩ | ⟨-, ok, r', rx', running, -⟩
    · rcases reads.startRx rx with ⟨ok, -⟩ | ⟨-, off⟩
      · exact nomatch refused.symm.trans ok
      · exact ⟨_, emptied.rx, off⟩
    · rcases reads.startRx rx with ⟨-, on⟩ | ⟨refused, -⟩
      · exact ⟨r', rx', by rw [running]; exact on⟩
      · exact absurd ok refused
  | cancel =>
    obtain ⟨off, rx'⟩ := reads.cancelRx rx
    exact ⟨_, rx', off⟩
  | advance abides =>
    let Inv (k : Machine) : Prop :=
      k.rx.map RxRing.phase = some r.phase ∧ k.Reads .rxDmaControl r.phase.control
    have start : Inv m := ⟨by rw [rx]; rfl, reads⟩
    obtain ⟨phase, reads'⟩ : Inv _ := (Machine.works_advanceRx m abides).run.keeps
      (fun k k' stroke h => ⟨stroke.phase_eq.2.trans h.1,
        stroke.reads rfl False.elim (by decide) h.2⟩)
      (fun k k' act h => ⟨act.phase_eq.trans h.1, h.2.rxMeanwhile spares act⟩) start
    obtain ⟨q, rx', same⟩ := Option.map_eq_some_iff.mp phase
    exact ⟨q, rx', by rw [same]; exact reads'⟩
  | meanwhile act =>
    obtain ⟨q, rx', same⟩ := Option.map_eq_some_iff.mp
      (act.phase_eq.trans (congrArg (Option.map RxRing.phase) rx))
    exact ⟨q, rx', by rw [same]; exact reads.rxMeanwhile spares act⟩

theorem RxGeared.calls (h : RxGeared m) (spares : ∀ mv, permits mv → mv.Spares .rxDmaControl)
    (used : RxInUse permits place size m) (run : ReflTransGen (RxCall permits place starts) m m') :
    RxGeared m' := by
  have both : RxInUse permits place size m' ∧ RxGeared m' := by
    induction run with
    | refl => exact ⟨used, h⟩
    | tail _ call ih => exact ⟨ih.1.call call, ih.2.call spares ih.1 call⟩
  exact both.2

theorem TxGeared.of_made {slots depth : Nat} (made : m.TxMade slots depth)
    (planned : Machine.Permitted (Move.Spares .txDmaControl) m.agenda) : TxGeared m := by
  obtain ⟨r, new, tx⟩ := made.made
  obtain ⟨size, -, rfl⟩ := TxRing.create_eq_ok new
  exact ⟨_, tx, made.off, planned⟩

theorem RxGeared.of_made {slots : Nat} (made : m.RxMade place slots)
    (planned : Machine.Permitted (Move.Spares .rxDmaControl) m.agenda) : RxGeared m := by
  obtain ⟨bufferSize, pad, r, new, rx⟩ := made.made
  refine ⟨r, rx, ?_, planned⟩
  rw [RxRing.phase_create new]
  exact made.off

end Geared

end DescriptorRings
