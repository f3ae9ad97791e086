import DescriptorRings.Proofs.Engine.Arbiter
import DescriptorRings.Proofs.Engine.Silence
import DescriptorRings.Proofs.Engine.Start

/-!
# Stopping an engine

To stop an engine is to disarm both directions, to cancel both rings, and to serve each of them once
more.  No single one of these is complete.  A cancellation leaves packets in both queues of the
transmit ring and buffers in the receive ring; it is the last service that hands them back.  And while
that service does so, the upper layer is called, and may submit packets and give buffers back
(`Parting`).

So three parts of the machine are followed through the same four calls, each by itself, and each of
them sees the calls of the others as what happens meanwhile:

* the transmit ring hands back what it had when the stop began, in order and marked, and what was
  submitted since stays outstanding (`EngineInUse.sent`);
* the receive ring gives back what it holds, and shows nothing (`EngineInUse.emptied`);
* the arbiter is mute from the beginning (`EngineInUse.muted`).

`Machine.Stopped` is what is then left.
-/

namespace DescriptorRings

open Relation List

variable {R : Rules} {l : Locks} {n : Nat} {permits : Move → Prop} {place : Nat}
  {startsTx startsRx : Prop} {m m' : Machine} {stalled : Option Direction}

/-! ## What the upper layer does meanwhile -/

/-- What the upper layer may do while an engine is being stopped: it submits packets and gives buffers
back, and the adapter makes moves. -/
inductive Parting (permits : Move → Prop) (place : Nat) : Machine → Machine → Prop
  /-- A packet is submitted. -/
  | submit (m : Machine) (p : Packet) : Parting permits place m (m.submit p).2
  /-- Buffers are given back. -/
  | holding {m m' : Machine} (h : Holding permits place m m') : Parting permits place m m'

namespace Parting

theorem call (act : Parting permits place m m') :
    Calls ⟨permits, place, startsTx, startsRx⟩ (n + 1) l m m' := by
  cases act with
  | submit p => exact Call.submit m p
  | holding h => exact Call.holding h

/-- The transmit ring sees submissions. -/
theorem tx (act : Parting permits place m m') : ReflTransGen (TxMeanwhile permits) m m' :=
  Calls.txView (R := ⟨permits, place, True, True⟩) (n := 1) (l := { tx := true }) act.call

/-- The receive ring sees buffers come back. -/
theorem rx (act : Parting permits place m m') : ReflTransGen (RxMeanwhile permits place) m m' :=
  Calls.rxView (R := ⟨permits, place, True, True⟩) (n := 1) (l := { rx := true }) act.call

/-- The arbiter is not concerned. -/
theorem muted (spares : ∀ mv, permits mv → mv.Spares .irqEnable) (act : Parting permits place m m')
    (h : m.Muted stalled) : m'.Muted stalled := by
  cases act with
  | submit p =>
    unfold Machine.submit
    split
    · exact h
    · have accepted : Machine.Muted stalled (m.modifyTx fun r => r.accept p) :=
        ⟨h.disarmed, ⟨h.reads.value, h.reads.planned⟩, h.stalled⟩
      exact accepted.record _
  | holding act =>
    rcases act.cases with run | ⟨o, rfl⟩ | ⟨mv, permitted, rfl⟩
    · exact h.working (by decide) (fun _ _ none => none.elim) run
    · exact h.record _
    · refine ⟨?_, h.reads.move (spares mv permitted), ?_⟩
      · rw [Machine.toScene_move]
        exact h.disarmed
      · rw [Machine.toScene_move]
        exact h.stalled

end Parting

/-- A run in which nothing but submissions concerns the transmit ring. -/
theorem TxMeanwhile.run_eq (run : ReflTransGen (TxMeanwhile permits) m m') {r : TxRing}
    (tx : m.tx = some r) (complete : m.journal.detail = .complete) :
    (∃ intake count, m'.tx = some { r with intake := intake, outstanding := count }) ∧
      m'.journal.detail = .complete ∧ m'.journal.completed = m.journal.completed := by
  induction run with
  | refl => exact ⟨⟨r.intake, r.outstanding, tx⟩, complete, rfl⟩
  | tail _ act ih =>
    obtain ⟨⟨intake, count, tx'⟩, complete', completed⟩ := ih
    obtain ⟨intake', count', tx''⟩ := act.tx_eq tx'
    refine ⟨⟨intake', count', tx''⟩, act.enters.detail.trans complete', ?_⟩
    refine (act.enters.pick_eq complete' fun e sending => ?_).trans completed
    cases e <;> first | rfl | exact absurd sending Bool.false_ne_true

/-- What was handed back is what had been taken in before, so what is left was taken in since. -/
theorem TxInUse.left_since {size : RingSize} {depth : Nat} {q q' : TxRing} {new : List Packet}
    (used : TxInUse permits size depth m) (used' : TxInUse permits size depth m')
    (tx : m.tx = some q) (tx' : m'.tx = some q')
    (accepted : m'.journal.accepted = m.journal.accepted ++ new)
    (completed : m'.journal.completed = m.journal.completed ++ q.packets.map Packet.ignore) :
    Forall₂ Packet.Marked new q'.packets := by
  obtain ⟨-, -, books⟩ := used.kept.ledger tx
  obtain ⟨-, -, books'⟩ := used'.kept.ledger tx'
  have order : Forall₂ Packet.Marked (m.journal.accepted ++ new)
      (m'.journal.completed ++ q'.packets) := accepted ▸ books'.order
  have same : m'.journal.completed.length = m.journal.accepted.length := by
    rw [books.order.length_eq, completed, length_append, length_map, length_append]
    rfl
  have rest := forall₂_drop_append _ _ _ order
  rwa [same, drop_left] at rest

/-- **If the ring holds nothing and nothing is out any more, every buffer is free.** -/
theorem RxInUse.all_free {size : RingSize} {r : RxRing} (used : RxInUse permits place size m)
    (rx : m.rx = some r) (held : r.held = []) (released : ReflTransGen (Holding permits place) m m')
    (out : m'.toScene.out = []) :
    ∃ p, m'.poolAt? place = some p ∧ p.available = p.capacity ∧
      ∀ b : BufferId, b.index < p.capacity → p.stateOf? b = some .free := by
  have calls : ReflTransGen (RxCall permits place False) m m' :=
    released.lift id fun _ _ act => .meanwhile (.holding act)
  have spared : RxSpared m m' :=
    RxMeanwhile.spared_run (released.lift id fun _ _ act => .holding act)
  have used' := used.calls calls
  obtain ⟨p, pool⟩ := used'.pool
  obtain ⟨-, ledger, -⟩ := used'.ledger (spared.rx.trans rx) pool
  rw [held, out] at ledger
  exact ⟨p, pool, ledger.available_eq, fun b inside => ledger.free_of_notMem inside not_mem_nil⟩

/-! ## The end of an engine -/

namespace EngineInUse

variable {depth : Nat} {txSize rxSize : RingSize} {q : TxRing} {r : RxRing} {u : Upper}
  (spares : ∀ mv, permits mv → mv.SparesSwitches ∧ mv.Spares .irqEnable)

include spares

/-- Disarming both directions keeps the engine in order. -/
theorem disarm (used : EngineInUse permits place depth txSize rxSize m) :
    EngineInUse permits place depth txSize rxSize ((m.setArmed .tx false).setArmed .rx false) := by
  have calls : ReflTransGen (EngineRequest ⟨permits, place, True, True⟩ 0) m _ :=
    ReflTransGen.refl |>.tail (.call (.arm m .tx false)) |>.tail (.call (.arm _ .rx false))
  exact used.run (fun mv ok => (spares mv ok).1) calls

/-- The transmit ring hands back what it has. -/
theorem sent (used : EngineInUse permits place depth txSize rxSize m) (tx : m.tx = some q)
    (abides : u.Abides (Parting permits place)) :
    (m.stopEngine u).machine.journal.completed =
        m.journal.completed ++ q.packets.map Packet.ignore ∧
      ∃ q', (m.stopEngine u).machine.tx = some q' ∧ q'.phase ≠ .running ∧ q'.inFlight = 0 := by
  have complete := used.tx.kept.complete
  -- the directions are disarmed, and both rings are cancelled
  have armed : Working .irq False (fun _ _ => False) m
      ((m.setArmed .tx false).setArmed .rx false) :=
    (Machine.working_setArmed m .tx false).trans (Machine.working_setArmed _ .rx false)
  have used₂ := used.disarm spares
  have tx₂ := (armed.tx_eq (by decide)).trans tx
  have nothing₂ := Machine.handsNothingBack_of_working (by decide) armed
  have served := m.stopEngine_eq u
  unfold Machine.stopSent at served
  generalize (m.setArmed .tx false).setArmed .rx false = k₂ at *
  obtain ⟨q₂, tx', reads⟩ := used₂.txGeared
  obtain rfl := Option.some.inj (tx'.symm.trans tx₂)
  obtain ⟨-, q₃, tx₃, cancelled⟩ := reads.cancelTx tx₂
  have tx₄ := ((Machine.working_cancelRx k₂.cancelTx).tx_eq (by decide)).trans tx₃
  have nothing₄ : m.HandsNothingBack k₂.cancelTx.cancelRx :=
    (nothing₂.trans (Machine.handsNothingBack_cancelTx k₂)).trans
      (Machine.handsNothingBack_of_working (by decide) (Machine.working_cancelRx k₂.cancelTx))
  generalize k₂.cancelTx.cancelRx = k₄ at *
  -- the transmit ring is served, and the receive ring after it
  obtain ⟨entered, completed, q₅, tx₅, -, phase, clear⟩ :=
    advanceTx_of_cancelled (abides.mono fun _ _ act => act.tx) tx₄ cancelled.phase
  have abides' := (Machine.works_advanceTx k₄ abides).abides
  have last : ReflTransGen (TxMeanwhile permits) (k₄.advanceTx u).machine (m.stopEngine u).machine := by
    rw [served]
    exact TxView.working (R := ⟨permits, place, True, True⟩) (b := true) (p := .rx) (by decide)
      (fun _ _ act => act.tx)
      ((Machine.works_advanceRx _ abides').run.trans (Working.give _ _ rfl))
  obtain ⟨⟨intake, count, tx₆⟩, -, completed₆⟩ :=
    TxMeanwhile.run_eq last tx₅ (entered.detail.trans (nothing₄.detail.trans complete))
  have idle : q₅.phase ≠ .running := by
    rw [phase]
    exact nofun
  refine ⟨?_, _, tx₆, idle, clear⟩
  rw [completed₆, completed (nothing₄.detail.trans complete), cancelled.packets]
  exact congrArg (· ++ _) (nothing₄.pick_eq complete fun e none => none)

/-- The receive ring gives back what it holds, and shows nothing. -/
theorem emptied (used : EngineInUse permits place depth txSize rxSize m)
    (abides : u.Abides (Parting permits place)) :
    m.Enters (fun e => e.isRxHushed = true) (m.stopEngine u).machine ∧
      ∃ r', (m.stopEngine u).machine.rx = some r' ∧ r'.phase ≠ .running ∧ r'.held = [] ∧
        r'.posted = 0 := by
  let R : Rules := ⟨permits, place, True, False⟩
  have idle (b : Bool) (k k' : Machine) (none : False) : RxView R b k k' := none.elim
  have acts (k k' : Machine) (act : Parting permits place k k') : RxView R false k k' :=
    Calls.rxView (n := 1) (l := {}) act.call
  -- the directions are disarmed, and the transmit ring is cancelled
  have armed : Working .irq False (fun _ _ => False) m
      ((m.setArmed .tx false).setArmed .rx false) :=
    (Machine.working_setArmed m .tx false).trans (Machine.working_setArmed _ .rx false)
  have used₂ := used.disarm spares
  have served := m.stopEngine_eq u
  unfold Machine.stopSent at served
  generalize (m.setArmed .tx false).setArmed .rx false = k₂ at *
  have call : EngineRequest ⟨permits, place, True, True⟩ 0 k₂ k₂.cancelTx := .call (.cancelTx k₂ rfl)
  have used₃ := used₂.run (fun mv ok => (spares mv ok).1) (.single call)
  have spared : RxSpared m k₂.cancelTx := RxMeanwhile.spared_run
    ((RxView.working (R := R) (b := true) (by decide) (idle true) armed).trans
      (RxView.working (R := R) (b := true) (by decide) (idle true) (Machine.working_cancelTx k₂)))
  generalize k₂.cancelTx = k₃ at *
  -- the receive ring is cancelled
  obtain ⟨r, rx₃, reads⟩ := used₃.rxGeared
  have rx₄ := (reads.cancelRx rx₃).2
  have hushed := Machine.hushed_cancelRx rx₃
  have used₄ := used₃.rx.cancelRx
  generalize k₃.cancelRx = k₄ at *
  -- the transmit ring is served, and the receive ring after it
  have works := Machine.works_advanceTx k₄ abides
  have before : RxView R false k₄ (k₄.advanceTx u).machine := .working (by decide) acts works.run
  have last : RxServed permits place (k₄.advanceTx u).machine _ :=
    .advance _ (works.abides.mono fun _ _ act => act.rx)
  have after : RxView R false
      ((k₄.advanceTx u).machine.advanceRx (k₄.advanceTx u).upper).machine
      (m.stopEngine u).machine := by
    rw [served]
    have told (k : Machine) (ignored : Nat) :
        Working .irq False (fun _ _ => False) k (k.give (.engineStopped ignored)) := .give k _ rfl
    exact .working (by decide) (idle false) (told _ _)
  obtain ⟨⟨r', rx', drained⟩, -, entered⟩ := used₄.drained rx₄ rfl before last after
  exact ⟨(spared.entered.trans hushed).trans entered, r', rx', drained.phase,
    drained.held, drained.posted⟩

/-- The arbiter is mute from the beginning. -/
theorem muted (used : EngineInUse permits place depth txSize rxSize m)
    (quiet : ∀ d, m.notifying d = 0) (abides : u.Abides (Parting permits place)) :
    (m.stopEngine u).machine.Muted m.stalled := by
  have idle (k k' : Machine) (none : False) (_ : k.Muted m.stalled) : k'.Muted m.stalled := none.elim
  have acts (k k' : Machine) (act : Parting permits place k k') (h : k.Muted m.stalled) :
      k'.Muted m.stalled := act.muted (fun mv ok => (spares mv ok).2) h
  have planned : Machine.Permitted (Move.Spares .irqEnable) m.agenda :=
    fun ms hms mv hmv => (spares mv (used.tx.ready.planned ms hms mv hmv)).2
  have disarmed := Machine.muted_setArmed ⟨rfl, planned⟩ quiet
  have served := m.stopEngine_eq u
  unfold Machine.stopSent at served
  generalize (m.setArmed .tx false).setArmed .rx false = k at *
  have cancelled := (disarmed.working (by decide) idle (Machine.working_cancelTx k)).working
    (by decide) idle (Machine.working_cancelRx k.cancelTx)
  have works := Machine.works_advanceTx k.cancelTx.cancelRx abides
  have sent := cancelled.working (by decide) acts works.run
  have shown := sent.working (by decide) acts (Machine.works_advanceRx _ works.abides).run
  have told (k : Machine) (n : Notice) : Working .rx False (fun _ _ => False) k (k.give n) :=
    .give k n rfl
  rw [served]
  exact shown.working (by decide) idle (told _ _)

/-- A stop is a request to the engine. -/
theorem stopped (used : EngineInUse permits place depth txSize rxSize m)
    (abides : u.Abides (Parting permits place)) :
    EngineInUse permits place depth txSize rxSize (m.stopEngine u).machine := by
  have within (l : Locks) (v : Upper) (h : v.Abides (Parting permits place)) :
      v.Abides (Calls ⟨permits, place, True, True⟩ 1 l) :=
    h.mono fun _ _ act => .single act.call
  have stop : EngineRequest ⟨permits, place, True, True⟩ 1 m (m.stopEngine u).machine :=
    .stop m (within _ u abides)
      (within _ _ (Machine.works_advanceTx _ abides).abides)
  exact used.run (fun mv ok => (spares mv ok).1) (.single stop)

end EngineInUse

/-- What a stop leaves behind, if the transmit ring `q` was there before. -/
structure Machine.Stopped (permits : Move → Prop) (place : Nat) (q : TxRing) (m m' : Machine) :
    Prop where
  /-- Both directions are off, and the adapter may not interrupt. -/
  off : m'.adapter.read .txDmaControl = DmaControl.off ∧
    m'.adapter.read .rxDmaControl = DmaControl.off ∧ m'.adapter.read .irqEnable = 0
  /-- No direction is armed. -/
  disarmed : ∀ d, (m'.arbiter.any fun a => a.isArmed d) = false
  /-- The stop did not have to wait for anybody. -/
  returned : m'.stalled = m.stalled
  /-- All packets were handed back, each of them once, in order and marked. -/
  completed : m'.journal.completed = m.journal.completed ++ q.packets.map Packet.ignore
  /-- What is outstanding was taken in meanwhile, and nothing is in flight. -/
  sent : ∃ new q', m'.journal.accepted = m.journal.accepted ++ new ∧ m'.tx = some q' ∧
    Forall₂ Packet.Marked new q'.packets ∧ q'.packets.length = q'.outstanding ∧ q'.inFlight = 0
  /-- No frame was shown. -/
  unseen : ∃ es, m'.journal.events.toList = m.journal.events.toList ++ es ∧
    ∀ f bytes, Event.delivered f bytes ∉ es
  /-- No buffer is posted, and a buffer that is not free is out. -/
  pool : ∃ r' p', m'.rx = some r' ∧ r'.posted = 0 ∧ m'.poolAt? place = some p' ∧
    p'.tally =
      { free := p'.capacity - m'.toScene.out.length
        acquired := 0
        posted := 0
        delivered := m'.toScene.out.length } ∧
    p'.available = p'.capacity - m'.toScene.out.length ∧
    p'.Lists .delivered (m'.toScene.out.map ReturnHandle.buffer)
  /-- When everything that is out has come back every buffer is free. -/
  returns : ∀ k, ReflTransGen (Holding permits place) m' k → k.toScene.out = [] →
    ∃ p', k.poolAt? place = some p' ∧ p'.available = p'.capacity ∧
      ∀ b : BufferId, b.index < p'.capacity → p'.stateOf? b = some .free

/-- **An engine stops completely.**  However an engine was used, and whatever is queued, posted, armed
or out: if the upper layer does no more in its callbacks than to submit packets and to give buffers
back, then the engine is quiet when the stop returns, and holds neither a packet that it had before
nor a buffer. -/
theorem engine_stops_completely {c : Config} {k m₀ : Machine} {u : Upper}
    (spares : ∀ mv, permits mv → mv.SparesSwitches ∧ mv.Spares .irqEnable)
    (unused : k.Unused permits) (made : k.createEngine c = (.ok (), m₀))
    (run : ReflTransGen (EngineRequest ⟨permits, k.pools.size, True, True⟩ n) m₀ m)
    (abides : u.Abides (Parting permits k.pools.size)) :
    ∃ q, m.tx = some q ∧ q.packets.length = q.outstanding ∧
      Forall₂ Packet.Marked m.journal.accepted (m.journal.completed ++ q.packets) ∧
      m.Stopped permits k.pools.size q (m.stopEngine u).machine := by
  have switches (mv : Move) (ok : permits mv) : mv.SparesSwitches := (spares mv ok).1
  obtain ⟨txSize, rxSize, -, -, begun⟩ := EngineInUse.of_made switches unused made
  have used := begun.run switches run
  have quiet (d : Direction) : m.notifying d = 0 := by
    obtain ⟨-, -, arbiter, -⟩ := k.made_createEngine unused switches made
    rw [EngineRequest.sameFlight run d, Machine.notifying, arbiter]
    cases d <;> rfl
  obtain ⟨q, tx, -⟩ := used.txGeared
  obtain ⟨-, -, books⟩ := used.tx.kept.ledger tx
  have stopped := used.stopped spares abides
  obtain ⟨completed, q', tx', idleTx, clear⟩ := used.sent spares tx abides
  obtain ⟨hushed, r', rx', idleRx, held, posted⟩ := used.emptied spares abides
  have muted := used.muted spares quiet abides
  generalize (m.stopEngine u).machine = m' at *
  have length : q.packets.length = q.outstanding :=
    (TxLedger.packets_length q).trans books.outstanding.symm
  refine ⟨q, tx, length, books.order, ?off, muted.disarmed, muted.stalled, completed, ?sent, ?unseen,
    ?pool, fun k' released out => stopped.rx.all_free rx' held released out⟩
  case off =>
    obtain ⟨_, hq, txReads⟩ := stopped.txGeared
    obtain ⟨_, hr, rxReads⟩ := stopped.rxGeared
    obtain rfl := Option.some.inj (hq.symm.trans tx')
    obtain rfl := Option.some.inj (hr.symm.trans rx')
    exact ⟨txReads.value.trans (Phase.control_of_idle idleTx),
      rxReads.value.trans (Phase.control_of_idle idleRx), muted.reads.value⟩
  case sent =>
    obtain ⟨new, accepted, -⟩ := hushed.pick_append used.tx.kept.complete (f := Event.accepted?)
      (R := fun _ => True) fun _ _ _ _ => trivial
    obtain ⟨-, -, books'⟩ := stopped.tx.kept.ledger tx'
    exact ⟨new, q', accepted, tx', used.tx.left_since stopped.tx tx tx' accepted completed,
      (TxLedger.packets_length q').trans books'.outstanding.symm, clear⟩
  case unseen =>
    obtain ⟨es, events, quiet⟩ := hushed.events used.tx.kept.complete
    exact ⟨es, events, fun f bytes shown => Bool.false_ne_true (quiet _ shown)⟩
  case pool =>
    obtain ⟨p', pool'⟩ := stopped.rx.pool
    obtain ⟨-, ledger, -⟩ := stopped.rx.ledger rx' pool'
    rw [held] at ledger
    refine ⟨r', p', rx', posted, pool', ?_, ledger.available_eq, ledger.delivered⟩
    rw [ledger.tally_eq, ledger.available_eq]
    rfl

/-- A small engine is running, and both directions are armed.  One packet is posted and one is in the
intake; one frame is held and another has arrived since.  While the engine is being stopped the upper
layer submits a packet and drops the frame. -/
theorem engine_stops_completely_busy :
    ∃ (m : Machine) (q : TxRing) (u : Upper),
      ReflTransGen (EngineRequest
        ⟨fun mv => mv.SparesSwitches ∧ mv.Spares .irqEnable, 0, True, True⟩ 0) .small m ∧
      u.Abides (Parting (fun mv => mv.SparesSwitches ∧ mv.Spares .irqEnable) 0) ∧
      m.tx = some q ∧ q.outstanding = 2 ∧ q.inFlight = 1 ∧
      m.arbiter.map Arbiter.armedDirections = some [.tx, .rx] ∧ m.toScene.out.length = 1 ∧
      m.Stopped (fun mv => mv.SparesSwitches ∧ mv.Spares .irqEnable) 0 q
        (m.stopEngine u).machine ∧
      (m.stopEngine u).machine.tx.map TxRing.outstanding = some 1 ∧
      (m.stopEngine u).machine.toScene.out = [] := by
  let permits (mv : Move) : Prop := mv.SparesSwitches ∧ mv.Spares .irqEnable
  have frame : permits .frame :=
    ⟨Move.sparesSwitches_frame, Move.spares_of_ne_assign (by decide) nofun⟩
  let packet : Packet := .single 1 ⟨.ofNat 0x1000, 64⟩
  let dropFirst (m : Machine) : Machine :=
    match m.frameAt? 0 with
    | some f => (m.removeFrame 0).dropFrame f
    | none => m
  let u : Upper := { replies := [fun m => (m.submit packet).2, dropFirst] }
  have abides : u.Abides (Parting permits 0) := by
    intro reply hr m
    rcases mem_pair.mp hr with rfl | rfl
    · exact .single (.submit m packet)
    · cases held : m.frameAt? 0 with
      | some f =>
        have dropped : dropFirst m = (m.removeFrame 0).dropFrame f := by simp only [dropFirst, held]
        rw [dropped]
        exact .single (.holding (.drop m held))
      | none =>
        have kept : dropFirst m = m := by simp only [dropFirst, held]
        rw [kept]
  let armed : Machine := (Machine.small.startEngine.2.setArmed .tx true).setArmed .rx true
  let sending : Machine := ((armed.submit packet).2.advanceTx .silent).machine
  let holding : Machine := ((sending.move .frame).advanceRx .keeping).machine
  let m : Machine := ((holding.move .frame).submit packet).2
  have run : ReflTransGen (EngineRequest ⟨permits, 0, True, True⟩ 0) .small m :=
    ReflTransGen.refl
      |>.tail (.start _ (fun _ => trivial) fun _ => trivial)
      |>.tail (.call (.arm _ .tx true))
      |>.tail (.call (.arm _ .rx true))
      |>.tail (.call (.submit _ packet))
      |>.tail (.call (.advanceTx _ rfl (Upper.abides_silent _)))
      |>.tail (.call (.holding (.move _ frame)))
      |>.tail (.call (.advanceRx _ rfl (Upper.abides_keeping _)))
      |>.tail (.call (.holding (.move _ frame)))
      |>.tail (.call (.submit _ packet))
  obtain ⟨q, tx, -, -, stopped⟩ := engine_stops_completely (fun _ (ok : permits _) => ok)
    (Machine.unused_blank 4) Machine.createEngine_small run abides
  have ring : m.tx.map (fun q => (q.outstanding, q.inFlight)) = some (2, 1) := by decide +kernel
  rw [tx, Option.map_some] at ring
  obtain ⟨outstanding, inFlight⟩ := Prod.mk.inj (Option.some.inj ring)
  exact ⟨m, q, u, run, abides, tx, outstanding, inFlight, by decide +kernel, by decide +kernel,
    stopped, by decide +kernel, by decide +kernel⟩

end DescriptorRings
