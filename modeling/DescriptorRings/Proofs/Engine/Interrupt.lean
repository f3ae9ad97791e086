import DescriptorRings.Proofs.Engine.Causes
import DescriptorRings.Proofs.Engine.Intake
import DescriptorRings.Proofs.Engine.Stop
import DescriptorRings.Proofs.Transmit.Progress

/-!
# Serving an interrupt

An interrupt is served in four steps: the status is read, the causes that are pending are acknowledged
and the upper layer is notified of them, and then each ring whose cause was pending is served.  Between
any two of these, and inside all but the first, somebody else may act: the adapter raises more causes,
and the upper layer submits packets, gives buffers back and arms directions (`Attending`).

The order is what makes this safe.  A cause that is raised after the acknowledgement stays in the status,
and the next interrupt will find it (`Machine.causes_interrupt`).  A cause that was acknowledged is
served afterwards, with a reading of the adapter's counter that is made later still; so whatever the
cause was raised for is covered by that reading.  For the transmit ring that is
`TxInUse.sent_interrupt`, and for the receive ring `RxInUse.shown_interrupt`.

A ring whose cause was not pending is left alone.  It sees of the whole interrupt only what the upper
layer does in the callbacks.
-/

namespace DescriptorRings

open Relation List TxRing

variable {permits : Move → Prop} {place : Nat} {startsTx startsRx : Prop} {l : Locks} {n : Nat}
  {m m' : Machine} {u : Upper}

/-! ## What the upper layer does meanwhile -/

/-- What the upper layer may do while an interrupt is served: it submits packets, gives buffers back and
arms directions, and the adapter makes moves. -/
inductive Attending (permits : Move → Prop) (place : Nat) : Machine → Machine → Prop
  /-- A packet is submitted. -/
  | submit (m : Machine) (p : Packet) : Attending permits place m (m.submit p).2
  /-- Buffers are given back. -/
  | holding {m m' : Machine} (h : Holding permits place m m') : Attending permits place m m'
  /-- A direction is armed. -/
  | arm (m : Machine) (d : Direction) : Attending permits place m (m.setArmed d true)

namespace Attending

theorem call (act : Attending permits place m m') :
    Calls ⟨permits, place, startsTx, startsRx⟩ (n + 1) l m m' := by
  cases act with
  | submit p => exact Call.submit m p
  | holding h => exact Call.holding h
  | arm d => exact Call.arm m d true

/-- The transmit ring sees submissions. -/
theorem tx (act : Attending permits place m m') : ReflTransGen (TxMeanwhile permits) m m' :=
  Calls.txView (R := ⟨permits, place, True, True⟩) (n := 1) (l := { tx := true }) act.call

/-- The receive ring sees buffers come back. -/
theorem rx (act : Attending permits place m m') : ReflTransGen (RxMeanwhile permits place) m m' :=
  Calls.rxView (R := ⟨permits, place, True, True⟩) (n := 1) (l := { rx := true }) act.call

/-- **No cause is lost.** -/
theorem lossless (raises : ∀ mv, permits mv → mv.OnlyRaises) (act : Attending permits place m m') :
    m.Lossless m' := by
  cases act with
  | submit p => exact .submit m p
  | holding h => exact .holding raises h
  | arm d => exact .arm m d

theorem mono {permits' : Move → Prop} (wider : ∀ mv, permits mv → permits' mv)
    (act : Attending permits place m m') : Attending permits' place m m' := by
  cases act with
  | submit p => exact .submit m p
  | arm d => exact .arm m d
  | holding h =>
    refine .holding ?_
    cases h with
    | drop held => exact .drop m held
    | detach held => exact .detach m held
    | release unused => exact .release m unused
    | reply o => exact .reply m o
    | move permitted => exact .move m (wider _ permitted)

end Attending

/-! ## What lies behind the adapter's counter -/

namespace TxRing

/-- The packets of a tiling up to one that was posted cost what lies between its beginning and the end
of that packet. -/
theorem Tiled.cost_take {a b : Counter} {es : List TxEntry} {ts : List TxPost}
    (h : Tiled a es ts b) (short : load ts < Counter.span) {i : Nat} {e : TxEntry} {last : Counter}
    (hi : es[i]? = some e) (posted : e.last = some last) :
    cost (es.take (i + 1)) = last.past a + 1 ∧ cost (es.take (i + 1)) ≤ load ts := by
  induction h generalizing i with
  | nil => exact absurd hi (by simp)
  | @skip a b p es ts ignored _ ih =>
    cases i with
    | zero =>
      obtain rfl := Option.some.inj hi
      exact absurd posted (Option.some_ne_none last).symm
    | succ i =>
      rw [take_succ_cons, cost_cons, TxEntry.cost, Nat.zero_add]
      exact ih short hi
  | @post a b p es ts some _ ih =>
    rw [load_cons] at short ⊢
    dsimp only at short ⊢
    have first : TxPost.last ⟨p, a⟩ = a.advance (p.fragmentCount - 1) := TxPost.last_eq ⟨p, a⟩ some
    cases i with
    | zero =>
      obtain rfl := Option.some.inj hi
      obtain rfl : TxPost.last ⟨p, a⟩ = last := Option.some.inj posted
      rw [take_succ_cons, take_zero, cost_cons, cost_nil, first, Counter.past_advance _ (by omega)]
      dsimp only [TxEntry.cost]
      omega
    | succ i =>
      obtain ⟨reach, within⟩ := ih (by omega) hi
      rw [take_succ_cons, cost_cons]
      dsimp only [TxEntry.cost]
      -- the counter is that far past the beginning of the rest, and no turn lies in between
      have place : last = a.advance (p.fragmentCount + last.past (a.advance p.fragmentCount)) := by
        rw [← Counter.advance_advance, Counter.advance_past]
      have far : last.past a = p.fragmentCount + last.past (a.advance p.fragmentCount) := by
        conv_lhs => rw [place]
        exact Counter.past_advance _ (by omega)
      omega

/-- Whether a packet was posted and its last descriptor lies behind a counter. -/
def isBehind (r : TxRing) (c : Counter) (e : TxEntry) : Bool :=
  e.last.any fun last => decide (last.past r.reclaim < c.past r.reclaim)

/-- The packets that were posted and whose last descriptors lie behind a counter, in order. -/
def behind (r : TxRing) (c : Counter) : List Packet :=
  (r.passed.filter (r.isBehind c)).map TxEntry.packet

end TxRing

/-- **Serving a running ring hands back every packet behind the adapter's counter**, if the reading can
be believed. -/
theorem TxInUse.behind_handedBack {size : RingSize} {depth : Nat} {r : TxRing}
    (used : TxInUse permits size depth m) (tx : m.tx = some r) (running : r.phase = .running)
    (abides : u.Abides (TxMeanwhile permits)) (believed : r.posted.believes m.txReading = true) :
    ∃ ps, (m.advanceTx u).machine.journal.completed = m.journal.completed ++ ps ∧
      r.behind m.txReading <+ ps := by
  obtain ⟨us, -, tiled, fits, -, -, -, completed⟩ := used.handedBack tx running abides
  refine ⟨_, completed, ?_⟩
  set c := m.txReading
  have fits' : load us ≤ r.posted.capacity := fits
  have within : c.past r.reclaim ≤ r.posted.inFlight := of_decide_eq_true believed
  have tiled' : Tiled r.posted.reclaim r.posted.passed us r.posted.producer := tiled
  have forwards : load us - r.posted.unconsumed c = c.past r.reclaim :=
    (load_sub_unconsumed tiled' fits' c).2.trans (if_pos within)
  have most := isGreatest_doneWith (load us - r.posted.unconsumed c) r.posted.passed
  set k := doneWith (load us - r.posted.unconsumed c) r.posted.passed
  have short : load us < Counter.span := by
    have := r.size.capacity_lt
    have := r.size.slots_le
    unfold capacity at fits
    unfold Counter.span
    omega
  -- a packet behind the counter is among those that are done
  have done (e : TxEntry) (he : e ∈ r.posted.passed.drop k) : ¬r.isBehind c e = true := by
    intro behind
    obtain ⟨last, posted, behind⟩ := (Option.any_eq_true _ _).mp behind
    obtain ⟨j, hj⟩ := mem_iff_getElem?.mp he
    rw [getElem?_drop] at hj
    obtain ⟨reach, -⟩ := tiled.cost_take short hj posted
    have inside := (List.getElem?_eq_some_iff.mp hj).1
    have := most.2 ⟨inside, by rw [reach, forwards]; exact of_decide_eq_true behind⟩
    omega
  have kept : (r.posted.passed.filter (r.isBehind c)) =
      (r.posted.passed.take k).filter (r.isBehind c) := by
    have none : (r.posted.passed.drop k).filter (r.isBehind c) = [] := filter_eq_nil_iff.mpr done
    conv_lhs => rw [← take_append_drop k r.posted.passed]
    rw [filter_append, none, append_nil]
  have before : r.passed <+ r.posted.passed := sublist_append_left _ _
  have chosen := before.filter (r.isBehind c)
  rw [kept] at chosen
  exact (chosen.trans filter_sublist).map TxEntry.packet

/-! ## What the rings see of an interrupt -/

namespace Machine

/-- The transmit ring is served if its cause was pending. -/
theorem interruptSent_of_pending (pending : hasBits (m.interrupt u).1 IrqMask.txDone = true) :
    m.interruptSent u = (m.interruptTold u).machine.advanceTx (m.interruptTold u).upper := by
  rw [interrupt_fst] at pending
  exact if_pos pending

/-- Otherwise it is passed over. -/
theorem interruptSent_of_not_pending (other : hasBits (m.interrupt u).1 IrqMask.txDone = false) :
    m.interruptSent u = m.interruptTold u := by
  rw [interrupt_fst] at other
  exact if_neg (by rw [other]; exact Bool.false_ne_true)

section Steps

variable {Act : Machine → Machine → Prop}

/-- Until the upper layer has been notified only the arbiter is at work. -/
theorem works_interruptTold (m : Machine) (abides : u.Abides Act) :
    (m.interruptTold u).Works .irq False Act m := by
  have looked : Working .irq False Act m (m.read .irqStatus).2 := .read m .irqStatus
  have notified := works_signal (m.read .irqStatus).2 abides
    (IrqMask.table.restrict (m.read .irqStatus).1)
  exact Served.Works.onMachine (f := fun k => k.give (.engineInterrupt
      (IrqMask.table.restrict (m.read .irqStatus).1) (Direction.masks (signal (m.read .irqStatus).2 u
        (IrqMask.table.restrict (m.read .irqStatus).1)).1)))
    ⟨looked.trans notified.run, notified.abides⟩ fun k => Working.give k _ rfl

/-- Then the transmit ring is at work, if at all. -/
theorem works_interruptSent (m : Machine) (abides : u.Abides Act) :
    (m.interruptSent u).Works .tx False Act (m.interruptTold u).machine := by
  have told := m.works_interruptTold abides
  unfold interruptSent serveIfPending
  dsimp only
  split
  · exact works_advanceTx _ told.abides
  · exact ⟨.refl, told.abides⟩

end Steps

variable (abides : u.Abides (Attending permits place))

include abides

/-- The transmit ring sees submissions until it is served. -/
theorem tx_interruptTold : ReflTransGen (TxMeanwhile permits) m (m.interruptTold u).machine :=
  TxView.working (R := ⟨permits, place, True, True⟩) (b := true) (by decide) (fun _ _ act => act.tx)
    (m.works_interruptTold abides).run

/-- The receive ring sees buffers come back until it is served. -/
theorem rx_interruptSent : ReflTransGen (RxMeanwhile permits place) m (m.interruptSent u).machine := by
  have told : RxView ⟨permits, place, True, True⟩ true m (m.interruptTold u).machine :=
    .working (by decide) (fun _ _ act => act.rx) (m.works_interruptTold abides).run
  exact told.trans (.working (by decide) (fun _ _ act => act.rx) (m.works_interruptSent abides).run)

/-- The transmit ring sees submissions after it was served. -/
theorem tx_interrupt (some : (m.interrupt u).1 ≠ 0) :
    ReflTransGen (TxMeanwhile permits) (m.interruptSent u).machine (m.interrupt u).2.machine := by
  rw [interrupt_fst] at some
  rw [interrupt_eq, if_neg some]
  unfold serveIfPending
  split
  · exact TxView.working (R := ⟨permits, place, True, True⟩) (b := true) (by decide)
      (fun _ _ act => act.tx) (works_advanceRx _ (m.works_interruptSent abides).abides).run
  · exact .refl

end Machine

/-- A transmit ring `q` was not served: packets may have been submitted to it, and nothing else. -/
structure TxSpared (q : TxRing) (m m' : Machine) : Prop where
  /-- The ring is left alone but for its intake. -/
  ring : ∃ intake count, m'.tx = some { q with intake := intake, outstanding := count }
  /-- Nothing is posted or handed back, and the doorbell is not rung. -/
  entered : m.Enters (fun e => e.isSending = true) m'

theorem TxSpared.of_run (run : ReflTransGen (TxMeanwhile permits) m m') {q : TxRing}
    (tx : m.tx = some q) (complete : m.journal.detail = .complete) : TxSpared q m m' :=
  ⟨(TxMeanwhile.run_eq run tx complete).1, .of_run (fun _ _ => TxMeanwhile.enters) run⟩

/-- **A transmit ring whose cause was not pending is left alone.** -/
theorem Machine.txSpared_interrupt (abides : u.Abides (Attending permits place)) {q : TxRing}
    (tx : m.tx = some q) (complete : m.journal.detail = .complete)
    (other : hasBits (m.interrupt u).1 IrqMask.txDone = false) :
    TxSpared q m (m.interrupt u).2.machine := by
  by_cases none : (m.interrupt u).1 = 0
  · rw [interrupt_fst] at none
    rw [interrupt_eq, if_pos none]
    have looked : Working .irq False (fun _ _ => False) m (m.read .irqStatus).2 := .read m .irqStatus
    exact .of_run (TxView.working (R := ⟨permits, place, True, True⟩) (b := true) (by decide)
      (fun _ _ none => none.elim) looked) tx complete
  · have told := m.tx_interruptTold abides
    have rest := tx_interrupt abides none
    rw [interruptSent_of_not_pending other] at rest
    exact .of_run (told.trans rest) tx complete

/-- A running transmit ring can believe what it reads when it is served now. -/
def Machine.TxPlausible (m : Machine) : Prop :=
  ∀ q, m.tx = some q → q.posted.believes m.txReading = true

/-- A running receive ring can believe what it reads when it is served now. -/
def Machine.RxPlausible (m : Machine) : Prop := ∀ r, m.rx = some r → r.believes m.rxReading = true

/-- **A running transmit ring whose cause was pending hands back every packet behind the adapter's
counter**, of those that were posted before the interrupt. -/
theorem TxInUse.sent_interrupt {size : RingSize} {depth : Nat} {q : TxRing}
    (used : TxInUse permits size depth m) (tx : m.tx = some q)
    (abides : u.Abides (Attending permits place))
    (pending : hasBits (m.interrupt u).1 IrqMask.txDone = true) (running : q.phase = .running)
    (believed : (m.interruptTold u).machine.TxPlausible) :
    ∃ ps, (m.interrupt u).2.machine.journal.completed = m.journal.completed ++ ps ∧
      q.behind (m.interruptTold u).machine.txReading <+ ps := by
  have some : (m.interrupt u).1 ≠ 0 := by
    intro none
    rw [none] at pending
    exact absurd pending (by decide)
  have told := m.tx_interruptTold abides
  have bound := (m.works_interruptTold abides).abides
  have rest := Machine.tx_interrupt abides some
  rw [Machine.interruptSent_of_pending pending] at rest
  obtain ⟨⟨intake, count, tx'⟩, complete, before⟩ :=
    TxMeanwhile.run_eq told tx used.kept.complete
  have calls : ReflTransGen (TxCall permits True) m (m.interruptTold u).machine :=
    told.lift id fun _ _ => TxCall.meanwhile
  have used' := used.calls calls
  have abides' : (m.interruptTold u).upper.Abides (TxMeanwhile permits) :=
    bound.mono fun _ _ act => act.tx
  obtain ⟨ps, completed, behind⟩ :=
    used'.behind_handedBack tx' running abides' (believed _ tx')
  have served : TxCall permits True (m.interruptTold u).machine _ := .advance _ abides'
  have used'' := used'.call served
  obtain ⟨q', tx''⟩ := used''.tx
  obtain ⟨-, -, after⟩ := TxMeanwhile.run_eq rest tx'' used''.kept.complete
  exact ⟨ps, by rw [after, completed, before], behind⟩

/-! ## The receive ring -/

/-- A receive ring `r` was not served: buffers may have been given back, and nothing else. -/
structure RxUnserved (r : RxRing) (m m' : Machine) : Prop where
  /-- The ring is left alone. -/
  ring : m'.rx = some r
  /-- Nothing is handed out. -/
  out : m'.toScene.out ⊆ m.toScene.out
  /-- No buffer is posted, no completion read and no frame shown. -/
  entered : m.Enters (fun e => e.isRxHushed = true ∧ e.isIntake = false) m'

theorem RxUnserved.of_run (run : ReflTransGen (RxMeanwhile permits place) m m') {r : RxRing}
    (rx : m.rx = some r) : RxUnserved r m m' := by
  have spared := RxMeanwhile.spared_run run
  refine ⟨spared.rx.trans rx, spared.out, .of_run (fun k k' act => ?_) run⟩
  exact act.spared.entered.and (RxSteady.meanwhile act).entered

/-- **A receive ring whose cause was not pending is left alone.** -/
theorem Machine.rxUnserved_interrupt (abides : u.Abides (Attending permits place)) {r : RxRing}
    (rx : m.rx = some r) (other : hasBits (m.interrupt u).1 IrqMask.rxDone = false) :
    RxUnserved r m (m.interrupt u).2.machine := by
  rw [interrupt_fst] at other
  rw [interrupt_eq]
  split
  · have looked : Working .irq False (fun _ _ => False) m (m.read .irqStatus).2 := .read m .irqStatus
    exact .of_run (RxView.working (R := ⟨permits, place, True, True⟩) (b := true) (by decide)
      (fun _ _ none => none.elim) looked) rx
  · unfold serveIfPending
    rw [if_neg (by rw [other]; exact Bool.false_ne_true)]
    exact .of_run (m.rx_interruptSent abides) rx

/-- **A running receive ring whose cause was pending takes in every completion up to the adapter's
counter.** -/
theorem RxInUse.shown_interrupt {size : RingSize} {r : RxRing} {p : BufferPool}
    (used : RxInUse permits place size m) (rx : m.rx = some r) (pool : m.poolAt? place = some p)
    (abides : u.Abides (Attending permits place))
    (pending : hasBits (m.interrupt u).1 IrqMask.rxDone = true) (running : r.phase = .running)
    (believed : (m.interruptSent u).machine.RxPlausible) :
    ∃ r' es, (m.interrupt u).2.machine.rx = some r' ∧
      r'.consumer = (m.interruptSent u).machine.rxReading ∧
      (m.interrupt u).2.machine.journal.events.toList = m.journal.events.toList ++ es ∧
      r.TakesIn p ((m.interruptSent u).machine.rxReading.past r.consumer) es := by
  have served : (m.interrupt u).2 =
      (m.interruptSent u).machine.advanceRx (m.interruptSent u).upper := by
    rw [Machine.interrupt_fst] at pending
    have some : IrqMask.table.restrict (m.read .irqStatus).1 ≠ 0 := by
      intro none
      rw [none] at pending
      exact absurd pending (by decide)
    rw [Machine.interrupt_eq, if_neg some]
    exact if_pos pending
  have before := m.rx_interruptSent abides
  have bound := (m.works_interruptSent abides).abides
  have rx' : (m.interruptSent u).machine.rx = some r := (RxMeanwhile.spared_run before).rx.trans rx
  have calls : ReflTransGen (RxCall permits place True) m (m.interruptSent u).machine :=
    before.lift id fun _ _ => RxCall.meanwhile
  obtain ⟨p', pool', kept⟩ := used.kept calls pool
  obtain ⟨es, events, quiet⟩ := (RxSteady.meanwhile_run before).entered.events used.complete
  obtain ⟨r', es', rx'', consumer, events', takes⟩ :=
    (used.calls calls).takesIn rx' pool' running (bound.mono fun _ _ act => act.rx)
  have ready : r.ready (m.interruptSent u).machine.rxReading =
      (m.interruptSent u).machine.rxReading.past r.consumer := if_pos (believed r rx')
  rw [ready] at consumer takes
  rw [Counter.advance_past] at consumer
  rw [served]
  refine ⟨r', es ++ es', rx'', consumer, ?_, (takes.of_kept kept).quiet_before quiet⟩
  rw [events', events, append_assoc]

/-! ## The whole interrupt -/

/-- What an interrupt does to a machine with a transmit ring `q`, and a receive ring `r` over a pool
`p`. -/
structure Machine.Interrupted (m : Machine) (u : Upper) (q : TxRing) (r : RxRing) (p : BufferPool) :
    Prop where
  /-- The answer is what is defined of the status that was read. -/
  answer : (m.interrupt u).1 = IrqMask.table.restrict (m.read .irqStatus).1
  /-- If that is nothing the status is read, and that is all. -/
  idle : (m.interrupt u).1 = 0 → ∃ before,
    (m.interrupt u).2.machine.journal.events.toList =
      m.journal.events.toList ++ before ++ [.read .irqStatus (m.read .irqStatus).1] ∧
    ∀ e ∈ before, m.Plans e
  /-- Otherwise the answer is acknowledged once, and no cause is lost that was raised after that. -/
  acknowledged : (m.interrupt u).1 ≠ 0 → ∃ before early late,
    (m.interrupt u).2.machine.journal.events.toList =
      m.journal.events.toList ++ before ++ .read .irqStatus (m.read .irqStatus).1 :: early ++
        .wrote .irqClear (m.interrupt u).1 :: late ∧
    (∀ e ∈ before ++ early, m.Plans e) ∧
    (m.interrupt u).2.machine.adapter.read .irqStatus =
      (((m.read .irqStatus).1 ||| causesRaised early) &&& ~~~(m.interrupt u).1) ||| causesRaised late
  /-- If the adapter plans to raise none, then the status is in the end what was read, without the
  answer and with all that was raised in the callbacks. -/
  status : (∀ e, m.Plans e → e.causes = 0) → ∃ es,
    (m.interrupt u).2.machine.journal.events.toList = m.journal.events.toList ++ es ∧
    (m.interrupt u).2.machine.adapter.read .irqStatus =
      ((m.read .irqStatus).1 &&& ~~~(m.interrupt u).1) ||| causesRaised es
  /-- Nobody has to wait. -/
  returned : (m.interrupt u).2.machine.stalled = m.stalled
  /-- If the transmit ring was due, every packet behind the adapter's counter is handed back. -/
  sent : hasBits (m.interrupt u).1 IrqMask.txDone = true → q.phase = .running →
    (m.interruptTold u).machine.TxPlausible → ∃ ps,
      (m.interrupt u).2.machine.journal.completed = m.journal.completed ++ ps ∧
      q.behind (m.interruptTold u).machine.txReading <+ ps
  /-- If it was not, it is left alone. -/
  txSpared : hasBits (m.interrupt u).1 IrqMask.txDone = false → TxSpared q m (m.interrupt u).2.machine
  /-- If the receive ring was due, every completion up to the adapter's counter is taken in. -/
  shown : hasBits (m.interrupt u).1 IrqMask.rxDone = true → r.phase = .running →
    (m.interruptSent u).machine.RxPlausible → ∃ r' es,
      (m.interrupt u).2.machine.rx = some r' ∧
      r'.consumer = (m.interruptSent u).machine.rxReading ∧
      (m.interrupt u).2.machine.journal.events.toList = m.journal.events.toList ++ es ∧
      r.TakesIn p ((m.interruptSent u).machine.rxReading.past r.consumer) es
  /-- If it was not, it is left alone. -/
  rxUnserved : hasBits (m.interrupt u).1 IrqMask.rxDone = false →
    RxUnserved r m (m.interrupt u).2.machine

/-- **Serving interrupts loses no event.**  However an engine was used, whatever its status is and
whichever causes are pending: if the upper layer does no more in its callbacks than to submit packets,
to give buffers back and to arm directions, and the adapter takes no cause back, then the causes that
are acknowledged are those that are served, and all others are still pending in the end. -/
theorem interrupts_lose_no_event {c : Config} {k m₀ : Machine} {u : Upper}
    (spares : ∀ mv, permits mv → mv.SparesSwitches)
    (unused : k.Unused permits) (made : k.createEngine c = (.ok (), m₀))
    (run : ReflTransGen (EngineRequest ⟨permits, k.pools.size, True, True⟩ n) m₀ m)
    (planned : Machine.Permitted Move.OnlyRaises m.agenda)
    (abides : u.Abides (Attending (fun mv => permits mv ∧ mv.OnlyRaises) k.pools.size)) :
    ∃ q r p, m.tx = some q ∧ m.rx = some r ∧ m.poolAt? k.pools.size = some p ∧
      m.Interrupted u q r p := by
  obtain ⟨txSize, rxSize, -, -, begun⟩ := EngineInUse.of_made spares unused made
  have used := begun.run spares run
  have complete := used.rx.complete
  obtain ⟨q, tx, -⟩ := used.txGeared
  obtain ⟨r, rx, -⟩ := used.rxGeared
  obtain ⟨p, pool⟩ := used.rx.pool
  have within : u.Abides (Attending permits k.pools.size) :=
    abides.mono fun _ _ act => .single (act.mono fun _ ok => ok.1)
  have lossless (k₁ k₂ : Machine) (act : Attending (fun mv => permits mv ∧ mv.OnlyRaises)
      k.pools.size k₁ k₂) : k₁.Lossless k₂ := act.lossless fun _ ok => ok.2
  obtain ⟨before, looked, plans, -⟩ := Machine.raised_read complete planned
  refine ⟨q, r, p, tx, rx, pool, m.interrupt_fst u, fun none => ?idle, fun some => ?acknowledged,
    Machine.status_interrupt complete planned abides lossless, ?returned,
    used.tx.sent_interrupt tx within, Machine.txSpared_interrupt within tx complete,
    used.rx.shown_interrupt rx pool within, Machine.rxUnserved_interrupt within rx⟩
  case idle =>
    rw [Machine.interrupt_idle none, looked.events]
    exact ⟨before, (append_assoc _ _ _).symm, plans⟩
  case acknowledged =>
    obtain ⟨before, early, late, events, plans, -, status, -⟩ :=
      Machine.causes_interrupt complete planned abides lossless some
    exact ⟨before, early, late, events, plans, status⟩
  case returned =>
    by_cases none : (m.interrupt u).1 = 0
    · rw [Machine.interrupt_idle none]
      exact looked.stalled
    · obtain ⟨_, _, _, -, -, -, -, returned⟩ :=
        Machine.causes_interrupt complete planned abides lossless none
      exact returned

/-- A small engine is running, and both directions are armed.  One packet was consumed and a frame has
arrived; both causes are pending, and a third bit that means nothing.  When the upper layer is notified
it submits a packet, and the adapter raises the first cause again. -/
theorem interrupts_lose_no_event_busy :
    ∃ (m : Machine) (q : TxRing) (r : RxRing) (p : BufferPool) (u : Upper),
      ReflTransGen (EngineRequest ⟨Move.SparesSwitches, 0, True, True⟩ 0) .small m ∧
      Machine.Permitted Move.OnlyRaises m.agenda ∧
      u.Abides (Attending (fun mv => mv.SparesSwitches ∧ mv.OnlyRaises) 0) ∧
      m.tx = some q ∧ q.phase = .running ∧ m.rx = some r ∧ r.phase = .running ∧
      m.adapter.read .irqStatus = 7 ∧ (m.interrupt u).1 = 3 ∧ m.Interrupted u q r p ∧
      (m.interrupt u).2.machine.adapter.read .irqStatus = 5 ∧
      (m.interruptTold u).machine.TxPlausible ∧ (m.interruptSent u).machine.RxPlausible ∧
      q.behind (m.interruptTold u).machine.txReading ≠ [] ∧
      (m.interruptSent u).machine.rxReading.past r.consumer = 1 := by
  have consumes : (Move.consume 1).SparesSwitches :=
    ⟨Move.spares_of_ne_assign (by decide) nofun, Move.spares_of_ne_assign (by decide) nofun⟩
  have raises (causes : UInt32) : (Move.raise causes).SparesSwitches :=
    ⟨Move.spares_of_ne_assign (by decide) nofun, Move.spares_of_ne_assign (by decide) nofun⟩
  let packet : Packet := .single 1 ⟨.ofNat 0x1000, 64⟩
  let again (m : Machine) : Machine := m.move (.raise IrqMask.txDone)
  let u : Upper := { replies := [fun m => (m.submit packet).2, again] }
  have abides : u.Abides (Attending (fun mv => mv.SparesSwitches ∧ mv.OnlyRaises) 0) := by
    intro reply hr m
    rcases mem_pair.mp hr with rfl | rfl
    · exact .single (.submit m packet)
    · exact .single (.holding (.move m ⟨raises _, Move.onlyRaises_of_ne_assign nofun⟩))
  let armed : Machine := (Machine.small.startEngine.2.setArmed .tx true).setArmed .rx true
  let sending : Machine := ((armed.submit packet).2.advanceTx .silent).machine
  let m : Machine := ((sending.move (.consume 1)).move .frame).move (.raise 7)
  have run : ReflTransGen (EngineRequest ⟨Move.SparesSwitches, 0, True, True⟩ 0) .small m :=
    ReflTransGen.refl
      |>.tail (.start _ (fun _ => trivial) fun _ => trivial)
      |>.tail (.call (.arm _ .tx true))
      |>.tail (.call (.arm _ .rx true))
      |>.tail (.call (.submit _ packet))
      |>.tail (.call (.advanceTx _ rfl (Upper.abides_silent _)))
      |>.tail (.call (.holding (.move _ consumes)))
      |>.tail (.call (.holding (.move _ Move.sparesSwitches_frame)))
      |>.tail (.call (.holding (.move _ (raises _))))
  have planned : Machine.Permitted Move.OnlyRaises m.agenda := by
    have none : m.agenda = [] := by decide +kernel
    rw [none]
    exact fun _ none => absurd none not_mem_nil
  obtain ⟨q, r, p, tx, rx, pool, served⟩ := interrupts_lose_no_event (fun _ ok => ok)
    (Machine.unused_blank 4) Machine.createEngine_small run planned abides
  have txPhase : m.tx.map TxRing.phase = some .running := by decide +kernel
  have rxPhase : m.rx.map RxRing.phase = some .running := by decide +kernel
  have behind : m.tx.map (fun q => q.behind (m.interruptTold u).machine.txReading) =
    some [packet] := by decide +kernel
  have ahead : m.rx.map (fun r => (m.interruptSent u).machine.rxReading.past r.consumer) =
    some 1 := by decide +kernel
  have txPlausible : ((m.interruptTold u).machine.tx.all fun q =>
    q.posted.believes (m.interruptTold u).machine.txReading) = true := by decide +kernel
  have rxPlausible : ((m.interruptSent u).machine.rx.all fun r =>
    r.believes (m.interruptSent u).machine.rxReading) = true := by decide +kernel
  rw [tx, Option.map_some] at txPhase behind
  rw [rx, Option.map_some] at rxPhase ahead
  refine ⟨m, q, r, p, u, run, planned, abides, tx, Option.some.inj txPhase, rx,
    Option.some.inj rxPhase, by decide +kernel, by decide +kernel, served, by decide +kernel,
    fun q hq => ?_, fun r hr => ?_, ?_, Option.some.inj ahead⟩
  · rw [hq] at txPlausible
    exact txPlausible
  · rw [hr] at rxPlausible
    exact rxPlausible
  · rw [Option.some.inj behind]
    exact cons_ne_nil _ _

end DescriptorRings
