import DescriptorRings.Proofs.Engine.Course

/-!
# Interrupt causes

The adapter puts a cause into `irqStatus`, and it stays there until software acknowledges it by writing
it to `irqClear`.  A cause that is acknowledged without having been served is lost, and nobody would
notice: the next interrupt finds nothing to do.  So it matters which causes are acknowledged, and when.

`Machine.Lossless` is a relation between two machines: all that has become of the status in between is
that the moves of the adapter have added causes to it.  Every stroke of the rings is lossless, since
neither of them writes to the three words for interrupts, and so is arming a direction.  Of the arbiter
there is one stroke that is not, the acknowledgement itself.  It is the first thing that a signal does,
and the only one of its kind: what an interrupt does after it loses no cause, in the callbacks
or elsewhere (`Machine.causes_interrupt`).

The same relation says that nobody has to wait.  To disarm a direction is the only thing for which
somebody might.
-/

namespace DescriptorRings

open Relation List

/-! ## Causes that are raised -/

/-- The causes that a move makes pending. -/
def Move.causes : Move → UInt32
  | .raise causes => causes
  | _ => 0

/-- **A move that takes no cause away**, whatever state it is made in. -/
def Move.OnlyRaises (mv : Move) : Prop :=
  ∀ a : Adapter, (a.move mv).read .irqStatus = a.read .irqStatus ||| mv.causes

/-- Only a word that somebody else puts into the status can take causes out of it. -/
theorem Move.onlyRaises_of_ne_assign {mv : Move} (h : ∀ v, mv ≠ .assign .irqStatus v) :
    mv.OnlyRaises := by
  intro a
  have apart {r : Register} (other : .irqStatus ≠ r) (v : UInt32) :
      (a.assign r v).read .irqStatus = a.read .irqStatus ||| 0 :=
    (a.read_assign_of_ne other v).trans UInt32.or_zero.symm
  have received (frame : Reception) :
      (a.receive frame).read .irqStatus = a.read .irqStatus ||| 0 :=
    (a.read_receive_of_ne frame (by decide)).trans UInt32.or_zero.symm
  cases mv with
  | assign r v =>
    refine apart ?_ v
    rintro rfl
    exact h v rfl
  | raise causes => exact a.read_assign_self .irqStatus _
  | consume n => exact apart (by decide) _
  | receive frame => exact received frame
  | transmit n => exact apart (by decide) _
  | fill frame =>
    rw [Adapter.move]
    split
    · exact received frame
    · exact UInt32.or_zero.symm

/-- The causes that become pending by an event. -/
def Event.causes : Event → UInt32
  | .moved mv => mv.causes
  | _ => 0

/-- The causes that become pending by some events. -/
def causesRaised (es : List Event) : UInt32 := es.foldr (fun e causes => e.causes ||| causes) 0

@[simp] theorem causesRaised_nil : causesRaised [] = 0 := rfl

@[simp] theorem causesRaised_cons (e : Event) (es : List Event) :
    causesRaised (e :: es) = e.causes ||| causesRaised es :=
  rfl

@[simp] theorem causesRaised_append (es es' : List Event) :
    causesRaised (es ++ es') = causesRaised es ||| causesRaised es' := by
  induction es with
  | nil => simp
  | cons e es ih => simp [ih, UInt32.or_assoc]

theorem causesRaised_eq_zero {es : List Event} (quiet : ∀ e ∈ es, e.causes = 0) :
    causesRaised es = 0 := by
  induction es with
  | nil => rfl
  | cons e es ih =>
    rw [causesRaised_cons, quiet e mem_cons_self, ih fun e' h => quiet e' (mem_cons_of_mem _ h),
      UInt32.or_zero]

namespace Adapter

variable (a : Adapter)

/-- Acknowledging takes causes out of the status, and nothing else does. -/
theorem read_irqStatus_write {r : Register} (status : r ≠ .irqStatus) (clear : r ≠ .irqClear)
    (v : UInt32) : (a.write r v).read .irqStatus = a.read .irqStatus :=
  a.read_write_of_ne (Ne.symm status) clear v

theorem read_irqStatus_acknowledge (causes : UInt32) :
    (a.write .irqClear causes).read .irqStatus = a.read .irqStatus &&& ~~~causes := by
  have kept : (a.assign .irqClear causes).read .irqStatus = a.read .irqStatus :=
    a.read_assign_of_ne (by decide) _
  rw [write, read_assign_self, kept]

end Adapter

/-! ## What loses no cause -/

variable {Act : Machine → Machine → Prop} {p : Part} {shifts : Prop} {m m' m'' : Machine}

namespace Machine

/-- From one machine to another these events were entered, and the status has changed by the causes that
were raised in them. -/
structure Raised (m m' : Machine) (es : List Event) : Prop where
  /-- Every event is kept. -/
  complete : m'.journal.detail = .complete
  /-- The adapter plans to take no cause away. -/
  planned : Permitted Move.OnlyRaises m'.agenda
  /-- These are the events. -/
  events : m'.journal.events.toList = m.journal.events.toList ++ es
  /-- The causes that were pending are pending, and so are those that were raised. -/
  status : m'.adapter.read .irqStatus = m.adapter.read .irqStatus ||| causesRaised es
  /-- Nobody waits who did not wait before. -/
  stalled : m'.stalled = m.stalled

/-- On the way from one machine to another no cause is lost, and nobody has to wait. -/
def Lossless (m m' : Machine) : Prop :=
  m.journal.detail = .complete → Permitted Move.OnlyRaises m.agenda → ∃ es, Raised m m' es

namespace Lossless

/-- There is no event. -/
theorem of_same (journal : m'.journal = m.journal) (adapter : m'.adapter = m.adapter)
    (planned : Permitted Move.OnlyRaises m.agenda → Permitted Move.OnlyRaises m'.agenda)
    (stalled : m'.stalled = m.stalled) : Lossless m m' := by
  intro complete raises
  refine ⟨[], by rw [journal]; exact complete, planned raises, by rw [journal, append_nil], ?_, stalled⟩
  rw [adapter, causesRaised_nil, UInt32.or_zero]

theorem refl (m : Machine) : Lossless m m := of_same rfl rfl id rfl

theorem trans (h : Lossless m m') (h' : Lossless m' m'') : Lossless m m'' := by
  intro complete raises
  obtain ⟨es, first⟩ := h complete raises
  obtain ⟨es', second⟩ := h' first.complete first.planned
  refine ⟨es ++ es', second.complete, second.planned, ?_, ?_, second.stalled.trans first.stalled⟩
  · rw [second.events, first.events, append_assoc]
  · rw [second.status, first.status, causesRaised_append, UInt32.or_assoc]

/-- The adapter changes, and that is entered. -/
theorem record {k : Machine} {e : Event} (journal : k.journal = m.journal)
    (agenda : k.agenda = m.agenda) (stalled : k.stalled = m.stalled)
    (status : k.adapter.read .irqStatus = m.adapter.read .irqStatus ||| e.causes) :
    Lossless m (k.record e) := by
  intro complete raises
  refine ⟨[e], ?_, ?_, ?_, ?_, ?_⟩
  · rw [journal_record, Journal.detail_add, journal]
    exact complete
  · rw [agenda_record, agenda]
    exact raises
  · rw [journal_record, journal, Journal.toList_events_add complete]
  · rw [adapter_record, status, causesRaised_cons, causesRaised_nil, UInt32.or_zero]
  · rw [toScene_record]
    exact stalled

/-- An event is entered in which nothing is raised. -/
theorem note (m : Machine) {e : Event} (quiet : e.causes = 0) : Lossless m (m.record e) :=
  record rfl rfl rfl (by rw [quiet, UInt32.or_zero])

theorem give (m : Machine) (n : Notice) : Lossless m (m.give n) := by
  unfold Machine.give
  split
  · exact note m rfl
  · exact refl m

theorem move (m : Machine) {mv : Move} (raises : mv.OnlyRaises) : Lossless m (m.move mv) :=
  record (k := { m with memory := m.adapter.store mv m.memory, adapter := m.adapter.move mv })
    (e := .moved mv) rfl rfl rfl (raises m.adapter)

theorem turn (m : Machine) : Lossless m m.turn := by
  intro complete raises
  exact keeps_turn_of_planned (P := Lossless m) raises
    (fun _ _ raises' => of_same rfl rfl (fun _ => raises') rfl)
    (fun k _ raises' h => h.trans (move k raises')) (refl m) complete raises

/-- A register is written by which nothing is acknowledged. -/
theorem poke (m : Machine) {r : Register} (status : r ≠ .irqStatus) (clear : r ≠ .irqClear)
    (v : UInt32) : Lossless m (m.poke r v) :=
  record (k := m.setAdapter (m.adapter.write r v)) (e := .wrote r v) rfl rfl rfl
    ((m.adapter.read_irqStatus_write status clear v).trans (UInt32.or_zero).symm)

theorem write (m : Machine) {r : Register} (status : r ≠ .irqStatus) (clear : r ≠ .irqClear)
    (v : UInt32) : Lossless m (m.write r v) :=
  (turn m).trans (poke m.turn status clear v)

/-- **Neither ring loses a cause.** -/
theorem stroke (h : Stroke p shifts m m') (ring : p ≠ .irq) : Lossless m m' := by
  have apart {r : Register} (mine : p.owns r = true ∨ p.switch? = some r) :
      r ≠ .irqStatus ∧ r ≠ .irqClear := by
    cases p <;> cases r <;> simp_all [Part.owns, Part.switch?]
  have described (a : Adapter) {e : Event} (same : a.registers = m.adapter.registers)
      (quiet : e.causes = 0) : Lossless m ((m.setAdapter a).record e) := by
    refine record rfl rfl rfl ?_
    rw [quiet, UInt32.or_zero]
    exact congrArg (RegisterFile.get · .irqStatus) same
  cases h with
  | turn => exact turn m
  | look => exact note m rfl
  | @tell e h =>
    refine note m ?_
    cases p <;> cases e <;> first | rfl | exact absurd h Bool.false_ne_true
  | write h => exact poke m (apart (.inl h)).1 (apart (.inl h)).2 _
  | switch h => exact poke m (apart (.inr h)).1 (apart (.inr h)).2 _
  | describeTx _ slot d => exact described (m.adapter.writeTx slot d) rfl rfl
  | describeRx _ slot address capacity =>
    exact described (m.adapter.writeRx slot address capacity) rfl rfl
  | free _ a =>
    exact record (k := { m with memory := m.memory.free a }) (e := .freed a) rfl rfl rfl
      (UInt32.or_zero).symm
  | changeTx | changeRx | bury | changeHeld => exact of_same rfl rfl id rfl
  | changeArbiter h => exact absurd h ring

theorem working (acts : ∀ k k', Act k k' → Lossless k k') (run : Working p shifts Act m m')
    (ring : p ≠ .irq) : Lossless m m' :=
  run.keeps (fun _ _ h ih => ih.trans (stroke h ring)) (fun _ _ h ih => ih.trans (acts _ _ h))
    (refl m)

theorem writeEnabled (m : Machine) : Lossless m m.writeEnabled := write m (by decide) (by decide) _

theorem modifyArbiter (m : Machine) (f : Arbiter → Arbiter) : Lossless m (m.modifyArbiter f) :=
  of_same rfl rfl id rfl

/-- To arm a direction nobody has to wait. -/
theorem arm (m : Machine) (d : Direction) : Lossless m (m.setArmed d true) := by
  unfold setArmed
  rw [if_pos rfl]
  have noted : Lossless (m.modifyArbiter fun a => a.setArmed d true)
      ((m.modifyArbiter fun a => a.setArmed d true).record
        (.armed d (m.arbiter.any fun a => a.isArmed d) true)) := note _ rfl
  exact (((modifyArbiter m _).trans noted).trans (writeEnabled _)).trans (give _ _)

theorem submit (m : Machine) (packet : Packet) : Lossless m (m.submit packet).2 := by
  unfold Machine.submit
  split
  · exact refl m
  · exact record (k := m.modifyTx fun r => r.accept packet) (e := .accepted packet) rfl rfl rfl
      (UInt32.or_zero).symm

theorem holding {permits : Move → Prop} {place : Nat} (raises : ∀ mv, permits mv → mv.OnlyRaises)
    (act : Holding permits place m m') : Lossless m m' := by
  rcases act.cases with run | ⟨o, rfl⟩ | ⟨mv, permitted, rfl⟩
  · exact working (fun _ _ none => none.elim) run (by decide)
  · exact note m rfl
  · exact move m (raises mv permitted)

end Lossless

end Machine

/-! ## An interrupt -/

/-- A request that has lost no cause since a machine. -/
structure Served.Lossless (Act : Machine → Machine → Prop) (m : Machine) (s : Served) : Prop where
  /-- No cause was lost. -/
  run : m.Lossless s.machine
  /-- The callbacks to come are bound by the rule. -/
  abides : s.upper.Abides Act

namespace Served.Lossless

variable {s : Served}

theorem onMachine {f : Machine → Machine} (h : s.Lossless Act m)
    (change : s.machine.Lossless (f s.machine)) : (s.onMachine f).Lossless Act m :=
  ⟨h.run.trans change, h.abides⟩

theorem reply (h : s.Lossless Act m) (acts : ∀ k k', Act k k' → k.Lossless k') :
    s.reply.Lossless Act m := by
  refine ⟨h.run.trans ?_, Served.abides_reply h.abides⟩
  have run := Served.run_reply h.abides
  generalize s.reply.machine = k at run
  induction run with
  | refl => exact .refl _
  | tail _ act ih => exact ih.trans (acts _ _ act)

/-- The upper layer is notified. -/
theorem notifications (ds : List Direction) (h : s.Lossless Act m)
    (acts : ∀ k k', Act k k' → k.Lossless k') :
    (ds.foldl Machine.deliverNotification s).Lossless Act m := by
  induction ds generalizing s with
  | nil => exact h
  | cons d ds ih =>
    have noted : s.machine.Lossless (s.machine.record (.notified d)) := .note _ rfl
    have told : (s.notify d).Lossless Act m :=
      (h.onMachine (f := fun k => k.record (.notified d)) noted).reply acts
    exact ih (told.onMachine (.modifyArbiter _ _))

end Served.Lossless

namespace Machine

variable {u : Upper} {pending : UInt32}

/-- **A signal acknowledges its causes first**, and from then on loses none. -/
theorem lossless_signal (abides : u.Abides Act) (acts : ∀ k k', Act k k' → k.Lossless k')
    (some : pending ≠ 0) : (m.signal u pending).2.Lossless Act (m.write .irqClear pending) := by
  unfold signal
  rw [if_neg some]
  exact .notifications _ ⟨(Lossless.modifyArbiter _ _).trans (Lossless.writeEnabled _), abides⟩ acts

theorem interrupt_fst (m : Machine) (u : Upper) :
    (m.interrupt u).1 = IrqMask.table.restrict (m.read .irqStatus).1 := by
  unfold interrupt
  dsimp only
  split <;> rfl

/-- An interrupt without a cause is over when the status has been read. -/
theorem interrupt_idle (none : (m.interrupt u).1 = 0) :
    (m.interrupt u).2.machine = (m.read .irqStatus).2 := by
  rw [interrupt_fst] at none
  unfold interrupt
  dsimp only
  rw [if_pos none]
  rfl

/-- So does an interrupt, whichever rings it serves. -/
theorem lossless_interrupt (abides : u.Abides Act) (acts : ∀ k k', Act k k' → k.Lossless k')
    (some : (m.interrupt u).1 ≠ 0) :
    ((m.read .irqStatus).2.write .irqClear (m.interrupt u).1).Lossless (m.interrupt u).2.machine := by
  rw [interrupt_fst] at some ⊢
  have told : (m.interruptTold u).Lossless Act _ :=
    (lossless_signal abides acts some).onMachine (.give _ _)
  have serve (cause : UInt32) {advance : Machine → Upper → Served} {k : Machine} {s : Served}
      {p : Part} (ring : p ≠ .irq) (h : s.Lossless Act k)
      (works : (advance s.machine s.upper).Works p False Act s.machine) :
      (serveIfPending (IrqMask.table.restrict (m.read .irqStatus).1) cause advance s).Lossless
        Act k := by
    unfold serveIfPending
    split
    · exact ⟨h.run.trans (.working acts works.run ring), works.abides⟩
    · exact h
  have sent : (m.interruptSent u).Lossless Act _ :=
    serve IrqMask.txDone (by decide) told (works_advanceTx _ told.abides)
  rw [interrupt_eq, if_neg some]
  exact (serve IrqMask.rxDone (by decide) sent (works_advanceRx _ sent.abides)).run

/-- The event is a move that the adapter has planned. -/
def Plans (m : Machine) (e : Event) : Prop := ∃ ms ∈ m.agenda, ∃ mv ∈ ms, e = .moved mv

/-- In its turn the adapter does what it has planned. -/
theorem raised_turn (complete : m.journal.detail = .complete)
    (planned : Permitted Move.OnlyRaises m.agenda) :
    ∃ es, Raised m m.turn es ∧ ∀ e ∈ es, m.Plans e := by
  obtain ⟨es, raised⟩ := Lossless.turn m complete planned
  have own : Permitted (fun mv => ∃ ms ∈ m.agenda, mv ∈ ms) m.agenda :=
    fun ms hms mv hmv => ⟨ms, hms, hmv⟩
  have turned : m.Enters m.Plans m.turn :=
    .turn_of_planned own fun mv ⟨ms, hms, hmv⟩ => ⟨ms, hms, mv, hmv, rfl⟩
  obtain ⟨es', events, plans⟩ := turned.events complete
  obtain rfl : es = es' := append_cancel_left (raised.events.symm.trans events)
  exact ⟨es, raised, plans⟩

theorem read_seen (m : Machine) (r : Register) : (m.read r).2.adapter.read r = (m.read r).1 := by
  unfold Machine.read
  rw [adapter_record]

/-- Reading the status shows what it is, after the adapter has had its turn. -/
theorem raised_read (complete : m.journal.detail = .complete)
    (planned : Permitted Move.OnlyRaises m.agenda) :
    ∃ before,
      Raised m (m.read .irqStatus).2 (before ++ [.read .irqStatus (m.read .irqStatus).1]) ∧
      (∀ e ∈ before, m.Plans e) ∧
      (m.read .irqStatus).1 = m.adapter.read .irqStatus ||| causesRaised before := by
  obtain ⟨before, turned, plans⟩ := raised_turn complete planned
  obtain ⟨es, raised⟩ :=
    Lossless.note m.turn (e := .read .irqStatus (m.read .irqStatus).1) rfl turned.complete
      turned.planned
  refine ⟨before, ⟨raised.complete, raised.planned, ?_, ?_, raised.stalled.trans turned.stalled⟩,
    plans, turned.status⟩
  · have entered : (m.read .irqStatus).2.journal.events.toList =
        m.turn.journal.events.toList ++ [.read .irqStatus (m.read .irqStatus).1] := by
      unfold Machine.read
      rw [journal_record, Journal.toList_events_add turned.complete]
    rw [entered, turned.events, append_assoc]
  · have nothing : causesRaised [.read .irqStatus (m.read .irqStatus).1] = 0 := by
      rw [causesRaised_cons, causesRaised_nil, UInt32.or_zero]
      rfl
    rw [causesRaised_append, nothing, UInt32.or_zero, ← turned.status]
    exact m.read_seen .irqStatus

/-- **An interrupt loses no cause.**  What it acknowledges is what it answers with, and it does so once,
before any callback.  Causes that were raised before that are acknowledged if they are among those; and
all causes that were raised after that are still pending in the end. -/
theorem causes_interrupt (complete : m.journal.detail = .complete)
    (planned : Permitted Move.OnlyRaises m.agenda) (abides : u.Abides Act)
    (acts : ∀ k k', Act k k' → k.Lossless k') (some : (m.interrupt u).1 ≠ 0) :
    ∃ before early late,
      (m.interrupt u).2.machine.journal.events.toList =
        m.journal.events.toList ++ before ++ .read .irqStatus (m.read .irqStatus).1 :: early ++
          .wrote .irqClear (m.interrupt u).1 :: late ∧
      (∀ e ∈ before ++ early, m.Plans e) ∧
      (m.read .irqStatus).1 = m.adapter.read .irqStatus ||| causesRaised before ∧
      (m.interrupt u).2.machine.adapter.read .irqStatus =
        (((m.read .irqStatus).1 ||| causesRaised early) &&& ~~~(m.interrupt u).1) |||
          causesRaised late ∧
      (m.interrupt u).2.machine.stalled = m.stalled := by
  have rest := lossless_interrupt abides acts some
  generalize (m.interrupt u).1 = pending at rest ⊢
  generalize (m.interrupt u).2.machine = m' at rest ⊢
  -- the status is read
  obtain ⟨before, looked, plans, value⟩ := raised_read complete planned
  have seen := m.read_seen .irqStatus
  have agenda : (m.read .irqStatus).2.agenda ⊆ m.agenda := by
    unfold Machine.read
    rw [agenda_record]
    exact m.agenda_turn
  generalize (m.read .irqStatus).1 = status at *
  generalize (m.read .irqStatus).2 = k at *
  -- the adapter has its turn, and then the causes are acknowledged
  obtain ⟨early, turned, plans'⟩ := raised_turn looked.complete looked.planned
  have entered : (k.write .irqClear pending).journal.events.toList =
      k.turn.journal.events.toList ++ [.wrote .irqClear pending] := by
    rw [write, journal_record, Journal.toList_events_add turned.complete]
  have acknowledged : (k.write .irqClear pending).adapter.read .irqStatus =
      k.turn.adapter.read .irqStatus &&& ~~~pending := by
    rw [write, adapter_record]
    exact Adapter.read_irqStatus_acknowledge _ _
  have complete' : (k.write .irqClear pending).journal.detail = .complete := by
    rw [write, journal_record, Journal.detail_add]
    exact turned.complete
  have planned' : Permitted Move.OnlyRaises (k.write .irqClear pending).agenda := by
    rw [write, agenda_record]
    exact turned.planned
  have stalled : (k.write .irqClear pending).stalled = k.turn.stalled := by
    rw [write, toScene_record]
  -- nothing is lost from then on
  obtain ⟨late, raised⟩ := rest complete' planned'
  refine ⟨before, early, late, ?_, fun e he => ?_, value, ?_, ?_⟩
  · rw [raised.events, entered, turned.events, looked.events]
    simp
  · rcases mem_append.mp he with he | he
    · exact plans e he
    · obtain ⟨ms, hms, rest⟩ := plans' e he
      exact ⟨ms, agenda hms, rest⟩
  · rw [raised.status, acknowledged, turned.status, seen]
  · rw [raised.stalled, stalled, turned.stalled, looked.stalled]

/-- If the adapter plans to raise none, the status is in the end what was read, without what was
acknowledged and with all that was raised in the callbacks. -/
theorem status_interrupt (complete : m.journal.detail = .complete)
    (planned : Permitted Move.OnlyRaises m.agenda) (abides : u.Abides Act)
    (acts : ∀ k k', Act k k' → k.Lossless k') (quiet : ∀ e, m.Plans e → e.causes = 0) :
    ∃ es, (m.interrupt u).2.machine.journal.events.toList = m.journal.events.toList ++ es ∧
      (m.interrupt u).2.machine.adapter.read .irqStatus =
        ((m.read .irqStatus).1 &&& ~~~(m.interrupt u).1) ||| causesRaised es := by
  by_cases none : (m.interrupt u).1 = 0
  · obtain ⟨before, looked, plans, -⟩ := raised_read complete planned
    rw [interrupt_idle none, none]
    refine ⟨_, looked.events, ?_⟩
    have nothing : causesRaised (before ++ [.read .irqStatus (m.read .irqStatus).1]) = 0 := by
      have unraised := causesRaised_eq_zero fun e he => quiet e (plans e he)
      simp [unraised, Event.causes]
    rw [nothing, UInt32.or_zero, m.read_seen]
    simp
  · obtain ⟨before, early, late, events, plans, -, status, -⟩ :=
      causes_interrupt complete planned abides acts none
    have unraised (es : List Event) (part : es ⊆ before ++ early) : causesRaised es = 0 :=
      causesRaised_eq_zero fun e he => quiet e (plans e (part he))
    have first := unraised before (subset_append_left _ _)
    have second := unraised early (subset_append_right _ _)
    refine ⟨before ++ .read .irqStatus (m.read .irqStatus).1 :: early ++
      .wrote .irqClear (m.interrupt u).1 :: late, ?_, ?_⟩
    · rw [events]
      simp
    · rw [status, second, UInt32.or_zero]
      simp [first, second, Event.causes]

end Machine

end DescriptorRings
