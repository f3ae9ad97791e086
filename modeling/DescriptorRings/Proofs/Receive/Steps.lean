import DescriptorRings.Proofs.Receive.Course

/-!
# Accesses of the receive driver

The requests to a receive ring are put together from few actions.  This file has those that leave
all buffers where they are: the adapter makes a move, something is entered in the journal, a
register is read or written, the ring changes its counts or its phase.  Those that take a buffer
from one place to another are in `Proofs.Receive.Hands`.

The switch and the doorbell are where the adapter comes in.  The direction is switched on only when
the ring, the doorbell and the adapter's counter have been brought to agree, and `RxStage` says how
much of that is done.
-/

namespace DescriptorRings

open List

/-- The direction is on, and the adapter stands where the ring begins. -/
def Scene.Begins (s : Scene) : Prop :=
  s.adapter.on .rx = true ∧ ∃ r, s.rx = some r ∧ s.adapter.counter .rxConsumer = r.consumer

theorem Scene.Begins.give {m : Machine} (h : m.toScene.Begins) (n : Notice) :
    (m.give n).toScene.Begins := by
  unfold Machine.give
  split
  · rw [Machine.toScene_record]
    exact h
  · exact h

section

variable {T : RxTerms} {x y : RxStage} {g : Hands} {m m' : Machine} {r r' : RxRing}
  {p : BufferPool} {bs : List BufferId}

/-! ## Accesses -/

theorem RxStage.Knows.follow {a a' : Adapter} (h : x.Knows a r) (follows : a.Follows .rx a') :
    x.Knows a' r := by
  have off (h : a.on .rx = false) : a'.on .rx = false := follows.on_eq.trans h
  have consumer (h : a.on .rx = false) : a'.counter .rxConsumer = a.counter .rxConsumer :=
    follows.consumer_eq (Adapter.allowance_eq_zero_of_off h)
  cases x with
  | plain => trivial
  | silenced => exact off h
  | aligned => exact ⟨off h.1, (consumer h.1).trans h.2⟩
  | armed => exact ⟨off h.1, (consumer h.1).trans h.2.1, h.2.2⟩
  | rung => exact ⟨off h.1, (consumer h.1).trans h.2.1, h.2.2.1, follows.producer_eq.trans h.2.2.2⟩

namespace RxGuard

/-- The adapter and the memory change, and with them what is known of the adapter. -/
theorem rewire (h : RxGuard T x g m r p bs) {due unrung : Nat} {a : Adapter} {mem : Memory}
    {j : Journal}
    (same : m'.toScene = { m.toScene with adapter := a, memory := mem, journal := j })
    (complete : j.detail = .complete) (planned : Machine.Permitted T.permits m'.agenda)
    (table : Counter.Spread r.size a.rxAddress? r.consumer (bs.map p.base))
    (enough : due ≤ g.filled) (knows : T.lawful → y.Knows a r)
    (window : T.lawful → a.on .rx = true → RxWindow { g with due := due, unrung := unrung } a r) :
    RxGuard T y { g with due := due, unrung := unrung } m' r p bs where
  rx := by rw [same]; exact h.rx
  pool := by
    have pools : m'.pools = m.pools := by rw [same]
    rw [Machine.poolAt?, pools]
    exact h.pool
  place := h.place
  size := h.size
  complete := by rw [same]; exact complete
  planned := planned
  holds := h.holds
  filled := h.filled
  ledger := by rw [same]; exact h.ledger
  frames := by rw [same]; exact h.frames
  due := enough
  table := by rw [same]; exact table
  knows := by rw [same]; exact knows
  window := by rw [same]; exact window

/-- The adapter moves, memory changes, or something is entered in the journal. -/
theorem access (h : RxGuard T x g m r p bs) {a : Adapter} {mem : Memory} {j : Journal}
    (same : m'.toScene = { m.toScene with adapter := a, memory := mem, journal := j })
    (complete : j.detail = .complete) (planned : Machine.Permitted T.permits m'.agenda)
    (follows : T.lawful → m.adapter.Follows .rx a)
    (table : ∀ s, a.rxAddress? s = m.adapter.rxAddress? s) : RxGuard T x g m' r p bs := by
  refine h.rewire same complete planned (h.table.congr table) h.due
    (fun lawful => (h.knows lawful).follow (follows lawful)) fun lawful on => ?_
  have follows := follows lawful
  have window := h.window lawful (follows.on_eq.symm.trans on)
  refine ⟨window.running, ?_, ?_⟩
  · exact window.producer.trans (congrArg (Counter.advance · _) follows.producer_eq.symm)
  · have := follows.ahead_le
    have := window.within
    show a.ahead .rx + g.unrung + g.due ≤ g.filled
    omega

theorem record (h : RxGuard T x g m r p bs) (e : Event) : RxGuard T x g (m.record e) r p bs := by
  refine h.access (Machine.toScene_record m e) ?_ ?_ (fun _ => .refl _ _) fun _ => rfl
  · rw [Journal.detail_add]
    exact h.complete
  · rw [Machine.agenda_record]
    exact h.planned

theorem move (h : RxGuard T x g m r p bs) {mv : Move} (permitted : T.permits mv) :
    RxGuard T x g (m.move mv) r p bs := by
  refine h.access (Machine.toScene_move m mv) ?_ ?_
    (fun lawful => (T.law lawful mv permitted).follows _) fun s => Adapter.rxAddress?_move _ _ _
  · rw [Journal.detail_add]
    exact h.complete
  · rw [Machine.agenda_move]
    exact h.planned

/-- A register is written; what is known of the adapter afterwards has to be said. -/
theorem poke (h : RxGuard T x g m r p bs) {due unrung : Nat} (reg : Register) (v : UInt32)
    (enough : due ≤ g.filled) (knows : T.lawful → y.Knows (m.adapter.write reg v) r)
    (window : T.lawful → (m.adapter.write reg v).on .rx = true →
      RxWindow { g with due := due, unrung := unrung } (m.adapter.write reg v) r) :
    RxGuard T y { g with due := due, unrung := unrung } (m.poke reg v) r p bs := by
  refine h.rewire (Machine.toScene_poke m reg v) ?_ ?_ (h.table.congr fun s => ?_) enough knows
    window
  · rw [Journal.detail_add]
    exact h.complete
  · rw [Machine.poke, Machine.agenda_record]
    exact h.planned
  · rw [Adapter.rxAddress?, Adapter.rxTable_write, Adapter.rxAddress?]

/-- Other directions may do as they like. -/
theorem elsewhere (h : RxGuard T x g m r p bs) {a : Adapter} {j : Journal}
    (same : m'.toScene = { m.toScene with adapter := a, journal := j })
    (complete : j.detail = .complete) (agenda : m'.agenda = m.agenda)
    (registers : m.adapter.Agrees .rx a) (table : a.rxTable = m.adapter.rxTable) :
    RxGuard T x g m' r p bs := by
  refine h.access same complete ?_ (fun _ => registers.follows) fun s => ?_
  · rw [agenda]
    exact h.planned
  · rw [Adapter.rxAddress?, table, Adapter.rxAddress?]

/-- The ring changes its counts or its phase. -/
theorem adjust (h : RxGuard T x g m r p bs) (alike : r.Alike r')
    (knows : x.Knows m.adapter r → y.Knows m.adapter r')
    (phase : x.Knows m.adapter r → m.adapter.on .rx = true → r'.phase = r.phase) :
    RxGuard T y g (m.setRx r') r' p bs := by
  have holds := h.holds.congr alike.size alike.slots alike.consumer alike.producer
  refine ⟨rfl, h.pool, alike.pool.trans h.place, alike.size.trans h.size, h.complete, h.planned,
    holds, h.filled, h.ledger, h.frames, h.due, ?_, fun lawful => ?_, fun lawful on => ?_⟩
  · rw [alike.size, alike.consumer]
    exact h.table
  · exact knows (h.knows lawful)
  · have window := h.window lawful on
    refine ⟨(phase (h.knows lawful) on).trans window.running, ?_, window.within⟩
    rw [alike.producer]
    exact window.producer

/-- What is known of a stage may be forgotten. -/
theorem forget (h : RxGuard T x g m r p bs) : RxGuard T .plain g m r p bs :=
  { h with knows := fun _ => trivial }

end RxGuard

end

variable {T : RxTrack} {x y : RxStage} {g : Hands} {m : Machine}

namespace RxAt

/-- Something is noted. -/
theorem note (h : RxAt T x g m) {e : Event} (note : e.isNote = true) :
    RxAt T x g (m.record e) := by
  obtain ⟨⟨r, p, bs, guard⟩, run⟩ := h
  exact reach run guard (guard.record e) (.note _ note)

/-- A register is written that is none of this direction. -/
theorem write (h : RxAt T x g m) {reg : Register} (v : UInt32)
    (other : reg ∉ [Lane.rx.producer, Lane.rx.consumer, Lane.rx.control]) :
    RxAt T x g (m.poke reg v) := by
  obtain ⟨⟨r, p, bs, guard⟩, run⟩ := h
  refine reach run guard (guard.elsewhere (Machine.toScene_poke m reg v) ?_ ?_
    (.write other (by decide) v) (Adapter.rxTable_write _ _ _)) (.write _ v other)
  · rw [Journal.detail_add]
    exact guard.complete
  · exact Machine.agenda_record _ _

/-- A transmit descriptor is written. -/
theorem writeTx (h : RxAt T x g m) (slot : Nat) (d : TxDescriptor) :
    RxAt T x g (m.pokeTx slot d) := by
  obtain ⟨⟨r, p, bs, guard⟩, run⟩ := h
  refine reach run guard (guard.elsewhere (Machine.toScene_pokeTx m slot d) ?_ ?_
    ⟨rfl, rfl, rfl⟩ rfl) (.writeTx _ slot d)
  · rw [Journal.detail_add]
    exact guard.complete
  · exact Machine.agenda_record _ _

/-- Another part of the machine changes. -/
theorem elsewhere (h : RxAt T x g m) (tx : Option TxRing) (arbiter : Option Arbiter)
    (stalled : Option Direction) :
    RxAt T x g { m with tx := tx, arbiter := arbiter, stalled := stalled } := by
  obtain ⟨⟨r, p, bs, guard⟩, run⟩ := h
  have same : RxGuard T.toRxTerms x g { m with tx := tx, arbiter := arbiter, stalled := stalled } r
      p bs :=
    ⟨guard.rx, guard.pool, guard.place, guard.size, guard.complete, guard.planned, guard.holds,
      guard.filled, guard.ledger, guard.frames, guard.due, guard.table, guard.knows, guard.window⟩
  exact reach run guard same (.aside _ (guard.aside_parts tx arbiter stalled))

/-- When a request of the upper layer ends, the hands of the driver are empty. -/
theorem reply (h : RxAt T x g m) (batch : g.batch = []) (transit : g.transit = [])
    (fresh : g.fresh = []) (o : Outcome) : RxAt T x g (m.record (.replied o)) := by
  obtain ⟨⟨r, p, bs, guard⟩, run⟩ := h
  have replied := guard.record (.replied o)
  exact reach run guard replied
    (.reply _ o (replied.ringOver (replied.oneOwner batch transit fresh)))

theorem move (h : RxAt T x g m) {mv : Move} (permitted : T.permits mv) : RxAt T x g (m.move mv) := by
  obtain ⟨⟨r, p, bs, guard⟩, run⟩ := h
  exact reach run guard (guard.move permitted) (.move _ permitted)

theorem plan (h : RxAt T x g m) {agenda : List (List Move)}
    (permitted : Machine.Permitted T.permits agenda) : RxAt T x g { m with agenda := agenda } := by
  obtain ⟨⟨r, p, bs, guard⟩, run⟩ := h
  exact reach run guard
    (guard.access rfl guard.complete permitted (fun _ => .refl _ _) fun _ => rfl)
    (.aside _ (guard.aside_plan agenda))

/-- Before each access the adapter has its turn. -/
theorem turn (h : RxAt T x g m) : RxAt T x g m.turn := by
  have planned : Machine.Permitted T.permits m.agenda := by
    obtain ⟨⟨r, p, bs, guard⟩, -⟩ := h
    exact guard.planned
  exact Machine.keeps_turn_of_planned planned (fun _ _ permitted => h.plan permitted)
    (fun _ _ permitted hk => hk.move permitted) h

/-- A counter is read, and what was read is what the register still holds. -/
theorem readCounter (h : RxAt T x g m) (reg : Register) :
    ∃ k, m.readCounter reg = (k.adapter.counter reg, k) ∧ RxAt T x g k := by
  refine ⟨m.turn.peek reg, Prod.ext ?_ rfl, h.turn.note rfl⟩
  rw [Machine.toScene_peek]
  rfl

theorem give (h : RxAt T x g m) (n : Notice) : RxAt T x g (m.give n) := by
  unfold Machine.give
  split
  · exact h.note rfl
  · exact h

theorem giveIf (h : RxAt T x g m) (condition : Bool) (n : Notice) :
    RxAt T x g (m.giveIf condition n) := by
  unfold Machine.giveIf
  split
  · exact h.give n
  · exact h

/-! ## The switch and the doorbell -/

/-- After the direction is switched off nothing has to be known of the adapter. -/
theorem switchOff (h : RxAt T x g m) (allowed : T.switches) :
    RxAt T .silenced g (m.write .rxDmaControl DmaControl.off) := by
  obtain ⟨⟨r, p, bs, guard⟩, run⟩ := h.turn
  have off : (m.turn.adapter.write .rxDmaControl DmaControl.off).on .rx = false :=
    Adapter.isOn_write_off _ _
  exact reach run guard (guard.poke .rxDmaControl DmaControl.off guard.due (fun _ => off)
    fun _ on => absurd (off.symm.trans on) Bool.false_ne_true) (.switch _ _ allowed)

/-- The direction is switched on when the adapter, the doorbell and the ring agree. -/
theorem switchOn (h : RxAt T .rung g m) (due : g.due = 0) (allowed : T.switches) :
    RxAt T .plain { g with unrung := 0 } (m.write .rxDmaControl DmaControl.enable) ∧
      (T.lawful → (m.write .rxDmaControl DmaControl.enable).toScene.Begins) := by
  obtain ⟨⟨r, p, bs, guard⟩, run⟩ := h.turn
  have begins (lawful : T.lawful) :
      (m.turn.poke .rxDmaControl DmaControl.enable).toScene.Begins := by
    obtain ⟨-, hc, -⟩ := guard.knows lawful
    rw [Machine.toScene_poke]
    refine ⟨Adapter.isOn_write_enable _ _, r, guard.rx, ?_⟩
    exact (Adapter.counter_write_of_ne _ (by decide) (by decide) _).trans hc
  refine ⟨reach run guard (guard.poke .rxDmaControl DmaControl.enable guard.due (fun _ => trivial)
    fun lawful _ => ?_) (.switch _ _ allowed), begins⟩
  obtain ⟨-, hc, running, hp⟩ := guard.knows lawful
  refine ⟨running, ?_, ?_⟩
  · rw [Adapter.counter_write_of_ne _ (by decide) (by decide), hp]
    exact (Counter.advance_zero _).symm
  · have ahead : (m.turn.adapter.write .rxDmaControl DmaControl.enable).ahead .rx = g.filled := by
      refine (Adapter.ahead_write_control (l := .rx) (by decide) (by decide) (by decide) _ _).trans
        ?_
      show (m.turn.adapter.counter .rxProducer).past (m.turn.adapter.counter .rxConsumer) = _
      rw [hc, hp, guard.holds.past_eq, guard.filled]
    rw [ahead]
    show g.filled + 0 + g.due ≤ g.filled
    omega

/-- The doorbell is rung for all that the ring holds. -/
theorem ring (h : RxAt T x g m) {c : Counter} (producer : ∀ r, m.rx = some r → r.producer = c)
    (knows : ∀ (a : Adapter) (r : RxRing), x.Knows a r → r.producer = c →
      y.Knows (a.write .rxProducer c.toUInt32) r) :
    RxAt T y { g with unrung := 0 } (m.writeCounter .rxProducer c) := by
  have rx := Machine.rx_turn m
  obtain ⟨⟨r, p, bs, guard⟩, run⟩ := h.turn
  have hc : r.producer = c := producer r (rx.symm.trans guard.rx)
  refine reach run guard (guard.poke .rxProducer c.toUInt32 guard.due
    (fun lawful => knows _ r (guard.knows lawful) hc) fun lawful on => ?_) (.ring _ _)
  have window := guard.window lawful
    ((Adapter.isOn_write_of_ne _ (by decide) (by decide) _).symm.trans on)
  have within := window.within
  have span : g.filled < Counter.span := guard.filled ▸ guard.holds.length_lt_span
  -- the end of the window, as the adapter sees it
  have place : c =
      (m.turn.adapter.counter .rxConsumer).advance (m.turn.adapter.ahead .rx + g.unrung) := by
    rw [← hc, window.producer, ← Counter.advance_advance]
    exact congrArg (Counter.advance · _) (Counter.advance_past _ _).symm
  refine ⟨window.running, ?_, ?_⟩
  · rw [Adapter.counter_write_self]
    exact hc.trans (Counter.advance_zero c).symm
  · have ahead : (m.turn.adapter.write .rxProducer c.toUInt32).ahead .rx =
        m.turn.adapter.ahead .rx + g.unrung := by
      refine (Adapter.ahead_write_producer (l := .rx) (by decide) (by decide) _ c).trans ?_
      conv_lhs => rw [place]
      exact Counter.past_advance _ (by omega)
    rw [ahead]
    exact within

/-! ## Changes of the ring alone -/

/-- The ring changes its counts or its phase. -/
theorem adjust (h : RxAt T x g m) (f : RxRing → RxRing) (alike : ∀ r : RxRing, r.Alike (f r))
    (knows : ∀ (a : Adapter) (r : RxRing), x.Knows a r → y.Knows a (f r))
    (phase : ∀ (a : Adapter) (r : RxRing), x.Knows a r → a.on .rx = true → (f r).phase = r.phase) :
    RxAt T y g (m.modifyRx f) := by
  obtain ⟨⟨r, p, bs, guard⟩, run⟩ := h
  rw [Machine.modifyRx_eq_setRx guard.rx]
  exact reach run guard (guard.adjust (alike r) (knows _ r) (phase _ r))
    (.aside _ (guard.aside_ring (alike r)))

theorem noteReading (h : RxAt T .plain g m) (c : Counter) :
    RxAt T .plain g (m.modifyRx fun r => r.noteReading c) := by
  have same (r : RxRing) :
      ∃ n, r.noteReading c = { r with stats := { r.stats with badConsumer := n } } := by
    unfold RxRing.noteReading
    split
    · exact ⟨r.stats.badConsumer, rfl⟩
    · exact ⟨r.stats.badConsumer + 1, rfl⟩
  refine h.adjust _ (fun r => ?_) (fun _ _ _ => trivial) fun _ r _ _ => ?_
  · obtain ⟨n, hn⟩ := same r
    rw [hn]
    exact ⟨rfl, rfl, rfl, rfl, rfl, rfl⟩
  · obtain ⟨n, hn⟩ := same r
    rw [hn]

/-- The phase changes while the direction is off. -/
theorem enterPhase (h : RxAt T x g m) (phase : Phase)
    (off : ∀ (a : Adapter) (r : RxRing), x.Knows a r → a.on .rx = false)
    (knows : ∀ (a : Adapter) (r : RxRing), x.Knows a r → y.Knows a (r.enter phase)) :
    RxAt T y g (m.modifyRx fun r => r.enter phase) :=
  h.adjust _ (fun _ => ⟨rfl, rfl, rfl, rfl, rfl, rfl⟩) knows
    fun a r known on => absurd ((off a r known).symm.trans on) Bool.false_ne_true

/-- What is known of a stage may be forgotten. -/
theorem forget (h : RxAt T x g m) : RxAt T .plain g m := by
  obtain ⟨⟨r, p, bs, guard⟩, run⟩ := h
  exact ⟨⟨r, p, bs, guard.forget⟩, run⟩

end RxAt

end DescriptorRings
