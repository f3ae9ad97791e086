import DescriptorRings.Proofs.Transmit.Flight

/-!
# Every step keeps the guard

The steps of a transmit request, one after the other, in the order in which the requests make them:
starting and cancelling, posting, handing back, emptying.  Each keeps the guard of
`Proofs.Transmit.Guard`, and moves the window as the ring does.  At the end stands what the guard
comes to for whoever looks at the machine at any moment (`no_premature_completion`).
-/

namespace DescriptorRings

open Relation List TxRing

variable {x : TxPoint} {m : Machine} {r r' : TxRing} {b : Counter} {ts : List TxPost} {c : Counter}

namespace TxGuard

/-- The ring knows where the window begins, except while it is emptied. -/
theorem based (h : TxGuard x m r b ts) (idle : x ≠ .draining) : b = r.reclaim :=
  h.sound.based.resolve_left idle

theorem accepted (h : TxGuard x m r b ts) {p : Packet} (free : r.refusal? p = none) :
    TxGuard x ((m.setTx (r.accept p)).record (.accepted p)) (r.accept p) b ts := by
  have taken : TxGuard x (m.setTx (r.accept p)) (r.accept p) b ts :=
    h.adjust rfl rfl rfl rfl rfl (h.sound.accept free).some
  exact taken.enter ⟨rfl, rfl, rfl⟩

/-! ## Starting and cancelling -/

theorem look (h : TxGuard .idle m r b ts) (clear : r.inFlight = 0) :
    TxGuard (.starting (m.adapter.counter .txConsumer)) (m.peek .txConsumer) r b ts := by
  have based := h.based TxPoint.noConfusion
  have looked : TxGuard (.starting (m.adapter.counter .txConsumer)) m r b ts :=
    h.goto based rfl rfl rfl (TxPoint.no_walk rfl) ⟨rfl, h.sound.eq_nil_of_inFlight based clear⟩
  exact looked.enter ⟨rfl, rfl, rfl⟩

theorem place (h : TxGuard (.starting c) m r b ts) :
    TxGuard (.placed c) (m.setTx (r.begin c)) (r.begin c) c ts where
  tx := rfl
  complete := h.complete
  sound := by
    obtain ⟨-, rfl⟩ := h.knows
    exact h.sound.begin c
  table := by
    obtain ⟨-, rfl⟩ := h.knows
    exact .nil _ _ _
  knows := ⟨h.knows.1, h.knows.2, rfl, rfl⟩
  window on := by
    obtain ⟨hc, rfl⟩ := h.knows
    have window := h.window on
    have doorbell : r.producer = m.adapter.counter .txProducer := by
      rw [window.producer]
      exact Counter.advance_zero _
    refine ⟨rfl, ?_, window.within, window.unmarked⟩
    have stands := window.consumer_eq
    rw [hc, doorbell] at stands
    exact stands.trans (Counter.advance_zero _).symm
  account on := by
    obtain ⟨hc, rfl⟩ := h.knows
    obtain ⟨sent, account⟩ := h.account on
    refine ⟨sent, account.posted, account.transmitted, fun t ht => ?_⟩
    have stands := (h.window on).consumer_eq
    rw [hc, h.sound.tiled.eq_advance_load, load_nil, Counter.advance_zero] at stands
    rw [account.next t ht, stands]

theorem align (h : TxGuard (.placed c) m r b ts) :
    TxGuard (.aligned c) (m.poke .txProducer c.toUInt32) r b ts := by
  obtain ⟨hc, hts, hp, running⟩ := h.knows
  refine h.doorbell (h.based TxPoint.noConfusion) rfl rfl (TxPoint.no_walk rfl) ?_ rfl hp
  refine ⟨?_, hts, hp, running, Adapter.counter_write_self _ _ _⟩
  rw [Adapter.counter_write_of_ne _ (by decide) (by decide)]
  exact hc

/-- The direction is switched on while the doorbell, the ring and the adapter agree. -/
theorem switchOn (h : TxGuard (.aligned c) m r b ts) :
    TxGuard .idle (m.poke .txDmaControl DmaControl.enable) r b ts := by
  obtain ⟨hc, rfl, hp, running, hd⟩ := h.knows
  have ahead : (m.adapter.write .txDmaControl DmaControl.enable).ahead .tx = 0 := by
    refine (Adapter.ahead_write_control (l := .tx) (by decide) (by decide) (by decide) _ _).trans ?_
    show Counter.past (m.adapter.counter .txProducer) (m.adapter.counter .txConsumer) = 0
    rw [hc, hd, Counter.past_self]
  have doorbell : (m.adapter.write .txDmaControl DmaControl.enable).counter .txProducer = c :=
    (Adapter.counter_write_of_ne _ (by decide) (by decide) _).trans hd
  refine ⟨(Machine.tx_record _ _).trans h.tx, ?_, ?_, ?_, trivial, fun _ => ?_, fun _ => ?_⟩
  · rw [Machine.poke, Machine.journal_record, Journal.detail_add]
    exact h.complete
  · exact h.sound.goto (h.based TxPoint.noConfusion) (TxPoint.no_walk rfl)
  · rw [Machine.toScene_poke, Adapter.txTable_write]
    exact h.table
  · rw [Machine.toScene_poke]
    refine ⟨running, ?_, ?_, fun t ht => absurd ht not_mem_nil⟩
    · rw [doorbell, hp]
      exact (Counter.advance_zero c).symm
    · exact ahead.le
  · rw [Machine.poke, Machine.journal_record]
    refine ⟨[], ?_, ?_, fun t ht => absurd ht (Option.some_ne_none t).symm⟩
    · exact Journal.latest_add_of_mark h.complete _ rfl
    · exact Journal.latest_add_of_mark h.complete _ rfl

theorem switchOff (h : TxGuard .idle m r b ts) :
    TxGuard .silenced (m.poke .txDmaControl DmaControl.off) r b ts := by
  have off : (m.poke .txDmaControl DmaControl.off).adapter.on .tx = false := by
    rw [Machine.toScene_poke]
    exact Adapter.isOn_write_off _ _
  refine ⟨(Machine.tx_record _ _).trans h.tx, ?_, ?_, ?_, off, fun on => ?_, fun on => ?_⟩
  · rw [Machine.poke, Machine.journal_record, Journal.detail_add]
    exact h.complete
  · exact h.sound.goto (h.based TxPoint.noConfusion) (TxPoint.no_walk rfl)
  · rw [Machine.toScene_poke, Adapter.txTable_write]
    exact h.table
  · exact absurd (off.symm.trans on) Bool.false_ne_true
  · exact absurd (off.symm.trans on) Bool.false_ne_true

/-- Marking packets changes neither where they lie nor what was written for them. -/
theorem mark (h : TxGuard .silenced m r b ts) :
    TxGuard .idle (m.setTx r.cancel) r.cancel b (ts.map TxPost.ignore) := by
  have off : m.adapter.on .tx = false := h.knows
  have sound := h.sound.cancel (h.based TxPoint.noConfusion)
  refine ⟨rfl, h.complete, sound, ?_, trivial, fun on => ?_, fun on => ?_⟩
  · rw [lay_map_ignore]
    exact h.table
  · exact absurd (off.symm.trans on) Bool.false_ne_true
  · exact absurd (off.symm.trans on) Bool.false_ne_true

/-! ## Posting -/

theorem collect (h : TxGuard .idle m r b ts) :
    TxGuard .idle (m.setTx r.collect) r.collect b ts :=
  h.adjust rfl rfl rfl rfl rfl h.sound.collect.some

theorem survey (h : TxGuard .idle m r b ts) :
    TxGuard (.walking r.postingWalk [] r.postingWalk.posts) m r b ts := by
  refine h.goto (h.based TxPoint.noConfusion) rfl rfl rfl (fun w hw => ?_) trivial
  obtain rfl := Option.some.inj hw
  rfl

section Walking

variable {w : Walk} {done todo : List TxPost} {t : TxPost} {k : Nat}

theorem announce (h : TxGuard (.walking w done (t :: todo)) m r b ts) :
    TxGuard (.writing w done t todo 0) (m.record (.posting t)) r b ts where
  tx := (Machine.tx_record _ _).trans h.tx
  complete := by
    rw [Machine.journal_record, Journal.detail_add]
    exact h.complete
  sound := by
    refine h.sound.goto (h.based TxPoint.noConfusion) fun v hv => ?_
    rw [h.sound.walk v hv]
    exact append_cons _ _ _
  table := by
    rw [Machine.toScene_record]
    have laid : (TxPoint.writing w done t todo 0).laid = lay done := append_nil _
    rw [laid]
    exact h.table
  knows := trivial
  window on := by
    rw [Machine.toScene_record] at on ⊢
    have window := h.window on
    exact ⟨window.running, window.producer, window.within, window.unmarked⟩
  account on := by
    rw [Machine.toScene_record] at on ⊢
    obtain ⟨sent, account⟩ := h.account on
    refine ⟨sent, ?_, ?_, account.next⟩
    · have posted : (m.journal.add (.posting t)).posted = m.journal.posted ++ [t] :=
        Journal.latest_add h.complete _ rfl
      rw [posted, account.posted, append_assoc]
      rfl
    · have transmitted : (m.journal.add (.posting t)).transmitted = m.journal.transmitted :=
        Journal.latest_add_of_none h.complete rfl rfl
      rw [transmitted]
      exact account.transmitted

/-- A descriptor goes into the slot of none of those that lie in the window. -/
theorem write (h : TxGuard (.writing w done t todo k) m r b ts)
    (surveyed : r.postingWalk = w) {slot : Nat} {d : TxDescriptor}
    (next : (t.writes r.size)[k]? = some (slot, d)) :
    TxGuard (.writing w done t todo (k + 1)) (m.pokeTx slot d) r b ts where
  tx := (Machine.tx_record _ _).trans h.tx
  complete := by
    rw [Machine.pokeTx, Machine.journal_record, Journal.detail_add]
    exact h.complete
  sound := h.sound.goto (h.based TxPoint.noConfusion) h.sound.walk
  table := by
    obtain ⟨laid, room, place⟩ :=
      h.sound.next_place (h.based TxPoint.noConfusion) surveyed next
    rw [Machine.toScene_pokeTx, laid, ← append_assoc]
    refine h.table.concat room ?_ fun s hs => SlotTable.get?_set_of_ne _ ?_ _
    · rw [← place]
      exact SlotTable.get?_set_self _ _ _
    · rw [place]
      exact hs
  knows := trivial
  window on := by
    rw [Machine.toScene_pokeTx] at on ⊢
    have window := h.window on
    exact ⟨window.running, window.producer, window.within, window.unmarked⟩
  account on := by
    rw [Machine.toScene_pokeTx] at on ⊢
    obtain ⟨sent, account⟩ := h.account on
    have entered := account.entered h.complete (e := .wroteTx slot d) ⟨rfl, rfl, rfl⟩
    exact ⟨sent, entered.posted, entered.transmitted, entered.next⟩

theorem written (h : TxGuard (.writing w done t todo t.packet.fragmentCount) m r b ts) :
    TxGuard (.walking w (done ++ [t]) todo) m r b ts :=
  h.goto (h.based TxPoint.noConfusion) rfl rfl (TxPoint.laid_walking w done t todo)
    h.sound.walk trivial

/-- The ring takes a walk over once all of it is written. -/
theorem adopt (h : TxGuard (.walking w done []) m r b ts) (surveyed : r.postingWalk = w) :
    TxGuard (.walked w) (m.setTx (r.afterWalk w)) (r.afterWalk w) b (ts ++ done) := by
  obtain ⟨sound, tiled, rung, unmarked⟩ := h.sound.adopt (h.based TxPoint.noConfusion) surveyed
  refine ⟨rfl, h.complete, sound, ?_, rfl, fun on => ?_, fun on => ?_⟩
  · have laid : lay (ts ++ done) ++ (TxPoint.walked w).laid =
        lay ts ++ (TxPoint.walking w done []).laid :=
      (append_nil _).trans (lay_append ts done)
    rw [laid]
    exact h.table
  · have window := h.window on
    refine ⟨window.running, ?_, ?_, ?_⟩
    · show w.producer = (m.adapter.counter .txProducer).advance w.written
      rw [tiled.eq_advance_load, window.producer, Counter.advance_advance, rung]
      exact congrArg (Counter.advance _) (Nat.zero_add _)
    · show m.adapter.ahead .tx + w.written ≤ load (ts ++ done)
      rw [load_append, rung]
      exact Nat.add_le_add_right window.within _
    · intro t ht
      rcases mem_append.mp ht with ht | ht
      · exact window.unmarked t ht
      · exact unmarked t ht
  · obtain ⟨sent, account⟩ := h.account on
    refine ⟨sent, account.posted.trans ?_, account.transmitted, account.next⟩
    rw [← append_assoc]
    exact (append_nil _).symm

theorem ring (h : TxGuard (.walked w) m r b ts) :
    TxGuard .idle (m.poke .txProducer w.producer.toUInt32) r b ts :=
  h.doorbell (h.based TxPoint.noConfusion) rfl rfl (TxPoint.no_walk rfl) trivial rfl h.knows

theorem quiet (h : TxGuard (.walked w) m r b ts) (none : w.written = 0) :
    TxGuard .idle m r b ts :=
  h.goto (h.based TxPoint.noConfusion) none.symm rfl rfl (TxPoint.no_walk rfl) trivial

end Walking

/-! ## Handing back -/

/-- The reading tells how many descriptors the adapter has not consumed, or more. -/
theorem read (h : TxGuard .idle m r b ts) :
    TxGuard (.reclaiming (r.unconsumed (m.adapter.counter .txConsumer))) (m.peek .txConsumer) r b
      ts := by
  have based := h.based TxPoint.noConfusion
  have tiled := h.sound.tiled
  rw [based] at tiled
  have read : TxGuard (.reclaiming (r.unconsumed (m.adapter.counter .txConsumer))) m r b ts := by
    refine h.goto based rfl rfl rfl (TxPoint.no_walk rfl) fun on => ?_
    have window := h.window on
    exact (unconsumed_eq tiled h.sound.fits window.within window.producer_eq).ge
  exact read.enter ⟨rfl, rfl, rfl⟩

theorem doubt (h : TxGuard x m r b ts) (c : Counter) :
    TxGuard x (m.setTx (r.noteReading c)) (r.noteReading c) b ts := by
  obtain ⟨n, hn⟩ := exists_noteReading_eq r c
  refine h.adjust ?_ ?_ ?_ ?_ ?_ ?_
  case refine_6 =>
    rw [hn]
    exact h.sound.some
  all_goals rw [hn]

section Reclaiming

variable {n : Nat} {p : Packet} {rest : List TxEntry} {last : Counter}

/-- A skipped packet leaves the window as it is. -/
theorem passSkipped (h : TxGuard (.reclaiming n) m r b ts) (passed : r.passed = ⟨p, none⟩ :: rest)
    (taken : r' = { r with passed := rest }) :
    TxGuard (.reclaiming n) ((m.setTx (r'.settle p)).record (.completed p)) (r'.settle p) b ts := by
  subst taken
  obtain ⟨ignored, sound⟩ := h.sound.skipped passed
  have settled : TxGuard (.reclaiming n) (m.setTx ({ r with passed := rest }.settle p))
      ({ r with passed := rest }.settle p) b ts := by
    refine ⟨rfl, h.complete, ?_, h.table, h.knows, fun on => ?_, h.account⟩
    · exact sound.adjust rfl rfl rfl rfl sound.some
    · have window := h.window on
      exact ⟨window.running, window.producer, window.within, window.unmarked⟩
  exact settled.enter ⟨rfl, rfl, if_pos ignored⟩

/-- **A posted packet that is done leaves the window at its front**, and the adapter has passed it.
-/
theorem passDone (h : TxGuard (.reclaiming n) m r b ts)
    (passed : r.passed = ⟨p, some last⟩ :: rest)
    (done : n < r.producer.distance last r.size.slots)
    (taken : r' = { r with passed := rest, reclaim := last.advance 1 }) :
    ∃ ts', TxGuard (.reclaiming n) ((m.setTx (r'.settle p)).record (.completed p)) (r'.settle p)
      (last.advance 1) ts' := by
  subst taken
  have whole := h.sound.tiled
  obtain ⟨ts', rfl, rfl, place, tiled, fits⟩ := h.sound.posted passed
  rw [passed] at whole
  have enough := le_load_of_done whole h.sound.fits done
  refine ⟨ts', (Machine.tx_record _ _), ?_, ?_, ?_, ?_, fun on => ?_, fun on => ?_⟩
  · rw [Machine.journal_record, Journal.detail_add]
    exact h.complete
  · exact ⟨tiled, fits, .inr rfl, h.sound.some, TxPoint.no_walk rfl⟩
  · have table := h.table
    rw [lay_cons, append_assoc] at table
    rw [Machine.toScene_record, place, ← Packet.length_descriptors]
    exact table.drop
  · rw [Machine.toScene_record]
    exact h.knows
  · rw [Machine.toScene_record] at on ⊢
    have window := h.window on
    refine ⟨window.running, window.producer, ?_, fun t ht => ?_⟩
    · exact Nat.le_trans (h.knows on) enough
    · exact window.unmarked t (mem_cons_of_mem _ ht)
  · rw [Machine.toScene_record] at on ⊢
    obtain ⟨sent, account⟩ := h.account on
    have unmarked : p.ignored = false := (h.window on).unmarked ⟨p, b⟩ mem_cons_self
    exact ⟨_, account.settled h.complete unmarked⟩

theorem handBack (h : TxGuard (.reclaiming n) m r b ts) (next : r.takeDone? n = some (p, r')) :
    ∃ b' ts', TxGuard (.reclaiming n) ((m.setTx (r'.settle p)).record (.completed p))
      (r'.settle p) b' ts' := by
  rcases takeDone?_eq_some_iff.mp next with
    ⟨rest, passed, taken⟩ | ⟨last, rest, passed, done, taken⟩
  · exact ⟨b, ts, h.passSkipped passed taken⟩
  · obtain ⟨ts', guard⟩ := h.passDone passed done taken
    exact ⟨last.advance 1, ts', guard⟩

theorem stop (h : TxGuard (.reclaiming n) m r b ts) : TxGuard .idle m r b ts :=
  h.goto (h.based TxPoint.noConfusion) rfl rfl rfl (TxPoint.no_walk rfl) trivial

end Reclaiming

/-! ## Emptying a cancelled ring -/

section Draining

variable {p : Packet}

/-- A cancelled ring is not running, and so its direction is not on. -/
theorem drain (h : TxGuard .idle m r b ts) (cancelled : r.phase = .cancelled) :
    TxGuard .draining m r b ts := by
  refine h.goto (h.based TxPoint.noConfusion) rfl rfl rfl (TxPoint.no_walk rfl) ?_
  refine Bool.eq_false_iff.mpr fun on => ?_
  exact Phase.noConfusion ((h.window on).running.symm.trans cancelled)

/-- While the ring is emptied the direction is off, and only the ring itself is of interest. -/
theorem surrender (h : TxGuard .draining m r b ts) (next : r.takeOldest? = some (p, r')) :
    ∃ b' ts', TxGuard .draining ((m.setTx (r'.settle p.ignore)).record (.completed p.ignore))
      (r'.settle p.ignore) b' ts' := by
  obtain ⟨gone, ts', rfl, size, -, sound⟩ := h.sound.surrender next
  have off : ((m.setTx (r'.settle p.ignore)).record (.completed p.ignore)).adapter.on .tx =
      false := by
    rw [Machine.toScene_record]
    exact h.knows
  refine ⟨b.advance (load gone), ts', Machine.tx_record _ _, ?_, ?_, ?_, off, fun on => ?_,
    fun on => ?_⟩
  · rw [Machine.journal_record, Journal.detail_add]
    exact h.complete
  · exact sound.adjust rfl rfl rfl rfl sound.some
  · have table := h.table
    rw [lay_append, append_assoc] at table
    rw [Machine.toScene_record, settle, size, ← length_lay]
    exact table.drop
  · exact absurd (off.symm.trans on) Bool.false_ne_true
  · exact absurd (off.symm.trans on) Bool.false_ne_true

theorem abandon (h : TxGuard .draining m r b ts) (empty : r.queue = []) :
    TxGuard .idle (m.setTx r.abandon) r.abandon b ts := by
  have off : m.adapter.on .tx = false := h.knows
  obtain ⟨-, sound⟩ := h.sound.abandon empty
  refine ⟨rfl, h.complete, sound, h.table, trivial, fun on => ?_, fun on => ?_⟩
  · exact absurd (off.symm.trans on) Bool.false_ne_true
  · exact absurd (off.symm.trans on) Bool.false_ne_true

end Draining

end TxGuard

/-! ## Every step -/

/-- The window of a machine, whatever it is. -/
def TxGuarded (c : TxPoint × Machine) : Prop := ∃ r b ts, TxGuard c.1 c.2 r b ts

/-- **Every step keeps the guard.** -/
theorem TxGuarded.step (c c' : TxPoint × Machine) (step : TxStep (Move.Lawful .tx) c c')
    (surveyed : Surveyed c) (h : TxGuarded c) : TxGuarded c' := by
  obtain ⟨r, b, ts, h⟩ := h
  have ring {q : TxRing} (tx : c.2.tx = some q) : q = r := Option.some.inj (tx.symm.trans h.tx)
  cases step
  case plan =>
    exact ⟨r, b, ts, h.tx, h.complete, h.sound, h.table, h.knows, h.window, h.account⟩
  case move lawful =>
    refine ⟨r, b, ts, h.follow (e := .moved _) ?_ ?_ (Machine.tx_move _ _)
      (Machine.journal_move _ _) ⟨rfl, rfl, rfl⟩⟩
    · rw [Machine.toScene_move]
      exact lawful.follows _
    · rw [Machine.toScene_move]
      exact Adapter.txTable_move _ _
  case elsewhere apart => exact ⟨r, b, ts, h.apart apart⟩
  case note e aside => exact ⟨r, b, ts, h.enter (Event.quiet_of_isAside aside)⟩
  case accept q p tx free =>
    obtain rfl := ring tx
    exact ⟨_, b, ts, h.accepted free⟩
  case look q tx clear =>
    obtain rfl := ring tx
    exact ⟨q, b, ts, h.look clear⟩
  case place q tx =>
    obtain rfl := ring tx
    exact ⟨_, _, ts, h.place⟩
  case align => exact ⟨r, b, ts, h.align⟩
  case switchOn => exact ⟨r, b, ts, h.switchOn⟩
  case switchOff => exact ⟨r, b, ts, h.switchOff⟩
  case mark q tx =>
    obtain rfl := ring tx
    exact ⟨_, b, _, h.mark⟩
  case collect q tx =>
    obtain rfl := ring tx
    exact ⟨_, b, ts, h.collect⟩
  case survey q tx running =>
    obtain rfl := ring tx
    exact ⟨q, b, ts, h.survey⟩
  case announce => exact ⟨r, b, ts, h.announce⟩
  case write q tx next =>
    obtain rfl := ring tx
    exact ⟨q, b, ts, h.write (surveyed _ q rfl tx) next⟩
  case written => exact ⟨r, b, ts, h.written⟩
  case adopt q tx =>
    obtain rfl := ring tx
    exact ⟨_, b, _, h.adopt (surveyed _ q rfl tx)⟩
  case ring => exact ⟨r, b, ts, h.ring⟩
  case quiet none => exact ⟨r, b, ts, h.quiet none⟩
  case read q tx running =>
    obtain rfl := ring tx
    exact ⟨q, b, ts, h.read⟩
  case doubt c q tx =>
    obtain rfl := ring tx
    exact ⟨_, b, ts, h.doubt c⟩
  case complete q q' tx next =>
    obtain rfl := ring tx
    exact ⟨_, h.handBack next⟩
  case stop => exact ⟨r, b, ts, h.stop⟩
  case drain q tx cancelled =>
    obtain rfl := ring tx
    exact ⟨q, b, ts, h.drain cancelled⟩
  case surrender q q' tx next =>
    obtain rfl := ring tx
    exact ⟨_, h.surrender next⟩
  case abandon q tx empty =>
    obtain rfl := ring tx
    exact ⟨_, b, ts, h.abandon empty⟩

/-! ## What the guard comes to -/

/-- What the adapter may still read belongs to packets that were not handed back: of the packets
announced since the direction was switched on, some were sent and the others are live. -/
structure TxSafe (s : Scene) (r : TxRing) (sent live : List TxPost) : Prop where
  /-- Packets are sent in the order in which they were announced. -/
  posted : s.journal.posted = sent ++ live
  /-- The packets sent are those handed back as transmitted. -/
  transmitted : s.journal.transmitted = sent.map TxPost.packet
  /-- The live packets wait in the ring to be handed back. -/
  pending : live.map TxPost.packet <+ r.queue
  /-- **Each counter from the adapter's up to the doorbell is one of a live packet**, and the
  descriptor that was last written there is the packet's. -/
  covered : ∀ k < s.adapter.ahead .tx, ∃ t ∈ live, ∃ j < t.packet.fragmentCount,
    (s.adapter.counter .txConsumer).advance k = t.first.advance j ∧
      s.adapter.txTable.get? (((s.adapter.counter .txConsumer).advance k).slot r.size.slots) =
        t.packet.descriptors[j]?
  /-- Of the packet handed back last the adapter has consumed the last descriptor. -/
  consumed : ∀ t, sent.getLast? = some t → ∀ k < s.adapter.ahead .tx,
    (s.adapter.counter .txConsumer).advance k ≠ t.last

namespace TxGuard

/-- The posted packets and the fresh ones wait to be handed back, in this order. -/
theorem pending (h : TxGuard x m r b ts) (surveyed : Surveyed (x, m)) :
    (ts ++ x.fresh).map TxPost.packet <+ r.queue := by
  rw [map_append, queue]
  refine h.sound.tiled.sublist.append ?_
  cases hw : x.walk? with
  | none =>
    have fresh : x.fresh = [] := by
      cases x <;> first | rfl | exact absurd hw (Option.some_ne_none _)
    rw [fresh]
    exact nil_sublist _
  | some w =>
    have based : b = r.reclaim := by
      refine h.based ?_
      rintro rfl
      exact absurd hw.symm (Option.some_ne_none w)
    obtain ⟨tiled, -, -, -⟩ := h.sound.postingWalk based
    rw [surveyed w r hw h.tx] at tiled
    have posts := h.sound.walk w hw
    have walked : w.passed.map TxEntry.packet ++ w.waiting = r.waiting := by
      rw [← surveyed w r hw h.tx]
      exact packets_walk _ _ _ _
    calc x.fresh.map TxPost.packet
        <+ w.posts.map TxPost.packet := by
          rw [posts]
          exact (sublist_append_left _ _).map _
      _ <+ w.passed.map TxEntry.packet := tiled.sublist
      _ <+ r.waiting := by
          rw [← walked]
          exact sublist_append_left _ _

theorem safe (h : TxGuard x m r b ts) (surveyed : Surveyed (x, m))
    (on : m.adapter.on .tx = true) : ∃ sent live, TxSafe m.toScene r sent live := by
  obtain ⟨sent, account⟩ := h.account on
  have window := h.window on
  -- where the adapter stands in the window
  have stands : m.adapter.counter .txConsumer =
      b.advance (load ts - (m.adapter.ahead .tx + x.unrung)) :=
    Counter.eq_advance_sub (h.sound.tiled.eq_advance_load.symm.trans window.producer_eq)
      window.within
  have within := window.within
  have fits := h.sound.load_lt_span
  refine ⟨sent, ts ++ x.fresh, ?_, account.transmitted, h.pending surveyed, ?_, ?_⟩
  · rw [account.posted, append_assoc]
  · intro k hk
    rw [stands, Counter.advance_advance]
    have inside : load ts - (m.adapter.ahead .tx + x.unrung) + k < load ts := by omega
    obtain ⟨t, ht, j, hj, place, laid⟩ := h.sound.tiled.exists_post inside
    refine ⟨t, mem_append_left _ ht, j, hj, place, ?_⟩
    have some := getElem?_eq_getElem (l := t.packet.descriptors)
      (by rwa [Packet.length_descriptors])
    rw [some]
    exact h.table.take _ _ (laid.trans some)
  · intro t ht k hk same
    have next := account.next t ht
    rw [← same, stands, Counter.advance_advance, Counter.advance_advance] at next
    have turn := Counter.past_advance b
      (n := load ts - (m.adapter.ahead .tx + x.unrung) + k + 1) (by omega)
    rw [Nat.add_assoc] at turn
    rw [next, Counter.past_self] at turn
    omega

end TxGuard

/-- **No premature completion.**  A new transmit ring is used in any way, with an adapter whose
transmit direction is off at first and which keeps the law of that direction.  Then at every moment,
in the middle of a request as well, every descriptor that the adapter may still read belongs to a
packet that waits to be handed back. -/
theorem no_premature_completion {slots depth : Nat} {m₀ m : Machine} (new : m₀.NewTx slots depth)
    (off : m₀.adapter.isOn .txDmaControl = false)
    (planned : Machine.Permitted (Move.Lawful .tx) m₀.agenda)
    (run : ReflTransGen (TxRequest (Move.Lawful .tx)) m₀ m) :
    m.Throughout fun s =>
      ∃ r, s.tx = some r ∧ r.size.slots = slots ∧ TxLedger s.journal r ∧
        (s.adapter.isOn .txDmaControl = true → ∃ sent live, TxSafe s r sent live) := by
  obtain ⟨r, made, tx⟩ := new.made
  obtain ⟨hs, hd, ledger⟩ := TxLedger.create (Journal.pick_of_fresh new.fresh _)
    (Journal.pick_of_fresh new.fresh _) made
  have ready : TxReady (Move.Lawful .tx) r.size depth m₀ := ⟨⟨r, tx, rfl, hd⟩, planned⟩
  have surveyed : Surveyed (.idle, m₀) := fun w q h => absurd h (Option.some_ne_none w).symm
  have kept : TxKept slots depth m₀ := ⟨new.complete, r, tx, hs, hd, ledger⟩
  have guarded : TxGuarded (.idle, m₀) := by
    obtain ⟨size, -, rfl⟩ := TxRing.create_eq_ok made
    have vacuous {P : Prop} (on : m₀.adapter.on .tx = true) : P :=
      absurd (off.symm.trans on) Bool.false_ne_true
    exact ⟨_, 0, [], tx, new.complete, ⟨.nil 0, Nat.zero_le _, .inr rfl,
      fun p hp => absurd hp not_mem_nil, TxPoint.no_walk rfl⟩, .nil _ _ _, trivial, vacuous,
      vacuous⟩
  refine Machine.throughout_of_steps
    (fun c => Surveyed c ∧ TxKept slots depth c.2 ∧ TxGuarded c)
    (fun c c' step h => ⟨step.surveyed c c' h.1, TxKept.step c c' step h.1 h.2.1,
      TxGuarded.step c c' step h.1 h.2.2⟩)
    TxStep.remembers ?_ (steps_of_requests run ready) ⟨surveyed, kept, guarded⟩ new.moments
  rintro ⟨x, k⟩ ⟨surveyed, kept, q, b, ts, guard⟩
  obtain ⟨hqs, -, ledger⟩ := kept.ledger guard.tx
  exact ⟨q, guard.tx, hqs, ledger, guard.safe surveyed⟩

/-- Of two packets in flight the adapter has consumed the first one, which is handed back. -/
theorem no_premature_completion_between :
    ∃ m, ReflTransGen (TxRequest (Move.Lawful .tx)) (.withTx ⟨4, by decide⟩ 2) m ∧
      m.adapter.isOn .txDmaControl = true ∧ m.adapter.ahead .tx = 1 ∧
      m.journal.transmitted.map Packet.cookie = [1] ∧
      m.Throughout fun s =>
        ∃ r, s.tx = some r ∧ r.size.slots = 4 ∧ TxLedger s.journal r ∧
          (s.adapter.isOn .txDmaControl = true → ∃ sent live, TxSafe s r sent live) := by
  let p : Packet := (Packet.single 1 ⟨.ofNat 0x1000, 64⟩).push ⟨.ofNat 0x1100, 64⟩
  let q : Packet := .single 2 ⟨.ofNat 0x2000, 64⟩
  have run : ReflTransGen (TxRequest (Move.Lawful .tx)) (.withTx ⟨4, by decide⟩ 2) _ :=
    ReflTransGen.refl
      |>.tail (.sending (.submit _ p))
      |>.tail (.sending (.submit _ q))
      |>.tail (.start _)
      |>.tail (.advance _ (Upper.abides_silent _))
      |>.tail (.sending (.move _ (Move.lawful_transmit 2)))
      |>.tail (.advance _ (Upper.abides_silent _))
  exact ⟨_, run, by decide, by decide, by decide,
    no_premature_completion (Machine.newTx_withTx ⟨4, by decide⟩ 2) (by decide)
      (fun _ h => absurd h not_mem_nil) run⟩

end DescriptorRings
