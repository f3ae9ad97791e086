import DescriptorRings.Proofs.Device.Law
import DescriptorRings.Proofs.Transmit.Ledger

/-!
# No packet comes back before the adapter is done with it

While the transmit direction is on, the adapter may read every descriptor from its own counter up to
the doorbell, and the memory that the descriptor names.  So the packet of that descriptor must not
have been handed back.  This file proves it of every moment, between two writes of one request as
well as between two requests, for an adapter that keeps the law of `Proofs.Device.Law`.

What is kept is a *guard*.  It has a part that any adapter leaves intact: the posted packets tile
the window of the ring, their descriptors lie in the slots of the window, and during a posting walk
the descriptors written so far lie right behind (`TxSound` and `table`).  The other part is about an
adapter that is switched on (`TxWindow`, `TxAccount`): it is inside the window, and the packets of
the window are just those that were announced and not handed back since the switch.

The order of accesses is what carries the argument from one point to the next.

* Before the direction is switched on, the doorbell is put where the adapter stands.  An adapter
  that finds nothing between its counter and the doorbell does not move, so the two still agree
  then.
* Descriptors are written before the doorbell covers them; `TxPoint.unrung` counts those in between.
* The adapter's counter is read once, before the first packet is handed back.  It can only have
  moved on since, so the reading errs on the safe side.
* A cancelled ring hands everything back, but its direction was switched off before.
-/

namespace DescriptorRings

open Relation List TxRing

/-! ## What a point adds -/

namespace TxPoint

/-- Descriptors that the ring counts as posted and the doorbell does not cover. -/
def unrung : TxPoint → Nat
  | .walked w => w.written
  | _ => 0

/-- Packets that are announced and not yet among the passed ones. -/
def fresh : TxPoint → List TxPost
  | .walking _ done _ => done
  | .writing _ done t _ _ => done ++ [t]
  | _ => []

/-- Packets that are going to be announced. -/
def todo : TxPoint → List TxPost
  | .walking _ _ todo | .writing _ _ _ todo _ => todo
  | _ => []

/-- The descriptors of fresh packets that are written. -/
def laid : TxPoint → List TxDescriptor
  | .walking _ done _ => lay done
  | .writing _ done t _ k => lay done ++ t.packet.descriptors.take k
  | _ => []

/-- At most points no walk is being carried out, and nothing has to be known about it. -/
theorem no_walk {x : TxPoint} {P : Walk → Prop} (h : x.walk? = none) (w : Walk)
    (hw : x.walk? = some w) : P w :=
  absurd (hw.symm.trans h) (Option.some_ne_none w)

/-- What is known at a point because of the accesses that led to it. -/
def Knows (a : Adapter) (r : TxRing) (ts : List TxPost) : TxPoint → Prop
  | .starting c => a.counter .txConsumer = c ∧ ts = []
  | .placed c =>
    a.counter .txConsumer = c ∧ ts = [] ∧ r.producer = c ∧ r.phase = .running
  | .aligned c =>
    a.counter .txConsumer = c ∧ ts = [] ∧ r.producer = c ∧ r.phase = .running ∧
      a.counter .txProducer = c
  | .walked w => r.producer = w.producer
  | .reclaiming n => a.on .tx = true → a.ahead .tx ≤ n
  | .silenced | .draining => a.on .tx = false
  | .idle | .walking _ _ _ | .writing _ _ _ _ _ => True

/-- Of the ring itself only the producer and the phase are known. -/
theorem Knows.congr {x : TxPoint} {a : Adapter} {r r' : TxRing} {ts : List TxPost}
    (h : x.Knows a r ts) (producer : r'.producer = r.producer) (phase : r'.phase = r.phase) :
    x.Knows a r' ts := by
  cases x with
  | idle | walking | writing | starting | silenced | reclaiming | draining => exact h
  | placed c => exact ⟨h.1, h.2.1, producer.trans h.2.2.1, phase.trans h.2.2.2⟩
  | aligned c =>
    exact ⟨h.1, h.2.1, producer.trans h.2.2.1, phase.trans h.2.2.2.1, h.2.2.2.2⟩
  | walked w => exact producer.trans h

end TxPoint

/-! ## The guard -/

/-- The posted packets tile the window of the ring.  While the ring is emptied, the window begins
where the remaining packets do, which the ring itself does not follow. -/
structure TxSound (x : TxPoint) (r : TxRing) (b : Counter) (ts : List TxPost) : Prop where
  /-- The passed packets cover the window. -/
  tiled : Tiled b r.passed ts r.producer
  /-- The window is shorter than the ring. -/
  fits : load ts ≤ r.capacity
  /-- The ring knows where the window begins. -/
  based : x = .draining ∨ b = r.reclaim
  /-- No packet is empty. -/
  some : ∀ p ∈ r.waiting ++ r.intake.toList, 0 < p.fragmentCount
  /-- A walk announces its posts in order. -/
  walk : ∀ w, x.walk? = Option.some w → w.posts = x.fresh ++ x.todo

/-- An adapter that is switched on is inside the window. -/
structure TxWindow (x : TxPoint) (a : Adapter) (r : TxRing) (ts : List TxPost) : Prop where
  /-- The ring is running. -/
  running : r.phase = .running
  /-- The doorbell covers what it was rung for. -/
  producer : r.producer = (a.counter .txProducer).advance x.unrung
  /-- The adapter has not passed the beginning of the window. -/
  within : a.ahead .tx + x.unrung ≤ load ts
  /-- No posted packet is marked. -/
  unmarked : ∀ t ∈ ts, t.packet.ignored = false

/-- The packets announced since the direction was switched on are those handed back as transmitted,
those in the window and the fresh ones. -/
structure TxAccount (x : TxPoint) (j : Journal) (b : Counter) (sent ts : List TxPost) : Prop where
  /-- Nothing else was announced. -/
  posted : j.posted = sent ++ ts ++ x.fresh
  /-- Nothing else was handed back as transmitted. -/
  transmitted : j.transmitted = sent.map TxPost.packet
  /-- The window begins right after what was handed back last. -/
  next : ∀ t, sent.getLast? = some t → t.last.advance 1 = b

/-- The guard: a window that begins at `b` and holds the posts `ts`. -/
structure TxGuard (x : TxPoint) (m : Machine) (r : TxRing) (b : Counter) (ts : List TxPost) :
    Prop where
  /-- The ring in question. -/
  tx : m.tx = some r
  /-- Every event is kept. -/
  complete : m.journal.detail = .complete
  /-- The ring is sound. -/
  sound : TxSound x r b ts
  /-- The descriptors of the window lie in its slots, and the written ones of a walk behind them. -/
  table : Counter.Spread r.size m.adapter.txTable.get? b (lay ts ++ x.laid)
  /-- The point is reached in order. -/
  knows : x.Knows m.adapter r ts
  /-- The adapter is inside the window. -/
  window : m.adapter.on .tx = true → TxWindow x m.adapter r ts
  /-- The journal accounts for the window. -/
  account : m.adapter.on .tx = true → ∃ sent, TxAccount x m.journal b sent ts

variable {x x' : TxPoint} {m m' : Machine} {r r' : TxRing} {b : Counter} {ts : List TxPost}

/-! ## What the ring's own facts come to -/

namespace TxSound

/-- **A walk goes on where the window ends, and what it posts fits behind it.** -/
theorem postingWalk (h : TxSound x r b ts) (based : b = r.reclaim) :
    Tiled r.producer r.postingWalk.passed r.postingWalk.posts r.postingWalk.producer ∧
      load ts + load r.postingWalk.posts ≤ r.capacity ∧
      (∀ t ∈ r.postingWalk.posts, t.packet.ignored = false) ∧
      ∀ p ∈ r.postingWalk.waiting, p ∈ r.waiting := by
  have producer : r.producer = r.reclaim.advance (load ts) := by
    rw [h.tiled.eq_advance_load, based]
  have walk := tiled_walk r.size r.reclaim r.waiting
    (fun p hp => h.some p (mem_append_left _ hp)) h.fits
  rw [← producer] at walk
  exact walk

/-- A window is never as long as the counters run. -/
theorem load_lt_span (h : TxSound x r b ts) : load ts < Counter.span := by
  have := h.fits
  have := r.size.capacity_lt
  have := r.size.slots_le
  unfold capacity at *
  unfold Counter.span
  omega

theorem eq_nil_of_inFlight (h : TxSound x r b ts) (based : b = r.reclaim)
    (clear : r.inFlight = 0) : ts = [] := by
  have tiled := h.tiled
  rw [based] at tiled
  exact tiled.eq_nil_of_load ((inFlight_eq_load tiled h.fits).symm.trans clear)

end TxSound

namespace TxWindow

/-- The end of the window, as the adapter sees it. -/
theorem producer_eq {a : Adapter} (h : TxWindow x a r ts) :
    r.producer = (a.counter .txConsumer).advance (a.ahead .tx + x.unrung) := by
  rw [h.producer, ← Counter.advance_advance]
  exact congrArg (Counter.advance · _) (Counter.advance_past _ _).symm

/-- An adapter in an empty window stands at the doorbell. -/
theorem consumer_eq {a : Adapter} (h : TxWindow x a r []) :
    a.counter .txConsumer = r.producer := by
  have none : a.ahead .tx + x.unrung = 0 := Nat.le_zero.mp h.within
  have producer := h.producer_eq
  rw [none, Counter.advance_zero] at producer
  exact producer.symm

end TxWindow

/-! ## Steps that leave the window alone -/

/-- An event that the account does not look at. -/
structure Event.Quiet (e : Event) : Prop where
  /-- The direction is not switched. -/
  mark : e.isTxSwitch = false
  /-- No packet is announced. -/
  posting : e.posting? = none
  /-- No packet is handed back as transmitted. -/
  transmitted : e.transmitted? = none

theorem Event.quiet_of_isAside {e : Event} (aside : e.isAside = true) : e.Quiet := by
  cases e with
  | wrote reg =>
    cases reg <;> first | exact ⟨rfl, rfl, rfl⟩ | exact absurd aside Bool.false_ne_true
  | _ => first | exact ⟨rfl, rfl, rfl⟩ | exact absurd aside Bool.false_ne_true

theorem TxAccount.entered {j : Journal} {sent : List TxPost} (h : TxAccount x j b sent ts)
    (complete : j.detail = .complete) {e : Event} (quiet : e.Quiet) :
    TxAccount x (j.add e) b sent ts := by
  refine ⟨?_, ?_, h.next⟩
  · rw [Journal.posted, Journal.latest_add_of_none complete quiet.mark quiet.posting]
    exact h.posted
  · rw [Journal.transmitted, Journal.latest_add_of_none complete quiet.mark quiet.transmitted]
    exact h.transmitted

/-- A packet at the front of the window is handed back as transmitted. -/
theorem TxAccount.settled {j : Journal} {sent : List TxPost} {t : TxPost}
    (h : TxAccount x j b sent (t :: ts)) (complete : j.detail = .complete)
    (unmarked : t.packet.ignored = false) :
    TxAccount x (j.add (.completed t.packet)) (t.last.advance 1) (sent ++ [t]) ts := by
  have posted : (j.add (.completed t.packet)).posted = j.posted :=
    Journal.latest_add_of_none complete rfl rfl
  have transmitted : (j.add (.completed t.packet)).transmitted = j.transmitted ++ [t.packet] := by
    have picked : (Event.completed t.packet).transmitted? = some t.packet := by
      rw [Event.transmitted?, unmarked]
      rfl
    rw [Journal.transmitted, Journal.latest_add complete _ rfl, picked]
    rfl
  refine ⟨posted.trans ?_, transmitted.trans ?_, fun t' ht => ?_⟩
  · rw [h.posted]
    exact congrArg (· ++ _) (append_cons sent t ts)
  · rw [h.transmitted, map_append]
    rfl
  · rw [getLast?_concat] at ht
    obtain rfl := Option.some.inj ht
    rfl

namespace TxGuard

/-- In an empty window the law allows the adapter nothing. -/
theorem allowance_eq_zero (h : TxGuard x m r b []) : m.adapter.allowance .tx = 0 := by
  unfold Adapter.allowance
  split
  · rename_i on
    have within := (h.window on).within
    rw [load_nil] at within
    omega
  · rfl

/-- The adapter makes a lawful move, and what happens besides is no concern of the account. -/
theorem keep (h : TxGuard x m r b ts) (follows : m.adapter.Follows .tx m'.adapter)
    (table : m'.adapter.txTable = m.adapter.txTable) (tx : m'.tx = m.tx)
    (complete : m'.journal.detail = .complete)
    (account : ∀ sent, TxAccount x m.journal b sent ts → TxAccount x m'.journal b sent ts) :
    TxGuard x m' r b ts where
  tx := tx.trans h.tx
  complete := complete
  sound := h.sound
  table := by rw [table]; exact h.table
  knows := by
    have knows := h.knows
    cases x with
    | idle | walking | writing => trivial
    | walked w => exact knows
    | starting c =>
      obtain ⟨hc, rfl⟩ := knows
      exact ⟨(follows.consumer_eq h.allowance_eq_zero).trans hc, rfl⟩
    | placed c =>
      obtain ⟨hc, rfl, rest⟩ := knows
      exact ⟨(follows.consumer_eq h.allowance_eq_zero).trans hc, rfl, rest⟩
    | aligned c =>
      obtain ⟨hc, rfl, hp, running, hd⟩ := knows
      exact ⟨(follows.consumer_eq h.allowance_eq_zero).trans hc, rfl, hp, running,
        follows.producer_eq.trans hd⟩
    | reclaiming n => exact fun on => Nat.le_trans follows.ahead_le (knows (follows.on_eq ▸ on))
    | silenced | draining => exact follows.on_eq.trans knows
  window on := by
    have window := h.window (follows.on_eq ▸ on)
    refine ⟨window.running, ?_, ?_, window.unmarked⟩
    · exact window.producer.trans (congrArg (Counter.advance · _) follows.producer_eq.symm)
    · exact Nat.le_trans (Nat.add_le_add_right follows.ahead_le _) window.within
  account on := by
    obtain ⟨sent, sums⟩ := h.account (follows.on_eq ▸ on)
    exact ⟨sent, account sent sums⟩

/-- **The adapter makes a lawful move**, or something is entered in the journal. -/
theorem follow (h : TxGuard x m r b ts) (follows : m.adapter.Follows .tx m'.adapter)
    (table : m'.adapter.txTable = m.adapter.txTable) (tx : m'.tx = m.tx) {e : Event}
    (journal : m'.journal = m.journal.add e) (quiet : e.Quiet) : TxGuard x m' r b ts := by
  refine h.keep follows table tx ?_ fun sent account => ?_
  · rw [journal, Journal.detail_add]
    exact h.complete
  · rw [journal]
    exact account.entered h.complete quiet

theorem apart (h : TxGuard x m r b ts) (apart : TxApart m m') : TxGuard x m' r b ts := by
  refine h.keep apart.registers.follows apart.table apart.tx ?_ fun sent account => ?_
  · rw [apart.journal]
    exact h.complete
  · rw [apart.journal]
    exact account

theorem enter (h : TxGuard x m r b ts) {e : Event} (quiet : e.Quiet) :
    TxGuard x (m.record e) r b ts := by
  refine h.follow ?_ ?_ (Machine.tx_record _ _) (Machine.journal_record _ _) quiet
  · rw [Machine.toScene_record]
    exact .refl _ _
  · rw [Machine.toScene_record]

/-- The request goes on to a point that adds the same. -/
theorem goto (h : TxGuard x m r b ts) (based : b = r.reclaim) (unrung : x'.unrung = x.unrung)
    (fresh : x'.fresh = x.fresh) (laid : x'.laid = x.laid)
    (walk : ∀ w, x'.walk? = some w → w.posts = x'.fresh ++ x'.todo)
    (knows : x'.Knows m.adapter r ts) : TxGuard x' m r b ts where
  tx := h.tx
  complete := h.complete
  sound := ⟨h.sound.tiled, h.sound.fits, .inr based, h.sound.some, walk⟩
  table := by rw [laid]; exact h.table
  knows := knows
  window on := by
    have window := h.window on
    refine ⟨window.running, ?_, ?_, window.unmarked⟩
    · rw [unrung]
      exact window.producer
    · rw [unrung]
      exact window.within
  account on := by
    obtain ⟨sent, account⟩ := h.account on
    refine ⟨sent, ?_, account.transmitted, account.next⟩
    rw [fresh]
    exact account.posted

/-- The ring changes in something that the guard does not look at. -/
theorem adjust (h : TxGuard x m r b ts) (size : r'.size = r.size) (passed : r'.passed = r.passed)
    (producer : r'.producer = r.producer) (reclaim : r'.reclaim = r.reclaim)
    (phase : r'.phase = r.phase)
    (some : ∀ p ∈ r'.waiting ++ r'.intake.toList, 0 < p.fragmentCount) :
    TxGuard x (m.setTx r') r' b ts where
  tx := rfl
  complete := h.complete
  sound := by
    refine ⟨?_, ?_, ?_, some, h.sound.walk⟩
    · rw [passed, producer]
      exact h.sound.tiled
    · rw [capacity, size]
      exact h.sound.fits
    · rw [reclaim]
      exact h.sound.based
  table := by rw [size]; exact h.table
  knows := h.knows.congr producer phase
  window on := by
    have window := h.window on
    refine ⟨phase.trans window.running, ?_, window.within, window.unmarked⟩
    rw [producer]
    exact window.producer
  account := h.account

/-- **The doorbell is rung** for all that the ring counts as posted. -/
theorem doorbell (h : TxGuard x m r b ts) {p : Counter} (based : b = r.reclaim)
    (fresh : x'.fresh = x.fresh) (laid : x'.laid = x.laid)
    (walk : ∀ w, x'.walk? = some w → w.posts = x'.fresh ++ x'.todo)
    (knows : x'.Knows (m.adapter.write .txProducer p.toUInt32) r ts) (rung : x'.unrung = 0)
    (producer : r.producer = p) : TxGuard x' (m.poke .txProducer p.toUInt32) r b ts where
  tx := (Machine.tx_record _ _).trans h.tx
  complete := by
    rw [Machine.poke, Machine.journal_record, Journal.detail_add]
    exact h.complete
  sound := ⟨h.sound.tiled, h.sound.fits, .inr based, h.sound.some, walk⟩
  table := by
    rw [Machine.toScene_poke, Adapter.txTable_write, laid]
    exact h.table
  knows := by
    rw [Machine.toScene_poke]
    exact knows
  window on := by
    rw [Machine.toScene_poke] at on ⊢
    have on' : m.adapter.on .tx = true :=
      (Adapter.isOn_write_of_ne _ (by decide) (by decide) _).symm.trans on
    have window := h.window on'
    have doorbell : (m.adapter.write .txProducer p.toUInt32).counter .txProducer = p :=
      Adapter.counter_write_self _ _ _
    have span : m.adapter.ahead .tx + x.unrung < Counter.span :=
      Nat.lt_of_le_of_lt window.within h.sound.load_lt_span
    refine ⟨window.running, ?_, ?_, window.unmarked⟩
    · rw [doorbell, rung, Counter.advance_zero]
      exact producer
    · have ahead : (m.adapter.write .txProducer p.toUInt32).ahead .tx =
          m.adapter.ahead .tx + x.unrung := by
        refine (Adapter.ahead_write_producer (l := .tx) (by decide) (by decide) _ p).trans ?_
        rw [← producer, window.producer_eq]
        exact Counter.past_advance _ span
      rw [ahead, rung]
      exact window.within
  account on := by
    rw [Machine.toScene_poke] at on ⊢
    have on' : m.adapter.on .tx = true :=
      (Adapter.isOn_write_of_ne _ (by decide) (by decide) _).symm.trans on
    obtain ⟨sent, account⟩ := h.account on'
    have entered := account.entered h.complete (e := .wrote .txProducer p.toUInt32) ⟨rfl, rfl, rfl⟩
    refine ⟨sent, ?_, entered.transmitted, entered.next⟩
    rw [fresh]
    exact entered.posted

end TxGuard

end DescriptorRings
