import DescriptorRings.Proofs.Receive.Dealings
import DescriptorRings.Proofs.Receive.Ownership

/-!
# Filling a receive ring up

A receive ring that is served is filled up after each completion, and once more at the end.  Meanwhile
the upper layer gives buffers back, at any point and as many as it likes.  What comes of all that is
simple (`RxRefilled`): when the service returns, every usable slot has a buffer, or no buffer is free.
So whatever was given back is posted by the next service, as far as there are slots for it.

The slots are filled in the order of the counter.  A slot is filled again only when its completion was
read: between the oldest completion that is not read yet and the slot that is filled there are fewer
buffers than slots (`RxCourse.refills`).  The doorbell is rung once, behind the last descriptor, and
not at all if nothing was posted.  Hence between two requests the doorbell register of a running ring
says how far the ring is filled (`RxRung`), if nobody else writes it.

The deeds of a service are known (`RxWatch.serving`).  Here each of them is put where it stands in the
course of all: what was posted and taken in before says which slot it is about.
-/

namespace DescriptorRings

open Relation List

/-! ## The doorbell in the journal -/

namespace Event

/-- The value with which the doorbell of the receive ring was rung. -/
def bell? : Event → Option UInt32
  | .wrote .rxProducer v => some v
  | _ => none

theorem bell?_wrote_of_ne {reg : Register} (other : reg ≠ .rxProducer) (v : UInt32) :
    (wrote reg v).bell? = none := by
  cases reg <;> first | rfl | exact absurd rfl other

theorem bell?_of_not_own {e : Event} (h : e.isRxOwn = false) : e.bell? = none := by
  cases e with
  | wrote reg v =>
    refine bell?_wrote_of_ne (fun same => ?_) v
    subst same
    exact absurd h.symm Bool.false_ne_true
  | _ => rfl

theorem bell?_of_isNote {e : Event} (h : e.isNote = true) : e.bell? = none := by
  cases e <;> first | rfl | exact absurd h Bool.false_ne_true

end Event

namespace Machine

/-- Some events were entered, and the doorbell register holds what was written last. -/
structure Rings (m m' : Machine) : Prop where
  /-- The level of detail stays. -/
  detail : m'.journal.detail = m.journal.detail
  /-- What was entered, and what the register holds. -/
  events : m.journal.detail = .complete →
    ∃ es, m'.journal.events.toList = m.journal.events.toList ++ es ∧
      m'.adapter.read .rxProducer =
        (es.filterMap Event.bell?).getLast?.getD (m.adapter.read .rxProducer)

namespace Rings

variable {m m' m'' : Machine}

theorem of_eq (journal : m'.journal = m.journal) (adapter : m'.adapter = m.adapter) :
    Rings m m' :=
  ⟨by rw [journal], fun _ => ⟨[], by rw [journal, append_nil], by rw [adapter]; rfl⟩⟩

theorem trans (h : Rings m m') (h' : Rings m' m'') : Rings m m'' := by
  refine ⟨h'.detail.trans h.detail, fun complete => ?_⟩
  obtain ⟨es, hes, holds⟩ := h.events complete
  obtain ⟨es', hes', holds'⟩ := h'.events (h.detail.trans complete)
  refine ⟨es ++ es', by rw [hes', hes, append_assoc], ?_⟩
  rw [holds', holds, filterMap_append, getLast?_append]
  cases (es'.filterMap Event.bell?).getLast? <;> rfl

/-- One event was entered, with what is done to the register. -/
theorem of_add {e : Event} (journal : m'.journal = m.journal.add e)
    (register : m'.adapter.read .rxProducer = e.bell?.getD (m.adapter.read .rxProducer)) :
    Rings m m' := by
  refine ⟨by rw [journal, Journal.detail_add], fun complete => ⟨[e], ?_, ?_⟩⟩
  · rw [journal, Journal.toList_events_add complete]
  · rw [register]
    cases here : e.bell? with
    | none => rw [filterMap_cons_none here]; rfl
    | some v => rw [filterMap_cons_some here]; rfl

/-- An event that is no ringing leaves the register alone. -/
theorem record (m : Machine) {e : Event} (silent : e.bell? = none) : Rings m (m.record e) := by
  refine of_add (m.journal_record e) ?_
  rw [adapter_record, silent]
  rfl

end Rings

end Machine

/-- **The doorbell register holds what the driver wrote last**, unless the adapter writes it. -/
theorem RxChange.rings {T : RxTerms} {switches : Prop} {g : Hands} {m m' : Machine} {r : RxRing}
    {p : BufferPool} {bs : List BufferId} {t t' : Taking}
    (spares : ∀ mv, T.permits mv → mv.Spares .rxProducer)
    (change : RxChange T switches g m r p bs t t' m') : m.Rings m' := by
  have elsewhere {reg : Register} (other : reg ≠ .rxProducer) (v : UInt32) :
      m.Rings (m.poke reg v) := by
    refine .of_add (by rw [Machine.toScene_poke]) ?_
    rw [Machine.toScene_poke, Event.bell?_wrote_of_ne other v]
    exact m.adapter.read_write_elsewhere other.symm (by decide) v
  cases change with
  | @move _ mv permitted =>
    refine .of_add (m.journal_move mv) ?_
    rw [Machine.toScene_move]
    exact spares mv permitted m.adapter
  | note _ quiet => exact .record m (Event.bell?_of_isNote quiet)
  | reply | take | deliver => exact .record m rfl
  | @write _ reg v other =>
    refine elsewhere ?_ v
    rintro rfl
    exact other mem_cons_self
  | switch _ v => exact elsewhere (by decide) v
  | ring _ v =>
    refine .of_add (by rw [Machine.toScene_poke]) ?_
    rw [Machine.toScene_poke]
    exact Adapter.read_write_self _ _ _
  | writeTx _ slot d =>
    exact .of_add (by rw [Machine.toScene_pokeTx]) (by rw [Machine.toScene_pokeTx]; rfl)
  | describe b capacity =>
    exact .of_add (by rw [Machine.toScene_pokeRx]) (by rw [Machine.toScene_pokeRx]; rfl)
  | post | clear | resync | pass | reject | settle | hold => exact .of_eq rfl rfl
  | aside _ aside => exact .of_eq aside.journal aside.adapter

/-- So it is all along a run. -/
theorem RxAt.rings {T : RxTerms} {switches : Prop} {m m' : Machine} {x : RxStage} {g : Hands}
    (h : RxAt (T.track switches m) x g m') (spares : ∀ mv, T.permits mv → mv.Spares .rxProducer) :
    m.Rings m' := by
  refine Machine.inv_of_steps (fun c => m.Rings c.2) (fun c c' step before => ?_) h.run
    (.of_eq rfl rfl)
  obtain ⟨-, -, change⟩ := step
  exact before.trans (change.rings spares)

/-! ## Deeds in their places -/

namespace RxDeed

variable {ds : List RxDeed}

/-- How many slots are passed. -/
def taken (ds : List RxDeed) : Nat := (ds.filterMap frame?).length + ds.countP isLoss

/-- A service does not put the ring elsewhere, and takes nothing back without a completion. -/
theorem stays_of_serves (serves : ∀ d ∈ ds, d.serves = true) :
    ds.countP isResync = 0 ∧ (ds.map cleared).sum = 0 := by
  induction ds with
  | nil => exact ⟨rfl, rfl⟩
  | cons d ds ih =>
    obtain ⟨put, back⟩ := ih fun d' hd' => serves d' (mem_cons_of_mem d hd')
    have here := serves d mem_cons_self
    rw [countP_cons, map_cons, sum_cons, put, back]
    cases d <;> first | exact ⟨rfl, rfl⟩ | exact absurd here Bool.false_ne_true

/-- Nor does it ring before all is posted. -/
theorem silent_of_serves (serves : ∀ d ∈ ds, d.serves = true) :
    (ds.flatMap events).filterMap Event.bell? = [] := by
  induction ds with
  | nil => rfl
  | cons d ds ih =>
    have here := serves d mem_cons_self
    rw [flatMap_cons, filterMap_append, ih fun d' hd' => serves d' (mem_cons_of_mem d hd')]
    cases d <;> first | rfl | exact absurd here Bool.false_ne_true

/-- The doorbell is rung for all that was posted, if anything was. -/
def bells (posts : Nat) (c : Counter) : List RxDeed := if posts = 0 then [] else [.ring c]

theorem events_bells (posts : Nat) (c : Counter) :
    (bells posts c).flatMap events = if posts = 0 then [] else [.wrote .rxProducer c.toUInt32] := by
  unfold bells
  split <;> rfl

theorem countP_isPost_bells (posts : Nat) (c : Counter) : (bells posts c).countP isPost = 0 := by
  unfold bells
  split <;> rfl

/-- Whatever stands in front of a buffer that is posted belongs to the service before the doorbell. -/
theorem serves_before (serves : ∀ d ∈ ds, d.serves = true) {posts slot : Nat} {c : Counter}
    {ds₁ ds₂ : List RxDeed} {b : BufferId} {address : BusAddress} {capacity : UInt32}
    (split : ds ++ bells posts c = ds₁ ++ .post slot b address capacity :: ds₂) :
    ∀ d ∈ ds₁, d.serves = true := by
  rcases append_eq_append_iff.mp split with ⟨rest, -, later⟩ | ⟨rest, here, -⟩
  · have none := countP_isPost_bells posts c
    rw [later, countP_append, countP_cons_of_pos rfl] at none
    omega
  · exact fun d hd => serves d (here ▸ mem_append_left rest hd)

/-- **A descriptor that was written** belongs to one deed, and the events in front of it to the deeds
in front of that. -/
theorem exists_post {before after : List Event} {slot : Nat} {address : BusAddress}
    {capacity : UInt32}
    (h : ds.flatMap events = before ++ .wroteRx slot address capacity :: after) :
    ∃ ds₁ b ds₂, ds = ds₁ ++ .post slot b address capacity :: ds₂ ∧ ds₁.flatMap events = before := by
  induction ds generalizing before with
  | nil => exact absurd (congrArg length h) (by simp)
  | cons d ds ih =>
    rw [flatMap_cons] at h
    -- the event lies among those of the first deed, or behind them
    rcases append_eq_append_iff.mp h with ⟨rest, rfl, later⟩ | ⟨rest, here, later⟩
    · obtain ⟨ds₁, b, ds₂, rfl, same⟩ := ih later
      exact ⟨d :: ds₁, b, ds₂, rfl, by rw [flatMap_cons, same]⟩
    · cases rest with
      | nil =>
        rw [append_nil] at here
        have later : ds.flatMap events = [] ++ .wroteRx slot address capacity :: after := later.symm
        obtain ⟨ds₁, b, ds₂, rfl, same⟩ := ih later
        exact ⟨d :: ds₁, b, ds₂, rfl, by rw [flatMap_cons, same, append_nil, here]⟩
      | cons e rest =>
        obtain ⟨rfl, -⟩ := cons.inj later
        have mine : Event.wroteRx slot address capacity ∈ d.events := by
          rw [here]
          exact mem_append_right _ mem_cons_self
        cases d with
        | post slot' b address' capacity' =>
          obtain ⟨rfl, rfl, rfl⟩ := Event.wroteRx.inj (mem_singleton.mp mine)
          have alone := congrArg length here
          rw [length_append, length_cons] at alone
          have front : before.length = 0 := by
            have one : (post slot b address capacity).events.length = 1 := rfl
            omega
          exact ⟨[], b, ds, rfl, (length_eq_zero_iff.mp front).symm⟩
        | _ => simp [events] at mine

end RxDeed

namespace RxCourse

variable {Q : Event → Prop} {home : BufferPool} {place : Nat} {m m' : Machine} {d : RxDeed}
  {ds ds' es : List RxDeed} {r : RxRing} {bs : List BufferId}

/-- **Before each deed** there is a course of those in front of it, and it was possible there. -/
theorem exists_before (h : RxCourse Q home place es m m') (split : es = ds ++ d :: ds') :
    ∃ k q qs p p', RxCourse Q home place ds m k ∧ k.rx = some q ∧ q.Holds qs ∧
      d.Fits q qs p p' ∧ RxCourse Q home place (d :: ds') k m' := by
  induction h generalizing ds' with
  | refl => exact absurd (congrArg length split) (by simp)
  | rest _ rests ih =>
    obtain ⟨k, q, qs, p, p', before, rx, holds, fits, after⟩ := ih split
    exact ⟨k, q, qs, p, p', before, rx, holds, fits, after.rest rests⟩
  | @deed ds₁ d₁ m k₁ m' course done ih =>
    rcases eq_nil_or_concat ds' with rfl | ⟨later, last, rfl⟩
    · obtain ⟨rfl, same⟩ := append_inj' split rfl
      obtain rfl := singleton_inj.mp same
      obtain ⟨q, qs, p, p', rx, holds, -, -, fits, -⟩ := done.done
      exact ⟨k₁, q, qs, p, p', course, rx, holds, fits, .of_done done⟩
    · rw [concat_eq_append, ← cons_append, ← append_assoc] at split
      obtain ⟨rfl, same⟩ := append_inj' split rfl
      obtain rfl := singleton_inj.mp same
      obtain ⟨k, q, qs, p, p', before, rx, holds, fits, after⟩ := ih rfl
      refine ⟨k, q, qs, p, p', before, rx, holds, fits, ?_⟩
      rw [concat_eq_append, ← cons_append]
      exact after.deed done

/-- What becomes of the ring is what the deeds make of it. -/
theorem applied (h : RxCourse Q home place ds m m') (rx : m.rx = some r) :
    m'.rx = some (ds.foldl RxDeed.apply r) := by
  induction h with
  | refl => exact rx
  | rest _ rests ih => exact rests.rx.trans (ih rx)
  | deed _ done ih =>
    obtain ⟨q, _, _, _, rx', -, -, -, -, rx'', -⟩ := done.done
    obtain rfl := Option.some.inj (rx'.symm.trans (ih rx))
    rw [foldl_append]
    exact rx''

/-- **How far both counters of a ring move** in a service. -/
theorem counters (h : RxCourse Q home place ds m m') (serves : ∀ d ∈ ds, d.serves = true)
    (rx : m.rx = some r) (holds : r.Holds bs) {r' : RxRing} (rx' : m'.rx = some r')
    {bs' : List BufferId} (holds' : r'.Holds bs') :
    r'.size = r.size ∧ r'.consumer = r.consumer.advance (RxDeed.taken ds) ∧
      r'.producer = r.producer.advance (ds.countP RxDeed.isPost) ∧
      bs'.length + RxDeed.taken ds = bs.length + ds.countP RxDeed.isPost := by
  obtain ⟨put, back⟩ := RxDeed.stays_of_serves serves
  obtain ⟨q, qs, rx'', held, accounts, -, size, -⟩ := h.accounts rx holds
  obtain rfl := Option.some.inj (rx''.symm.trans rx')
  have same : qs.length = bs'.length := held.posted_eq.symm.trans holds'.posted_eq
  have posted := accounts.posted
  rw [back, same] at posted
  have consumer := accounts.consumer put
  have total : bs'.length + RxDeed.taken ds = bs.length + ds.countP RxDeed.isPost := by
    rw [RxDeed.taken]
    omega
  refine ⟨size, consumer, ?_, total⟩
  rw [holds'.producer, consumer, holds.producer, Counter.advance_advance, Counter.advance_advance,
    ← total]
  exact congrArg _ (Nat.add_comm _ _)

/-- **Which slot a buffer is written into**: the next one in the order of the counter, and none whose
completion is still to be read. -/
theorem refills (h : RxCourse Q home place es m m') (serves : ∀ d ∈ ds, d.serves = true)
    (rx : m.rx = some r) (holds : r.Holds bs) {slot : Nat} {b : BufferId} {address : BusAddress}
    {capacity : UInt32} (split : es = ds ++ .post slot b address capacity :: ds') :
    slot = (r.producer.advance (ds.countP RxDeed.isPost)).slot r.size.slots ∧
      ∀ i, RxDeed.taken ds ≤ i → i < r.posted + ds.countP RxDeed.isPost →
        slot ≠ (r.consumer.advance i).slot r.size.slots := by
  obtain ⟨k, q, qs, p, p', before, rx', holds', fits, -⟩ := h.exists_before split
  obtain ⟨size, consumer, producer, total⟩ :=
    before.counters serves rx holds rx' holds'
  have tail : slot = q.tailSlot := by
    cases fits
    rfl
  have here : slot = (r.producer.advance (ds.countP RxDeed.isPost)).slot r.size.slots := by
    rw [tail, RxRing.tailSlot, producer, size]
  refine ⟨here, fun i passed unread same => ?_⟩
  rw [holds.posted_eq] at unread
  have inside : i - RxDeed.taken ds < qs.length := by omega
  have at_tail : slot = (q.consumer.advance qs.length).slot q.size.slots := by
    rw [tail, RxRing.tailSlot, holds'.producer]
  have at_i : (r.consumer.advance i).slot r.size.slots =
      (q.consumer.advance (i - RxDeed.taken ds)).slot q.size.slots := by
    rw [consumer, Counter.advance_advance, Nat.add_sub_cancel' passed, size]
  have short := holds'.length_lt
  have equal := Counter.slot_advance_inj q.consumer q.size short (by omega)
    ((at_tail.symm.trans same).trans at_i)
  omega

end RxCourse

/-! ## One service -/

/-- **What a service of a running ring `r` comes to.**  Afterwards it is `r'`, over a pool `p'`, and
some events were entered. -/
structure RxRefilled (place : Nat) (m : Machine) (u : Upper) (r r' : RxRing) (p' : BufferPool)
    (es : List Event) : Prop where
  /-- The ring afterwards. -/
  after : (m.advanceRx u).machine.rx = some r'
  /-- The pool afterwards. -/
  pool : (m.advanceRx u).machine.poolAt? place = some p'
  /-- These are the events. -/
  events : (m.advanceRx u).machine.journal.events.toList = m.journal.events.toList ++ es
  /-- Every usable slot has a buffer, or no buffer is free. -/
  full : r'.posted = r.capacity ∨ p'.available = 0
  /-- As many are posted as the upper layer has left, up to the number of slots. -/
  posted : r'.posted = min r.capacity (p'.capacity - p'.tally.delivered)
  /-- The slots are filled in the order of the counter, and none before its completion was read. -/
  slots : ∀ before slot address capacity after,
    es = before ++ .wroteRx slot address capacity :: after →
      slot = (r.producer.advance (before.countP Event.isRxPost)).slot r.size.slots ∧
        ∀ i, (before.filterMap Event.taken?).length ≤ i →
          i < r.posted + before.countP Event.isRxPost →
            slot ≠ (r.consumer.advance i).slot r.size.slots
  /-- The counter moves on by what was posted. -/
  producer : r'.producer = r.producer.advance (es.countP Event.isRxPost)
  /-- The doorbell is rung once, for all that was posted, or not at all. -/
  bell : es.filterMap Event.bell? =
    if es.countP Event.isRxPost = 0 then [] else [r'.producer.toUInt32]
  /-- After that nothing is posted. -/
  last : ∀ before v after, es = before ++ .wrote .rxProducer v :: after →
    after.countP Event.isRxPost = 0

/-- The one ringing of a doorbell is the last event of those of the ring. -/
theorem Event.nil_of_bell {work bell before after : List Event} {v : UInt32}
    (split : work ++ bell = before ++ .wrote .rxProducer v :: after)
    (silent : work.filterMap Event.bell? = []) (once : bell.length ≤ 1) : after = [] := by
  rcases append_eq_append_iff.mp split with ⟨rest, -, here⟩ | ⟨rest, here, later⟩
  · rw [here, length_append, length_cons] at once
    exact length_eq_zero_iff.mp (by omega)
  · cases rest with
    | nil =>
      rw [nil_append] at later
      rw [← later, length_cons] at once
      exact length_eq_zero_iff.mp (by omega)
    | cons e rest =>
      obtain ⟨rfl, -⟩ := cons.inj later
      have none := filterMap_eq_nil_iff.mp silent (.wrote .rxProducer v)
        (here ▸ mem_append_right _ mem_cons_self)
      exact absurd none (Option.some_ne_none v)

namespace RxWatch

variable {Q : Event → Prop} {home : BufferPool} {T : RxTrack} {Act : Machine → Machine → Prop}
  {m : Machine} {n : Nat} {r : RxRing}

/-- The doorbell is rung for all that is posted by then, or not at all. -/
theorem rung (w : RxWatch Q home T Act) {k : Machine} {g : Hands} (h : RxAt T .plain g k)
    (rx : k.rx = some r) (filled : Nat) :
    RxCourse Q home T.place (RxDeed.bells filled r.producer) k (k.ringRx filled) := by
  unfold Machine.ringRx RxDeed.bells
  split
  · exact .refl k
  · obtain ⟨c, done⟩ := w.ring h
    obtain ⟨q, _, _, _, rx', -, -, -, fits, -⟩ := done.done
    obtain rfl := Option.some.inj (rx'.symm.trans rx)
    cases fits
    exact .of_done done

/-- **A service** takes completions in and fills the ring up, and then the doorbell is rung if buffers
were posted. -/
theorem serviced (w : RxWatch Q home T Act) (h : RxAt T .plain { filled := n } m) {u : Upper}
    (bound : u.Abides Act) (rx : m.rx = some r) (running : r.phase = .running) :
    ∃ ds r' n',
      RxCourse Q home T.place (ds ++ RxDeed.bells (ds.countP RxDeed.isPost) r'.producer) m
        (m.advanceRx u).machine ∧
      (∀ d ∈ ds, d.serves = true) ∧ RxAt T .plain { filled := n' } (m.advanceRx u).machine ∧
      (m.advanceRx u).machine.rx = some r' ∧
      r'.producer = r.producer.advance (ds.countP RxDeed.isPost) ∧
      (n' = T.size.capacity ∨
        ∃ p, (m.advanceRx u).machine.poolAt? T.place = some p ∧ p.free = []) := by
  obtain ⟨q, p, bs, guard⟩ := h.guarded
  obtain rfl : q = r := Option.some.inj (guard.rx.symm.trans rx)
  obtain ⟨s, ds, lost, n', course, work, serves, -, served, ends, answer⟩ := w.serving h bound rx
  obtain ⟨r', p', bs', guard'⟩ := served.guarded
  set notice : Notice := .rxServed (q.ready m.rxReading) s.served.count s.filled
  have result : (m.advanceRx u).machine =
      (s.served.machine.ringRx s.filled).giveIf (q.ready m.rxReading != 0) notice := by
    have one : m.advanceRx u = m.serveRx u T.place := by
      unfold Machine.advanceRx
      rw [rx]
      dsimp only
      rw [running, guard.place]
    rw [one, answer]
    rfl
  have ringing := w.rung served guard'.rx s.filled
  have noted := RxRests.giveIf w.tame (s.served.machine.ringRx s.filled)
    (q.ready m.rxReading != 0) (n := notice) rfl
  obtain ⟨-, -, producer, -⟩ := course.counters serves rx guard.holds guard'.rx guard'.holds
  rw [result]
  refine ⟨ds, r', n', ?_, serves, served.ringRx.giveIf _ _, noted.rx.trans ?_, producer,
    ends.imp_right fun ⟨p, pool, free⟩ => ⟨p, ?_, free⟩⟩
  · rw [work.posted]
    exact (course.trans ringing).rest noted
  · refine (ringing.applied guard'.rx).trans ?_
    unfold RxDeed.bells
    split <;> rfl
  · have rung : (s.served.machine.ringRx s.filled).poolAt? T.place = some p := by
      unfold Machine.ringRx
      split
      · exact pool
      · exact (Machine.poolAt?_write _ _ _ _).trans pool
    unfold Machine.giveIf
    split
    · exact (Machine.poolAt?_give _ _ _).trans rung
    · exact rung

/-- **A service fills the ring up**, and rings once. -/
theorem refilled (w : RxWatch Q home T Act) (h : RxAt T .plain { filled := n } m) {u : Upper}
    (bound : u.Abides Act) (rx : m.rx = some r) (running : r.phase = .running) :
    ∃ r' p' es, RxRefilled T.place m u r r' p' es := by
  obtain ⟨q, p, bs, guard⟩ := h.guarded
  obtain rfl : q = r := Option.some.inj (guard.rx.symm.trans rx)
  obtain ⟨ds, r', n', course, serves, served, rx', producer, ends⟩ := w.serviced h bound rx running
  obtain ⟨q', p', bs', guard'⟩ := served.guarded
  obtain rfl : q' = r' := Option.some.inj (guard'.rx.symm.trans rx')
  -- the events of the ring are those of the deeds
  obtain ⟨es, events, -, own⟩ := course.tells.events guard.complete
  have silent := RxDeed.silent_of_serves serves
  have posts : es.countP Event.isRxPost = ds.countP RxDeed.isPost := by
    rw [Machine.Tells.countP_eq (fun _ => Event.isRxPost_of_not_own), own, RxDeed.countP_isRxPost,
      countP_append, RxDeed.countP_isPost_bells, Nat.add_zero]
  have front {before after : List Event} (split : es = before ++ after) :
      (ds ++ RxDeed.bells (ds.countP RxDeed.isPost) q'.producer).flatMap RxDeed.events =
        before.filter Event.isRxOwn ++ after.filter Event.isRxOwn := by
    rw [← own, split, filter_append]
  -- where the buffers are
  have capacity : q.capacity = T.size.capacity := by rw [RxRing.capacity, guard.size]
  have posted : q'.posted = n' := guard'.holds.posted_eq.trans guard'.filled
  have fits := guard'.holds.fits
  rw [← guard'.holds.posted_eq, RxRing.capacity, guard'.size] at fits
  have ledger := guard'.between
  have total := ledger.total
  rw [guard'.holds.held.length_eq, ← guard'.holds.posted_eq, length_nil] at total
  have delivered : p'.tally.delivered = (m.advanceRx u).machine.toScene.out.length := by
    rw [ledger.tally_eq]
  have full : q'.posted = q.capacity ∨ p'.available = 0 := by
    rcases ends with all | ⟨p₁, pool, free⟩
    · exact .inl (by omega)
    · obtain rfl := Option.some.inj (pool.symm.trans guard'.pool)
      exact .inr (congrArg length free)
  refine ⟨q', p', es, rx', guard'.pool, events, full, ?_, ?_, by rw [producer, posts], ?_, ?_⟩
  · rw [delivered]
    rcases full with full | full <;> omega
  · intro before slot address cap after split
    obtain ⟨ds₁, b, ds₂, place, same⟩ := RxDeed.exists_post (front split)
    have early : ∀ d ∈ ds₁, d.serves = true := RxDeed.serves_before serves place
    have here := course.refills early rx guard.holds place
    rwa [RxDeed.taken, ← RxDeed.countP_isRxPost, ← RxDeed.length_taken?, same,
      ← Machine.Tells.countP_eq (fun _ => Event.isRxPost_of_not_own),
      ← Machine.Tells.filterMap_eq (fun _ => Event.taken?_of_not_own)] at here
  · rw [Machine.Tells.filterMap_eq (fun _ => Event.bell?_of_not_own), own, flatMap_append,
      filterMap_append, silent, nil_append, RxDeed.events_bells, posts]
    split <;> rfl
  · intro before v after split
    have none : after.filter Event.isRxOwn = [] := by
      have split := front split
      rw [flatMap_append, RxDeed.events_bells] at split
      refine Event.nil_of_bell split silent ?_
      split <;> simp
    rw [Machine.Tells.countP_eq (fun _ => Event.isRxPost_of_not_own), none, countP_nil]

end RxWatch

/-! ## The doorbell register -/

/-- **The doorbell register says how far a running ring is filled.** -/
def RxRung (m : Machine) : Prop :=
  ∀ r, m.rx = some r → r.phase = .running → m.adapter.read .rxProducer = r.producer.toUInt32

/-- Among the deeds, only those that ring the doorbell count for its register. -/
theorem RxCourse.register {Q : Event → Prop} {home : BufferPool} {place : Nat} {ds : List RxDeed}
    {m m' : Machine} (course : RxCourse Q home place ds m m') (rings : m.Rings m')
    (complete : m.journal.detail = .complete) :
    m'.adapter.read .rxProducer =
      ((ds.flatMap RxDeed.events).filterMap Event.bell?).getLast?.getD
        (m.adapter.read .rxProducer) := by
  obtain ⟨es, events, register⟩ := rings.events complete
  obtain ⟨es', events', -, own⟩ := course.tells.events complete
  obtain rfl := append_cancel_left (events.symm.trans events')
  rw [register, ← own, ← Machine.Tells.filterMap_eq fun _ => Event.bell?_of_not_own]

/-- A service keeps the register so. -/
theorem RxRefilled.register {place : Nat} {m : Machine} {u : Upper} {r r' : RxRing}
    {p : BufferPool} {es : List Event} (refilled : RxRefilled place m u r r' p es)
    (rings : m.Rings (m.advanceRx u).machine) (complete : m.journal.detail = .complete)
    (rung : m.adapter.read .rxProducer = r.producer.toUInt32) :
    (m.advanceRx u).machine.adapter.read .rxProducer = r'.producer.toUInt32 := by
  obtain ⟨es', events, register⟩ := rings.events complete
  obtain rfl := append_cancel_left (refilled.events.symm.trans events)
  rw [register, refilled.bell]
  split
  · next none =>
    rw [refilled.producer, none, Counter.advance_zero]
    exact rung
  · rfl

namespace RxWatch

variable {Q : Event → Prop} {home : BufferPool} {T : RxTrack} {m m' : Machine} {n : Nat}

/-- A successful start rings for all that it has posted. -/
theorem rung_startRx (w : RxWatch Q home T (Holding T.permits T.place))
    (h : RxAt T .plain { filled := n } m) (allowed : T.switches) (rings : m.Rings m.startRx.2) :
    RxRung m.startRx.2 := by
  intro r' rx' running
  obtain ⟨r, p, bs, guard⟩ := h.guarded
  obtain ⟨ds, course, ends⟩ := w.startRx h allowed
  rcases ends with ⟨-, rfl⟩ | ⟨-, c, posts, c', rfl, all, -⟩
  · -- a start that is refused leaves the ring stopped
    obtain rfl := Option.some.inj (rx'.symm.trans (course.applied guard.rx))
    exact absurd running Phase.noConfusion
  · have split : .clear n :: ([.resync c] ++ posts ++ [.enter .running] ++ [.ring c'] ++ [.enable]) =
        .clear n :: ([.resync c] ++ posts ++ [.enter .running]) ++ .ring c' :: [RxDeed.enable] := by
      simp
    obtain ⟨k, q, qs, p, p', -, rx, -, fits, later⟩ := course.exists_before split
    cases fits
    obtain rfl := Option.some.inj (rx'.symm.trans (later.applied rx))
    have silent : (posts.flatMap RxDeed.events).filterMap Event.bell? = [] :=
      RxDeed.silent_of_serves fun d hd => by
        have post := all d hd
        cases d <;> first | rfl | exact absurd post Bool.false_ne_true
    rw [course.register rings guard.complete]
    simp only [flatMap_append, flatMap_cons, flatMap_nil, filterMap_append, silent]
    rfl

/-- **Each request keeps the register so.** -/
theorem rung_request (w : RxWatch Q home T (Holding T.permits T.place))
    (h : RxAt T .plain { filled := n } m) (allowed : T.switches)
    (request : RxRequest T.permits T.place m m') (rings : m.Rings m') (rung : RxRung m) :
    RxRung m' := by
  obtain ⟨r, p, bs, guard⟩ := h.guarded
  -- what leaves the ring alone does not ring
  have rests (rest : RxRests Q m m') : RxRung m' := by
    intro r' rx' running
    have course : RxCourse Q home T.place [] m m' := .of_rests rest
    rw [course.register rings guard.complete]
    exact rung r' (rest.rx.symm.trans rx') running
  cases request with
  | start => exact w.rung_startRx h allowed rings
  | cancel =>
    intro r' rx' running
    obtain ⟨ds, course, all⟩ := w.cancelRx h allowed
    have applied := course.applied guard.rx
    rcases eq_nil_or_concat ds with rfl | ⟨ds, d, rfl⟩
    · rw [course.register rings guard.complete]
      exact rung r' ((guard.rx.trans applied.symm).trans rx') running
    · obtain rfl := all d (by simp)
      rw [concat_eq_append, foldl_append] at applied
      obtain rfl := Option.some.inj (rx'.symm.trans applied)
      exact absurd running Phase.noConfusion
  | advance bound =>
    intro r' rx' running
    by_cases before : r.phase = .running
    · obtain ⟨q, p', es, refilled⟩ := w.refilled h bound guard.rx before
      obtain rfl := Option.some.inj (rx'.symm.trans refilled.after)
      exact refilled.register rings guard.complete (rung r guard.rx before)
    · obtain ⟨ds, course, few, -⟩ := w.advanceRx_of_idle h _ guard.rx before
      obtain rfl := Option.some.inj (rx'.symm.trans (course.applied guard.rx))
      rcases few with rfl | rfl <;> exact absurd running before
  | holding act => exact rests (w.act h ⟨rfl, rfl, rfl⟩ act)
  | plan => exact rests (.of_journal_eq rfl rfl)

end RxWatch

/-- **So does every run**, if the adapter leaves that register alone. -/
theorem RxRung.run {T : RxTerms} {m m' : Machine} (spares : ∀ mv, T.permits mv → mv.Spares .rxProducer)
    (idle : RxIdle T m) (rung : RxRung m)
    (run : ReflTransGen (RxRequest T.permits T.place) m m') : RxRung m' := by
  induction run with
  | refl => exact rung
  | @tail k k' before request ih =>
    obtain ⟨n, ⟨r, p, bs, guard⟩, -⟩ := idle.run before
    have here : RxAt (T.track True k) .plain { filled := n } k := guard.here True
    have watch : RxWatch (fun _ => True) p (T.track True k) (Holding T.permits T.place) :=
      .holding (fun _ _ => trivial) guard.pool
    obtain ⟨n', there⟩ := request.course trivial here
    exact watch.rung_request here trivial request (there.rings spares) ih

/-! ## The theorem -/

/-- **A service leaves no slot empty that could be filled**, and rings once.  However a new ring over a
new pool is used, whatever the adapter answers, and whatever buffers are given back in the callbacks:
when the service of a running ring returns, each usable slot has a buffer or no buffer is free.  What
was posted went into the next slots, none of them before its completion was read, and the doorbell was
rung once behind all of it, or not at all.  If the adapter leaves the doorbell register alone, it then
says how far the ring is filled, whether it was rung now or earlier. -/
theorem service_fills_every_slot_it_can {permits : Move → Prop} {place slots : Nat} {m₀ m : Machine}
    (new : m₀.NewRx place slots) (planned : Machine.Permitted permits m₀.agenda)
    (run : ReflTransGen (RxRequest permits place) m₀ m) {r : RxRing} (rx : m.rx = some r)
    (running : r.phase = .running) {u : Upper} (bound : u.Abides (Holding permits place)) :
    ∃ r' p es, RxRefilled place m u r r' p es ∧
      ((∀ mv, permits mv → mv.Spares .rxProducer) →
        (m.advanceRx u).machine.adapter.read .rxProducer = r'.producer.toUInt32) := by
  obtain ⟨_, _, r₀, made, rx₀⟩ := new.made
  obtain ⟨-, -, rfl⟩ := RxRing.holds_create made
  let T : RxTerms := .over place r₀.size permits
  have start : RxIdle T m₀ := Machine.NewRx.idle (T := T) new planned False.elim
  obtain ⟨n, ⟨q, p, bs, guard⟩, -⟩ := start.run run
  have here : RxAt (T.track False m) .plain { filled := n } m := guard.here False
  have watch : RxWatch (fun _ => True) p (T.track False m) (Holding permits place) :=
    .holding (fun _ _ => trivial) guard.pool
  obtain ⟨r', p', es, refilled⟩ := watch.refilled here bound rx running
  refine ⟨r', p', es, refilled, fun spares => ?_⟩
  have fresh : RxRung m₀ := by
    intro q rx' running'
    obtain rfl := Option.some.inj (rx₀.symm.trans rx')
    exact absurd (running'.symm.trans (RxRing.phase_create made)) Phase.noConfusion
  obtain ⟨n', there⟩ := here.advanceRx bound.aside
  exact refilled.register (there.rings spares) guard.complete
    (RxRung.run spares start fresh run r rx running)

/-- All buffers are posted or held, and one more frame arrives.  It is dropped, and so is one of the
frames that are held, in the callback.  Both buffers are posted by the same service. -/
theorem service_fills_every_slot_it_can_starved :
    ∃ (m : Machine) (r r' : RxRing) (p : BufferPool) (u : Upper) (es : List Event),
      ReflTransGen (RxRequest (Move.Spares .rxProducer) 0) (.withRx ⟨4, by decide⟩ 4) m ∧
      m.rx = some r ∧ r.phase = .running ∧ u.Abides (Holding (Move.Spares .rxProducer) 0) ∧
      (m.poolAt? 0).map BufferPool.available = some 0 ∧ r.posted = 2 ∧ r'.posted = 3 ∧
      RxRefilled 0 m u r r' p es ∧ es.filterMap Event.bell? = [6] ∧
      (m.advanceRx u).machine.adapter.read .rxProducer = r'.producer.toUInt32 := by
  let arrives : Move := .receive ⟨[], 2, 66, RxStatus.wholeFrame⟩
  have spares : arrives.Spares .rxProducer := Move.spares_of_ne_assign (by decide) nofun
  let dropFirst (m : Machine) : Machine :=
    match m.frameAt? 0 with
    | some f => (m.removeFrame 0).dropFrame f
    | none => m
  let u : Upper := { replies := [dropFirst] }
  have abides : u.Abides (Holding (Move.Spares .rxProducer) 0) := by
    intro reply hr m
    obtain rfl := mem_singleton.mp hr
    cases held : m.frameAt? 0 with
    | some f =>
      have dropped : dropFirst m = (m.removeFrame 0).dropFrame f := by simp only [dropFirst, held]
      rw [dropped]
      exact .single (.drop m held)
    | none =>
      have kept : dropFirst m = m := by simp only [dropFirst, held]
      rw [kept]
  let started : Machine := (Machine.withRx ⟨4, by decide⟩ 4).startRx.2
  let m : Machine :=
    (((started.move arrives).move arrives).advanceRx { disposal := fun _ => .hold }).machine
      |>.move arrives
  have run : ReflTransGen (RxRequest (Move.Spares .rxProducer) 0) (.withRx ⟨4, by decide⟩ 4) m :=
    ReflTransGen.refl
      |>.tail (.start _)
      |>.tail (.holding (.move _ spares))
      |>.tail (.holding (.move _ spares))
      |>.tail (.advance _ (u := { disposal := fun _ => .hold }) fun _ h => absurd h not_mem_nil)
      |>.tail (.holding (.move _ spares))
  have state : m.rx.map (fun r => (r.phase, r.posted)) = some (.running, 2) := by decide +kernel
  obtain ⟨r, rx, here⟩ := Option.map_eq_some_iff.mp state
  obtain ⟨running, posted⟩ := Prod.mk.inj here
  obtain ⟨r', p, es, refilled, register⟩ := service_fills_every_slot_it_can
    (Machine.newRx_withRx ⟨4, by decide⟩ (by decide)) (fun _ h => absurd h not_mem_nil) run rx
    running abides
  have after : (m.advanceRx u).machine.rx.map RxRing.posted = some 3 := by decide +kernel
  have rang : (m.advanceRx u).machine.journal.events.toList.filterMap Event.bell? =
      m.journal.events.toList.filterMap Event.bell? ++ [6] := by decide +kernel
  rw [refilled.after] at after
  rw [refilled.events, filterMap_append] at rang
  exact ⟨m, r, r', p, u, es, run, rx, running, abides, by decide +kernel, posted,
    Option.some.inj after, refilled, append_cancel_left rang, register fun _ spares => spares⟩

end DescriptorRings
