import DescriptorRings.Proofs.Receive.Arrivals
import DescriptorRings.Proofs.Receive.Dealings
import DescriptorRings.Proofs.Receive.Ownership

/-!
# Every posted buffer is accounted for

However a new receive ring over a new pool is used, and whatever the adapter answers, the accounts of
the ring balance (`RxBalance`).  Each buffer that was ever written into a descriptor is posted still, or
it left the ring in one of three ways: its frame was shown, its completion was dropped, or it was taken
back without a completion.  What was shown lies inside the buffers, and is counted frame by frame and
byte by byte.

To serve the ring is to take in the completions that the adapter announces (`RxAdvance`).  Each of them
is for one counter, and comes to one frame or to one error, never to both and never to neither
(`RxConsumes`).  A reading that announces more than is posted is noted, and nothing is taken in.

All of this is read off the deeds that make up a run (`Proofs.Receive.Dealings`), since each account is
a sum over them.
-/

namespace DescriptorRings

open Relation List

/-! ## What is claimed -/

/-- **The accounts balance**: since a ring was made, some events were entered. -/
structure RxBalance (r : RxRing) (p : BufferPool) (es : List Event) : Prop where
  /-- A buffer that was posted was shown, dropped or taken back, or it is posted still. -/
  posted : es.countP Event.isRxPost =
    r.stats.delivered + r.stats.framingErrors + r.stats.discarded + r.posted
  /-- The frames that were shown are counted. -/
  delivered : r.stats.delivered = (es.filterMap Event.frame?).length
  /-- So are their bytes. -/
  bytes : r.stats.bytes = ((es.filterMap Event.frame?).map Frame.length).sum
  /-- Each of them lies in its buffer, behind the space that is left in front. -/
  inside : ∀ f ∈ es.filterMap Event.frame?, f.pad = r.pad ∧ r.pad + f.length ≤ p.bufferSize

/-- **One counter is consumed.**  The buffer `b` was in its slot, and its completion is `c`. -/
structure RxConsumes (place : Nat) (s s' : Served) (r r' : RxRing) (p : BufferPool) (b : BufferId)
    (c : Completion) (es : List Event) : Prop where
  /-- The ring before. -/
  before : s.machine.rx = some r
  /-- The ring afterwards. -/
  after : s'.machine.rx = some r'
  /-- The pool before. -/
  pool : s.machine.poolAt? place = some p
  /-- The oldest slot held the buffer. -/
  held : r.bufferAt? r.headSlot = some b
  /-- It is passed. -/
  consumer : r'.consumer = r.consumer.advance 1
  /-- These are the events. -/
  events : s'.machine.journal.events.toList = s.machine.journal.events.toList ++ es
  /-- The completion of the slot is read, and no other. -/
  read : es.filterMap Event.taken? = [(r.headSlot, c)]
  /-- A whole frame is shown once, and counted as that. -/
  shown : c.Deliverable r.pad p.bufferSize →
    s'.count = s.count + 1 ∧ ∃ f, f.Shows r p b c ∧ es.filterMap Event.frame? = [f] ∧
      r'.stats = { r.stats with
        delivered := r.stats.delivered + 1, bytes := r.stats.bytes + f.length }
  /-- Anything else is an error, and the buffer is free. -/
  lost : ¬c.Deliverable r.pad p.bufferSize →
    s'.count = s.count ∧ es.filterMap Event.frame? = [] ∧
      r'.stats = { r.stats with framingErrors := r.stats.framingErrors + 1 } ∧
      ∃ p', s'.machine.poolAt? place = some p' ∧ p'.stateOf? b = some .free

/-- **What it is to serve a ring** `r` over a pool `p`. -/
structure RxAdvance (place : Nat) (m : Machine) (u : Upper) (r r' : RxRing) (p : BufferPool)
    (es : List Event) : Prop where
  /-- The ring afterwards. -/
  after : (m.advanceRx u).machine.rx = some r'
  /-- These are the events. -/
  events : (m.advanceRx u).machine.journal.events.toList = m.journal.events.toList ++ es
  /-- The answer is the number of frames that were shown. -/
  counted : (m.advanceRx u).count = (es.filterMap Event.frame?).length
  /-- A ring that is not running takes nothing in. -/
  idle : r.phase ≠ .running → r'.consumer = r.consumer ∧ es.filterMap Event.taken? = [] ∧
    es.filterMap Event.frame? = []
  /-- A reading inside the window is taken at its word: for each counter there is one frame or one
  error. -/
  believed : r.phase = .running → m.rxReading.past r.consumer ≤ r.posted →
    r'.consumer = r.consumer.advance (m.rxReading.past r.consumer) ∧
      r.TakesIn p (m.rxReading.past r.consumer) es ∧
      r'.stats.badConsumer = r.stats.badConsumer ∧
      ∀ k < m.rxReading.past r.consumer, ∃ r₁ r₂ p₁ b c es',
        RxConsumes place (m.serviceAfter u place k).served
          (Machine.takeSlot (m.serviceAfter u place k).served place) r₁ r₂ p₁ b c es'
  /-- **A reading outside of it consumes nothing**, and is counted. -/
  doubted : r.phase = .running → r.posted < m.rxReading.past r.consumer →
    r'.consumer = r.consumer ∧ es.filterMap Event.taken? = [] ∧ es.filterMap Event.frame? = [] ∧
      r'.stats = { r.stats with
        badConsumer := r.stats.badConsumer + 1, refillDeferred := r'.stats.refillDeferred }

theorem RxStats.of_fields {s t : RxStats} (delivered : s.delivered = t.delivered)
    (bytes : s.bytes = t.bytes) (framingErrors : s.framingErrors = t.framingErrors)
    (refillDeferred : s.refillDeferred = t.refillDeferred) (discarded : s.discarded = t.discarded)
    (badConsumer : s.badConsumer = t.badConsumer) : s = t := by
  cases s
  cases t
  simp_all only

/-! ## One counter -/

section

variable {Q : Event → Prop} {home : BufferPool} {place : Nat}

theorem RxTakes.consumes {s s' : Served} (takes : RxTakes Q home place s s')
    (complete : s.machine.journal.detail = .complete) :
    ∃ r r' p b c es, RxConsumes place s s' r r' p b c es := by
  cases takes with
  | @lose slot b c done count =>
    obtain ⟨r, bs, p, p', rx, holds, pool, -, fits, rx', pool'⟩ := done.done
    obtain ⟨es, events, -, own⟩ := done.tells.events complete
    cases fits with
    | lose oldest posted lost =>
      subst oldest
      have state : (p.move b .free).stateOf? b = some .free :=
        BufferPool.stateOf?_move_self (BufferPool.index_lt_of_stateOf? posted) .free
      refine ⟨r, _, p, b, c, es, rx, rx', pool, holds.bufferAt?_headSlot, rfl, events, ?_, ?_, ?_⟩
      · rw [Machine.Tells.filterMap_eq (fun _ => Event.taken?_of_not_own), own]
        rfl
      · intro whole
        rw [← RxRing.deliverable_iff, lost] at whole
        exact absurd whole Bool.false_ne_true
      · intro _
        refine ⟨count, ?_, rfl, _, pool', state⟩
        rw [Machine.Tells.filterMap_eq (fun _ => Event.frame?_of_not_own), own]
        rfl
  | @deliver slot b c f bytes k done rests count =>
    obtain ⟨r, bs, p, p', rx, holds, pool, -, fits, rx', pool'⟩ := done.done
    obtain ⟨es, events, -, own⟩ := (done.tells.trans rests.tells).events complete
    rw [append_nil] at own
    cases fits with
    | deliver oldest whole shows =>
      subst oldest
      refine ⟨r, _, p, b, c, es, rx, rests.rx.trans rx', pool, holds.bufferAt?_headSlot, rfl, events,
        ?_, ?_, ?_⟩
      · rw [Machine.Tells.filterMap_eq (fun _ => Event.taken?_of_not_own), own]
        rfl
      · intro _
        refine ⟨count, f, shows, ?_, rfl⟩
        rw [Machine.Tells.filterMap_eq (fun _ => Event.frame?_of_not_own), own]
        rfl
      · intro lost
        exact absurd (RxRing.deliverable_iff.mp whole) lost

/-! ## A whole run -/

/-- A frame that is shown lies in its buffer. -/
theorem RxCourse.inside {ds : List RxDeed} {m m' : Machine} (course : RxCourse Q home place ds m m')
    {r : RxRing} (rx : m.rx = some r) :
    (∃ r', m'.rx = some r' ∧ r'.pad = r.pad) ∧ ∀ f ∈ ds.filterMap RxDeed.frame?,
      f.pad = r.pad ∧ r.pad + f.length ≤ home.bufferSize := by
  induction course with
  | refl => exact ⟨⟨r, rx, rfl⟩, fun f hf => absurd hf not_mem_nil⟩
  | rest _ rests ih =>
    obtain ⟨⟨r', rx', pad⟩, all⟩ := ih rx
    exact ⟨⟨r', rests.rx.trans rx', pad⟩, all⟩
  | @deed ds d _ _ _ _ done ih =>
    obtain ⟨⟨r', rx', pad⟩, all⟩ := ih rx
    obtain ⟨q, bs, p, p', rx'', -, -, kept, fits, after, -⟩ := done.done
    obtain rfl : q = r' := Option.some.inj (rx''.symm.trans rx')
    refine ⟨⟨_, after, (d.apply_fixed q).2.2.trans pad⟩, fun f hf => ?_⟩
    rw [filterMap_append] at hf
    rcases mem_append.mp hf with hf | hf
    · exact all f hf
    · cases fits with
      | deliver _ whole shows =>
        obtain rfl := mem_singleton.mp hf
        obtain ⟨-, -, -, reaches, inside⟩ := RxRing.deliverable_iff.mp whole
        have size : p.bufferSize = home.bufferSize := congrArg Layout.size kept.layout
        rw [shows.pad, shows.length, pad, ← size]
        rw [pad] at reaches
        exact ⟨rfl, by omega⟩
      | _ => exact absurd hf not_mem_nil

/-- **Deeds keep the accounts balanced**, for a ring that begins with nothing. -/
theorem RxCourse.balance {ds : List RxDeed} {m m' : Machine} (course : RxCourse Q home place ds m m')
    (complete : m.journal.detail = .complete) {r r' : RxRing} (rx : m.rx = some r)
    (rx' : m'.rx = some r') (holds : r.Holds []) (fresh : r.stats = {}) {p : BufferPool}
    (kept : home.Kept p) :
    ∃ es, m'.journal.events.toList = m.journal.events.toList ++ es ∧ RxBalance r' p es := by
  obtain ⟨q, bs, rx'', holds', accounts, -, -, pad⟩ := course.accounts rx holds
  obtain rfl : q = r' := Option.some.inj (rx''.symm.trans rx')
  obtain ⟨es, events, -, own⟩ := course.tells.events complete
  have frames : es.filterMap Event.frame? = ds.filterMap RxDeed.frame? := by
    rw [Machine.Tells.filterMap_eq (fun _ => Event.frame?_of_not_own), own, RxDeed.filterMap_frame?]
  have posts : es.countP Event.isRxPost = ds.countP RxDeed.isPost := by
    rw [Machine.Tells.countP_eq (fun _ => Event.isRxPost_of_not_own), own, RxDeed.countP_isRxPost]
  obtain ⟨delivered, bytes, framingErrors, discarded, -, posted, -⟩ := accounts
  rw [fresh] at delivered bytes framingErrors discarded
  refine ⟨es, events, ?_, ?_, ?_, fun f hf => ?_⟩
  · rw [posts, delivered, framingErrors, discarded, holds'.posted_eq]
    rw [length_nil] at posted
    show _ = 0 + _ + (0 + _) + (0 + _) + _
    omega
  · rw [delivered, frames]
    exact Nat.zero_add _
  · rw [bytes, frames]
    exact Nat.zero_add _
  · rw [frames] at hf
    have size : p.bufferSize = home.bufferSize := congrArg Layout.size kept.layout
    rw [pad, size]
    exact (course.inside rx).2 f hf

end

/-! ## Serving the ring -/

section

variable {Q : Event → Prop} {home : BufferPool} {place : Nat} {size : RingSize}
  {permits : Move → Prop} {switches : Prop} {m₀ m : Machine} {Act : Machine → Machine → Prop} {n : Nat}

/-- **To serve a ring is to take in what is announced.** -/
theorem RxWatch.advance
    (w : RxWatch Q home ((RxTerms.over place size permits).track switches m₀) Act)
    (h : RxAt ((RxTerms.over place size permits).track switches m₀) .plain { filled := n } m)
    {u : Upper} (bound : u.Abides Act) {r : RxRing} {p : BufferPool} (rx : m.rx = some r)
    (pool : m.poolAt? place = some p) : ∃ r' es, RxAdvance place m u r r' p es := by
  obtain ⟨q, p', bs, guard⟩ := h.guarded
  obtain rfl : q = r := Option.some.inj (guard.rx.symm.trans rx)
  have posted : q.posted = bs.length := guard.holds.posted_eq
  have used : RxInUse permits place size m := ⟨n, q, p', bs, guard⟩
  by_cases running : q.phase = .running
  · -- what is done is known from the deeds
    obtain ⟨ds, lost, filled, course, work, all⟩ := w.advanceRx_of_running h bound rx running
    obtain ⟨r', bs', rx', -, accounts, -⟩ := course.accounts rx guard.holds
    obtain ⟨es, events, -, own⟩ := course.tells.events guard.complete
    have frames : es.filterMap Event.frame? = ds.filterMap RxDeed.frame? := by
      rw [Machine.Tells.filterMap_eq (fun _ => Event.frame?_of_not_own), own,
        RxDeed.filterMap_frame?]
    have taken : (es.filterMap Event.taken?).length = (m.advanceRx u).count + lost := by
      rw [Machine.Tells.filterMap_eq (fun _ => Event.taken?_of_not_own), own, RxDeed.length_taken?,
        work.shown, work.lost]
    have consumer := accounts.consumer work.put
    rw [work.shown, work.lost, all] at consumer
    refine ⟨r', es, rx', events, by rw [frames, work.shown], fun idle => absurd running idle,
      fun _ within => ?_, fun _ outside => ?_⟩
    · have believed : q.believes m.rxReading = true := decide_eq_true within
      have ready : q.ready m.rxReading = m.rxReading.past q.consumer := if_pos believed
      obtain ⟨-, es', -, -, events', takes⟩ := used.takesIn rx pool running (w.abides bound)
      obtain rfl := append_cancel_left (events.symm.trans events')
      rw [ready] at consumer takes
      refine ⟨consumer, takes, ?_, fun k less => ?_⟩
      · rw [accounts.badConsumer, work.doubted, if_pos believed]
        rfl
      · have all : m.rxReading.past q.consumer - (k + 1) + 1 + k = q.ready m.rxReading := by omega
        obtain ⟨n', midway⟩ := w.midway h bound rx all
        have one := w.takeSlot midway fun reply hreply =>
          bound reply (Machine.replies_serviceAfter m u place k hreply)
        obtain ⟨_, _, _, guard'⟩ := midway.guarded
        exact one.consumes guard'.complete
    · have doubted : q.believes m.rxReading = false := decide_eq_false (Nat.not_le_of_lt outside)
      have none : q.ready m.rxReading = 0 := if_neg (Bool.eq_false_iff.mp doubted)
      rw [none] at consumer all
      obtain ⟨count, lost⟩ := Nat.eq_zero_of_add_eq_zero all
      have unshown : ds.filterMap RxDeed.frame? = [] :=
        length_eq_zero_iff.mp (work.shown.trans count)
      refine ⟨consumer.trans (Counter.advance_zero _), ?_, frames.trans unshown,
        RxStats.of_fields ?_ ?_ ?_ rfl ?_ ?_⟩
      · rw [count, lost] at taken
        exact length_eq_zero_iff.mp taken
      · rw [accounts.delivered, unshown]
        rfl
      · rw [accounts.bytes, unshown]
        rfl
      · rw [accounts.framingErrors, work.lost, lost]
        rfl
      · rw [accounts.discarded, work.cleared]
        rfl
      · rw [accounts.badConsumer, work.doubted, doubted]
        rfl
  · obtain ⟨ds, course, few, count⟩ := w.advanceRx_of_idle h u rx running
    obtain ⟨r', bs', rx', -, accounts, -⟩ := course.accounts rx guard.holds
    obtain ⟨es, events, -, own⟩ := course.tells.events guard.complete
    obtain ⟨silent, unshown, lost, put⟩ : ds.flatMap RxDeed.events = [] ∧
        ds.filterMap RxDeed.frame? = [] ∧ ds.countP RxDeed.isLoss = 0 ∧
        ds.countP RxDeed.isResync = 0 := by
      rcases few with rfl | rfl <;> exact ⟨rfl, rfl, rfl, rfl⟩
    have nothing {α : Type} {f : Event → Option α} (unseen : ∀ e, e.isRxOwn = false → f e = none) :
        es.filterMap f = [] := by
      rw [Machine.Tells.filterMap_eq unseen, own, silent]
      rfl
    have frames := nothing fun _ => Event.frame?_of_not_own
    refine ⟨r', es, rx', events, by rw [count, frames]; rfl, fun _ => ⟨?_, ?_, frames⟩,
      fun now => absurd now running, fun now => absurd now running⟩
    · rw [accounts.consumer put, unshown, lost]
      exact Counter.advance_zero _
    · exact nothing fun _ => Event.taken?_of_not_own

end

/-! ## The theorem -/

/-- **Every posted buffer is accounted for.**  However a new ring over a new pool is used, and whatever
the adapter answers, its accounts balance after every request.  Serving it then takes in one frame or
one error for each counter that is announced inside the window, answers with the number of frames, and
takes nothing in for a reading outside of it. -/
theorem posted_buffers_are_accounted_for {place slots : Nat} {m₀ m : Machine}
    (new : m₀.NewRx place slots) (run : ReflTransGen (RxRequest (fun _ => True) place) m₀ m) :
    ∃ r p, m.rx = some r ∧ m.poolAt? place = some p ∧
      (∃ es, m.journal.events.toList = m₀.journal.events.toList ++ es ∧ RxBalance r p es) ∧
      ∀ u : Upper, u.Abides (Holding (fun _ => True) place) →
        ∃ r' es, RxAdvance place m u r r' p es := by
  obtain ⟨_, _, r₀, made, rx₀⟩ := new.made
  obtain ⟨holds, -, rfl⟩ := RxRing.holds_create made
  let T : RxTerms := .over place r₀.size fun _ => True
  have start : RxIdle T m₀ := Machine.NewRx.idle (T := T) new (fun _ _ _ _ => trivial) False.elim
  obtain ⟨n, ⟨_, home, _, guard⟩, -⟩ := start
  have begun : RxAt (T.track True m₀) .plain { filled := n } m₀ := guard.here True
  have watch : RxWatch (fun _ => True) home (T.track True m₀) (Holding (fun _ => True) place) :=
    .holding (fun _ _ => trivial) guard.pool
  obtain ⟨ds, n', course, h⟩ := watch.run begun trivial run
  obtain ⟨r, p, bs, here⟩ := h.guarded
  obtain ⟨q, pool, kept⟩ := h.kept guard.pool
  obtain rfl : q = p := Option.some.inj (pool.symm.trans here.pool)
  exact ⟨r, q, here.rx, pool,
    course.balance new.complete rx₀ here.rx holds (RxRing.stats_create made) kept,
    fun u bound => watch.advance h bound here.rx pool⟩

/-- Of three buffers one is held, one is lost and one is taken back by a new start.  Then the adapter's
counter reads nonsense. -/
theorem posted_buffers_are_accounted_for_restarted :
    ∃ m, ReflTransGen (RxRequest (fun _ => True) 0) (.withRx ⟨4, by decide⟩ 4) m ∧
      m.rx.map RxRing.stats =
        some { delivered := 1, bytes := 64, framingErrors := 1, discarded := 3 } ∧
      m.rx.map (fun r => (r.posted, m.rxReading.past r.consumer)) = some (3, 998) ∧
      ∃ r p, m.rx = some r ∧ m.poolAt? 0 = some p ∧
        (∃ es, m.journal.events.toList =
          (Machine.withRx ⟨4, by decide⟩ 4).journal.events.toList ++ es ∧ RxBalance r p es) ∧
        ∀ u : Upper, u.Abides (Holding (fun _ => True) 0) →
          ∃ r' es, RxAdvance 0 m u r r' p es := by
  let frame (status : UInt32) : Reception := ⟨[], 2, 66, status⟩
  have run : ReflTransGen (RxRequest (fun _ => True) 0) (.withRx ⟨4, by decide⟩ 4) _ :=
    ReflTransGen.refl
      |>.tail (.start _)
      |>.tail (.holding (@Holding.move _ _ _ (.receive (frame RxStatus.wholeFrame)) trivial))
      |>.tail (.holding (@Holding.move _ _ _ (.receive (frame 0)) trivial))
      |>.tail (.advance _ (u := { disposal := fun _ => .hold }) fun _ h => absurd h not_mem_nil)
      |>.tail (.start _)
      |>.tail (.holding (@Holding.move _ _ _ (.assign .rxConsumer 1000) trivial))
  exact ⟨_, run, by decide +kernel, by decide +kernel,
    posted_buffers_are_accounted_for (Machine.newRx_withRx ⟨4, by decide⟩ (by decide)) run⟩

end DescriptorRings
