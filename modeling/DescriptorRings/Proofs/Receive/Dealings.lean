import DescriptorRings.Proofs.Receive.Deeds

/-!
# What each request does to a receive ring

Every request to a receive ring is a list of deeds (`RxCourse`), and which deeds they are says what the
request is about.  Starting a ring takes back what is left and posts a whole batch; filling up posts
buffers until there is none (`RxDeed.fills`); serving takes as many completions in as were announced,
one deed for each (`RxWatch.takeSlot`).

The deeds are only possible because the guard holds at every point (`RxAt`), so both are followed side
by side.  What the upper layer may do in its callbacks is a parameter (`Act`), as is the kind of the
events that are entered (`Q`): the driver itself raises no alarm, and `RxWatch` asks no more of the
upper layer than that its acts keep the guard and enter events of the kind.
-/

namespace DescriptorRings

open Relation List

/-- What is presupposed when the deeds of a ring are followed. -/
structure RxWatch (Q : Event → Prop) (home : BufferPool) (T : RxTrack)
    (Act : Machine → Machine → Prop) : Prop where
  /-- What is no alarm may be entered. -/
  tame : ∀ e, e.isAlarm = false → Q e
  /-- The run begins with this pool. -/
  origin : T.origin.2.poolAt? T.place = some home
  /-- What the upper layer does leaves the ring alone. -/
  aside : ∀ k k', Act k k' → RxMeanwhile T.permits T.place k k'
  /-- Where the guard holds it enters events of the kind. -/
  mild : ∀ g k k', g.Empty → RxAt T .plain g k → Act k k' → k.Enters Q k'

/-! ## Accesses -/

namespace RxRests

variable {Q : Event → Prop} (tame : ∀ e, e.isAlarm = false → Q e)

include tame

theorem turn (m : Machine) : RxRests Q m m.turn :=
  .of_enters m.rx_turn (.turn (fun _ => ⟨tame _ rfl, rfl⟩) m)

theorem record {e : Event} (m : Machine) (mild : e.isAlarm = false) (other : e.isRxOwn = false) :
    RxRests Q m (m.record e) :=
  .of_enters (by rw [Machine.toScene_record]) (.record ⟨tame e mild, other⟩ m)

theorem give (m : Machine) {n : Notice} (mild : (n.level == .error) = false) :
    RxRests Q m (m.give n) := by
  unfold Machine.give
  split
  · exact record tame m mild rfl
  · exact refl m

theorem giveIf (m : Machine) (condition : Bool) {n : Notice} (mild : (n.level == .error) = false) :
    RxRests Q m (m.giveIf condition n) := by
  unfold Machine.giveIf
  split
  · exact give tame m mild
  · exact refl m

theorem readCounter (m : Machine) (reg : Register) : RxRests Q m (m.readCounter reg).2 :=
  (turn tame m).trans (record tame m.turn rfl rfl)

/-- A completion is read. -/
theorem readCompletion (m : Machine) (slot : Nat) :
    m.Tells Q [.readCompletion slot (m.readCompletion slot).1] (m.readCompletion slot).2 := by
  have read : m.turn.Tells Q _ (m.readCompletion slot).2 :=
    .of_journal_add (Machine.journal_record _ _) (tame _ rfl)
  exact (turn tame m).tells.trans read

/-- The direction is switched off. -/
theorem switchOff (m : Machine) : RxRests Q m (m.write .rxDmaControl DmaControl.off) :=
  (turn tame m).trans (.of_enters (by rw [Machine.write, Machine.toScene_record])
    (.of_journal_add (Machine.journal_record _ _) ⟨tame _ rfl, rfl⟩))

end RxRests

namespace RxWatch

variable {Q : Event → Prop} {home : BufferPool} {T : RxTrack} {Act : Machine → Machine → Prop}
  {x : RxStage} {g : Hands} {m m' : Machine} {r : RxRing} {p p' : BufferPool} {bs : List BufferId}
  {d : RxDeed} {n due unrung : Nat}

/-! ## Single deeds -/

/-- A deed is done where the guard holds. -/
theorem done (w : RxWatch Q home T Act) (h : RxAt T x g m) (guard : RxGuard T.toRxTerms x g m r p bs)
    (fits : d.Fits r bs p p') (rx : m'.rx = some (d.apply r)) (pool : m'.poolAt? T.place = some p')
    (tells : m.Tells Q d.events m') : RxDone Q home T.place d m m' := by
  obtain ⟨q, here, kept⟩ := h.kept w.origin
  obtain rfl : q = p := Option.some.inj (here.symm.trans guard.pool)
  exact ⟨⟨r, bs, q, p', guard.rx, guard.holds, here, kept, fits, rx, pool⟩, tells⟩

/-- The ring alone changes. -/
theorem adjust (w : RxWatch Q home T Act) (h : RxAt T x g m) (silent : d.events = [])
    (fits : ∀ r p bs, RxGuard T.toRxTerms x g m r p bs → d.Fits r bs p p) :
    RxDone Q home T.place d m (m.modifyRx d.apply) := by
  obtain ⟨r, p, bs, guard⟩ := h.guarded
  refine w.done h guard (fits r p bs guard) ?_ guard.pool ?_
  · rw [Machine.modifyRx_eq_setRx guard.rx]
    rfl
  · rw [silent]
    exact .of_journal_eq Q rfl

/-- A register of the direction is written. -/
theorem write (w : RxWatch Q home T Act) (h : RxAt T x g m) {reg : Register} {v : UInt32}
    (own : (Event.wrote reg v).isRxOwn = true) (told : d.events = [.wrote reg v])
    (fits : ∀ r p bs, RxGuard T.toRxTerms x g m r p bs → d.Fits r bs p p)
    (same : ∀ r, d.apply r = r) : RxDone Q home T.place d m (m.write reg v) := by
  obtain ⟨r, p, bs, guard⟩ := h.guarded
  refine w.done h guard (fits r p bs guard) ?_
    ((m.poolAt?_write reg v T.place).trans guard.pool) ?_
  · rw [same]
    exact (m.rx_write reg v).trans guard.rx
  · have wrote : m.turn.Tells Q _ (m.write reg v) :=
      .of_journal_add (Machine.journal_record _ _) (w.tame _ rfl)
    have both := (RxRests.turn w.tame m).tells.trans wrote
    rw [filter_cons_of_pos own, filter_nil, nil_append] at both
    rwa [told]

/-- The doorbell says how far the ring is filled. -/
theorem ring (w : RxWatch Q home T Act) (h : RxAt T x g m) :
    ∃ c, RxDone Q home T.place (.ring c) m
      (m.writeCounter .rxProducer ((m.rx.map RxRing.producer).getD 0)) := by
  obtain ⟨r, p, bs, guard⟩ := h.guarded
  have known : (m.rx.map RxRing.producer).getD 0 = r.producer := by
    rw [guard.rx]
    rfl
  rw [known]
  refine ⟨r.producer, w.write h rfl rfl (fun r' p' bs' guard' => ?_) fun _ => rfl⟩
  obtain rfl := Option.some.inj (guard'.rx.symm.trans guard.rx)
  exact .ring

/-- A buffer is posted. -/
theorem post (w : RxWatch Q home T Act) {b : BufferId} {batch : List BufferId}
    (h : RxAt T x { g with batch := b :: batch } m) (room : g.filled < T.size.capacity)
    (posted : m.postBuffer T.place b = (.ok (), m')) :
    ∃ slot address capacity, RxDone Q home T.place (.post slot b address capacity) m m' := by
  obtain ⟨r, p, bs, guard⟩ := h.guarded
  have state := (guard.ledger.acquired.mem_iff b).mp mem_cons_self
  have pool : m.turn.poolAt? T.place = some p := (m.poolAt?_turn T.place).trans guard.pool
  have fits : bs.length < r.capacity := by
    rw [guard.filled, RxRing.capacity, guard.size]
    exact room
  obtain rfl : _ = m' := congrArg Prod.snd
    ((Machine.postBuffer_eq (m.rx_turn.trans guard.rx) pool state).symm.trans posted)
  have pool' : (m.turn.pokeRx r.tailSlot (p.base b) (UInt32.ofNat p.bufferSize)).poolAt? T.place =
      some p := by
    rw [Machine.pokeRx, Machine.poolAt?_record]
    exact pool
  have wrote : m.turn.Tells Q _
      (m.turn.pokeRx r.tailSlot (p.base b) (UInt32.ofNat p.bufferSize)) :=
    .of_journal_add (Machine.journal_record _ _) (w.tame _ rfl)
  exact ⟨_, _, _, w.done h guard (.post fits) rfl (Machine.poolAt?_setPool pool')
    (((RxRests.turn w.tame m).tells.trans wrote).quiet rfl)⟩

/-! ## Batches -/

/-- A whole batch is posted. -/
theorem postAll (w : RxWatch Q home T Act) (batch : List BufferId)
    (h : RxAt T x { g with batch := batch } m) (idle : g.taking = .nothing)
    (room : g.filled + batch.length ≤ T.size.capacity)
    (stays : ∀ (a : Adapter) (r : RxRing) (b : BufferId), x.Knows a r → x.Knows a (r.post b))
    (posted : Machine.forBuffers (fun b m => m.postBuffer T.place b) batch m = (.ok (), m')) :
    ∃ ds, RxCourse Q home T.place ds m m' ∧ (∀ d ∈ ds, d.isPost = true) ∧
      ds.length = batch.length := by
  induction batch generalizing m g with
  | nil =>
    obtain rfl : m = m' := congrArg Prod.snd posted
    exact ⟨[], .refl m, fun d hd => absurd hd not_mem_nil, rfl⟩
  | cons b batch ih =>
    rw [length_cons] at room
    obtain ⟨k, first, hk⟩ := h.post idle (by omega) stays
    obtain ⟨slot, address, capacity, done⟩ := w.post h (by omega) first
    rw [Machine.forBuffers, first] at posted
    obtain ⟨ds, course, posts, length⟩ :=
      ih (g := { g with filled := g.filled + 1, unrung := g.unrung + 1 }) hk idle (by
        show g.filled + 1 + batch.length ≤ T.size.capacity
        omega) posted
    refine ⟨.post slot b address capacity :: ds, (RxCourse.of_done done).trans course, ?_, ?_⟩
    · exact fun d hd => (mem_cons.mp hd).elim (fun e => e ▸ rfl) (posts d)
    · rw [length_cons, length_cons, length]

/-- Buffers are acquired and nothing else happens. -/
theorem acquireMany (h : RxAt T x { g with batch := [] } m) (count : Nat) :
    RxRests Q m (m.acquireMany T.place count).2 := by
  obtain ⟨r, p, bs, guard⟩ := h.guarded
  obtain ⟨batch, p', acquired, -⟩ := Machine.acquireMany_eq guard.pool guard.ledger count
  rw [acquired]
  exact .of_journal_eq rfl rfl

/-! ## Starting and cancelling -/

/-- All posted buffers are taken back. -/
theorem recyclePosted (w : RxWatch Q home T Act) (h : RxAt T x { filled := n } m) :
    RxCourse Q home T.place [.clear n] m m.recyclePosted := by
  obtain ⟨r, p, bs, guard⟩ := h.guarded
  obtain ⟨p', emptied, -⟩ :=
    Machine.recyclePosted_eq guard.rx (guard.place ▸ guard.pool) guard.between
  rw [emptied, guard.place]
  have filled : bs.length = n := guard.filled
  have cleared : RxDone Q home T.place (.clear n) m ((m.setPool T.place p').setRx r.clear) := by
    rw [← filled]
    exact w.done h guard (.clear p') rfl (Machine.poolAt?_setPool guard.pool) (.of_journal_eq Q rfl)
  exact (RxCourse.of_done cleared).rest (.giveIf w.tame _ _ rfl)

/-- A batch that is too small is put back, and the ring stops. -/
theorem abortStart (w : RxWatch Q home T Act) {batch : List BufferId}
    (h : RxAt T .silenced { batch := batch } m) (needed : Nat) :
    RxCourse Q home T.place [.enter .stopped] m (m.abortStart T.place needed batch).2 := by
  obtain ⟨k, put, hk⟩ := RxAt.putBackAll (g := {}) batch h
  have back : RxRests Q m k := by
    obtain ⟨r, p, bs, guard⟩ := h.guarded
    obtain ⟨p', put', -⟩ := Machine.putBackAll_eq batch guard.pool guard.ledger
    obtain rfl : _ = k := congrArg Prod.snd (put'.symm.trans put)
    exact .of_journal_eq rfl rfl
  have stopped : RxDone Q home T.place (.enter .stopped) k (k.modifyRx fun r => r.enter .stopped) :=
    w.adjust hk rfl fun _ _ _ _ => .enter _
  rw [Machine.abortStart, put]
  exact ((RxCourse.of_rests back).deed stopped).rest (.give w.tame _ rfl)

/-- A batch that is large enough is posted, and the ring runs. -/
theorem completeStart (w : RxWatch Q home T Act) {batch : List BufferId}
    (h : RxAt T .silenced { batch := batch } m) (needed : Nat)
    (fits : batch.length ≤ T.size.capacity) :
    ∃ c ds c', RxCourse Q home T.place ([.resync c] ++ ds ++ [.enter .running] ++ [.ring c'] ++ [.enable])
        m (m.completeStart T.place needed batch).2 ∧
      (∀ d ∈ ds, d.isPost = true) ∧ ds.length = batch.length := by
  have placed : RxAt T .aligned { batch := batch } _ := RxAt.resync (g := { batch := batch }) h rfl
  obtain ⟨k, read, looked⟩ := h.readCounter .rxConsumer
  have first := RxRests.readCounter w.tame m .rxConsumer
  have put : RxDone Q home T.place (.resync (k.adapter.counter .rxConsumer)) k
      (k.modifyRx fun r => r.resync (k.adapter.counter .rxConsumer)) :=
    w.adjust looked rfl fun r p bs guard => .resync _ (length_eq_zero_iff.mp guard.filled)
  rw [read] at placed first
  have room : (0 : Nat) + batch.length ≤ T.size.capacity := (Nat.zero_add _).le.trans fits
  obtain ⟨k₁, posted, hk₁⟩ := RxAt.postAll (g := {}) batch placed rfl room fun _ _ _ known => known
  obtain ⟨ds, course, posts, length⟩ :=
    w.postAll (g := {}) batch placed rfl room (fun _ _ _ known => known) posted
  have running : RxDone Q home T.place (.enter .running) k₁ (k₁.modifyRx fun r => r.enter .running) :=
    w.adjust hk₁ rfl fun _ _ _ _ => .enter _
  have armed : RxAt T .armed _ (k₁.modifyRx fun r => r.enter .running) :=
    hk₁.enterPhase .running (fun _ _ known => known.1) fun _ _ known => ⟨known.1, known.2, rfl⟩
  obtain ⟨c', rings⟩ := w.ring armed
  have rung := armed.ring (y := .plain)
    (c := ((k₁.modifyRx fun r => r.enter .running).rx.map RxRing.producer).getD 0)
    (fun r rx => by rw [rx]; rfl) fun _ _ _ _ => trivial
  have own : (Event.wrote .rxDmaControl DmaControl.enable).isRxOwn = true := rfl
  have enabled := w.write (d := .enable) rung own rfl (fun _ _ _ _ => .enable) fun _ => rfl
  refine ⟨k.adapter.counter .rxConsumer, ds, c', ?_, posts, length⟩
  unfold Machine.completeStart
  rw [read]
  dsimp only
  rw [posted]
  exact ((((((RxCourse.of_rests first).deed put).trans course).deed running).deed rings).deed
    enabled).rest (.give w.tame _ rfl)

/-- **Starting** takes back what is left from an earlier run.  Then the ring stops, or it is filled and
runs. -/
theorem startRx (w : RxWatch Q home T Act) (h : RxAt T .plain { filled := n } m)
    (allowed : T.switches) :
    ∃ ds, RxCourse Q home T.place (.clear n :: ds) m m.startRx.2 ∧
      ((∃ cause, m.startRx.1 = .error cause) ∧ ds = [.enter .stopped] ∨
        m.startRx.1 = .ok () ∧ ∃ c posts c',
          ds = [.resync c] ++ posts ++ [.enter .running] ++ [.ring c'] ++ [.enable] ∧
            (∀ d ∈ posts, d.isPost = true) ∧ posts.length = T.size.capacity) := by
  have known : m.rx.map (fun r => (r.pool, r.capacity)) = some (T.place, T.size.capacity) := by
    obtain ⟨r, p, bs, guard⟩ := h.guarded
    rw [guard.rx, ← guard.place, ← guard.size]
    rfl
  have silenced := h.switchOff allowed
  have emptied := silenced.recyclePosted
  have cleared := (RxCourse.of_rests (.switchOff w.tame m)).trans (w.recyclePosted silenced)
  obtain ⟨short, acquired⟩ := RxAt.acquireMany (g := {}) emptied T.size.capacity
  have ready := cleared.rest (acquireMany (g := {}) emptied T.size.capacity)
  unfold Machine.startRx
  rw [known]
  dsimp only
  split
  case isTrue =>
    obtain ⟨refused, -⟩ := acquired.abortStart T.size.capacity
    exact ⟨_, ready.trans (w.abortStart acquired _), .inl ⟨⟨_, refused⟩, rfl⟩⟩
  case isFalse enough =>
    obtain ⟨started, -⟩ := acquired.completeStart T.size.capacity short allowed
    obtain ⟨c, posts, c', course, all, length⟩ := w.completeStart acquired T.size.capacity short
    refine ⟨_, ready.trans course, .inr ⟨started, c, posts, c', rfl, all, ?_⟩⟩
    rw [length]
    exact Nat.le_antisymm short (Nat.le_of_not_lt enough)

/-- **Cancelling** only changes the phase. -/
theorem cancelRx (w : RxWatch Q home T Act) (h : RxAt T .plain { filled := n } m)
    (allowed : T.switches) :
    ∃ ds, RxCourse Q home T.place ds m m.cancelRx ∧ ∀ d ∈ ds, d = .enter .cancelled := by
  unfold Machine.cancelRx
  split
  · exact ⟨[], .refl m, fun d hd => absurd hd not_mem_nil⟩
  · have entered := w.adjust (d := .enter .cancelled) (h.switchOff allowed) rfl
      fun _ _ _ _ => .enter _
    exact ⟨_, ((RxCourse.of_rests (.switchOff w.tame m)).deed entered).rest (.give w.tame _ rfl),
      fun d hd => mem_singleton.mp hd⟩

/-! ## Filling up -/

/-- Buffers are posted until the rounds or the buffers have run out. -/
theorem refillRounds (w : RxWatch Q home T Act) (rounds : Nat) {f : Machine.Refill}
    (h : RxAt T .plain { filled := n, due := due, unrung := unrung + f.filled } f.machine)
    (room : n + rounds ≤ T.size.capacity) :
    ∃ ds, RxCourse Q home T.place ds f.machine
        (loop (Machine.refillOne T.place) rounds f).machine ∧
      (∀ d ∈ ds, d.fills = true) ∧
      (loop (Machine.refillOne T.place) rounds f).filled = f.filled + ds.countP RxDeed.isPost ∧
      (ds.countP RxDeed.isPost = rounds ∨
        ∃ p, (loop (Machine.refillOne T.place) rounds f).machine.poolAt? T.place = some p ∧
          p.free = []) := by
  induction rounds generalizing n f with
  | zero => exact ⟨[], .refl _, fun d hd => absurd hd not_mem_nil, rfl, .inl rfl⟩
  | succ rounds ih =>
    have taking : RxRests Q f.machine (f.machine.acquire T.place).2 := .of_journal_eq rfl rfl
    rcases h.acquire with ⟨b, taken, acquired⟩ | ⟨none, left⟩
    · obtain ⟨m', posted, next⟩ := acquired.post rfl (by show n < T.size.capacity; omega)
        fun _ _ _ known => known
      obtain ⟨slot, address, capacity, done⟩ :=
        w.post acquired (by show n < T.size.capacity; omega) posted
      obtain ⟨ds, course, fills, filled, ends⟩ :=
        ih (n := n + 1) (f := ⟨f.filled + 1, m'⟩) next (by omega)
      have again := Machine.refillOne_of_some taken posted
      rw [loop_of_again (by rw [again]), again]
      refine ⟨.post slot b address capacity :: ds,
        ((RxCourse.of_rests taking).deed done).trans course, ?_, ?_, ?_⟩
      · exact fun d hd => (mem_cons.mp hd).elim (fun e => e ▸ rfl) (fills d)
      · rw [filled, countP_cons_of_pos rfl]
        show f.filled + 1 + _ = f.filled + (_ + 1)
        omega
      · rw [countP_cons_of_pos rfl]
        exact ends.imp_left (congrArg (· + 1))
    · have empty (r : RxRing) (p : BufferPool) (bs : List BufferId)
          (guard : RxGuard T.toRxTerms .plain { filled := n, due := due, unrung := unrung + f.filled }
            (f.machine.acquire T.place).2 r p bs) :
          p.free = [] := by
        obtain ⟨r', p', bs', before⟩ := h.guarded
        have pool := guard.pool
        rw [Machine.acquire_eq before.pool] at none pool
        have free : p'.free = [] := head?_eq_none_iff.mp none
        rw [BufferPool.acquireNext_of_nil free] at pool
        obtain rfl := Option.some.inj ((Machine.poolAt?_setPool before.pool).symm.trans pool)
        exact free
      have deferred := w.adjust (d := .defer) left rfl fun r p bs guard => .defer (empty r p bs guard)
      have stop := Machine.refillOne_of_none none
      rw [loop_of_stop (by rw [stop]), stop]
      obtain ⟨r, p, bs, guard⟩ := left.guarded
      refine ⟨[.defer], ((RxCourse.of_rests taking).deed deferred).rest (.give w.tame _ rfl), ?_, rfl,
        .inr ⟨p, ?_, empty r p bs guard⟩⟩
      · exact fun d hd => mem_singleton.mp hd ▸ rfl
      · exact (Machine.poolAt?_give _ _ _).trans guard.pool

/-- **Filling up** posts buffers, until every usable slot has one or no buffer is free. -/
theorem refill (w : RxWatch Q home T Act)
    (h : RxAt T .plain { filled := n, due := due, unrung := unrung } m) :
    ∃ ds, RxCourse Q home T.place ds m (m.refill T.place).machine ∧
      (∀ d ∈ ds, d.fills = true) ∧ (m.refill T.place).filled = ds.countP RxDeed.isPost ∧
      (n + ds.countP RxDeed.isPost = T.size.capacity ∨
        ∃ p, (m.refill T.place).machine.poolAt? T.place = some p ∧ p.free = []) := by
  obtain ⟨r, p, bs, guard⟩ := h.guarded
  have posted : r.posted = n := guard.holds.posted_eq.trans guard.filled
  have fits : n ≤ T.size.capacity := by
    have fits := guard.holds.fits
    rw [guard.filled, RxRing.capacity, guard.size] at fits
    exact fits
  have rounds : (m.rx.map RxRing.unfilled).getD 0 = T.size.capacity - n := by
    rw [guard.rx, Option.map_some, Option.getD_some, RxRing.unfilled, posted, RxRing.capacity,
      guard.size]
  obtain ⟨ds, course, fills, filled, ends⟩ := w.refillRounds _ (f := ⟨0, m⟩) h
    (RxAt.room (g := { due := due, unrung := unrung }) h)
  refine ⟨ds, course, fills, filled.trans (Nat.zero_add _), ends.imp_left fun all => ?_⟩
  rw [all, rounds]
  exact Nat.add_sub_cancel' fits

/-! ## The upper layer -/

/-- An act of the upper layer leaves the ring alone. -/
theorem act (w : RxWatch Q home T Act) (h : RxAt T .plain g m) (empty : g.Empty)
    (act : Act m m') : RxRests Q m m' := by
  have aside := w.aside _ _ act
  refine .of_enters aside.spared.rx ?_
  have quiet := (RxSteady.meanwhile aside).entered.and aside.spared.entered
  refine ((w.mild g _ _ empty h act).and quiet).mono fun e he => ⟨he.1, ?_⟩
  rw [Event.isRxOwn, he.2.1, he.2.2]
  rfl

/-- So does a callback. -/
theorem callback (w : RxWatch Q home T Act) {s : Served} (h : RxAt T .plain g s.machine)
    (empty : g.Empty) (abides : s.upper.Abides Act) : RxRests Q s.machine s.reply.machine := by
  have run := Served.run_reply abides
  have both : RxAt T .plain g s.reply.machine ∧ RxRests Q s.machine s.reply.machine := by
    generalize s.reply.machine = m' at run ⊢
    induction run with
    | refl => exact ⟨h, .refl _⟩
    | tail _ step ih => exact ⟨(w.aside _ _ step).keeps ih.1 empty, ih.2.trans (w.act ih.1 empty step)⟩
  exact both.2

/-- A frame that is dropped gives its buffer back, and nothing is entered. -/
theorem dropFrame {f : Frame} {fresh : List ReturnHandle}
    (h : RxAt T x { g with fresh := f.handle :: fresh } m) (pool : f.pool = T.place) :
    RxRests Q m (m.dropFrame f) := by
  obtain ⟨r, p, bs, guard⟩ := h.guarded
  have released := Machine.release_eq guard.pool guard.ledger.honours
  have placed : (m.setPool T.place (p.move f.handle.buffer .free)).rx = some r := guard.rx
  rw [Machine.dropFrame, pool, released]
  dsimp only
  rw [Machine.reapPool_eq placed guard.place]
  exact .of_journal_eq rfl rfl

theorem detachFrame {f : Frame} (h : RxAt T x g m) (pool : f.pool = T.place) :
    RxRests Q m (m.detachFrame f) := by
  rw [Machine.detachFrame, pool, h.reapPool_eq]
  exact .of_journal_eq rfl rfl

/-- Whatever becomes of a frame, nothing is entered. -/
theorem dispose {s : Served} {f : Frame} {fresh : List ReturnHandle}
    (h : RxAt T x { g with fresh := f.handle :: fresh } s.machine) (pool : f.pool = T.place) :
    RxRests Q s.machine (s.dispose f).machine ∧ (s.dispose f).count = s.count := by
  unfold Served.dispose
  dsimp only
  cases s.upper.disposal s.upper.frames with
  | drop => exact ⟨dropFrame h pool, rfl⟩
  | hold => exact ⟨.of_journal_eq rfl rfl, rfl⟩
  | detach => exact ⟨detachFrame h pool, rfl⟩

end RxWatch

/-! ## Taking completions in -/

section

variable (Q : Event → Prop) (home : BufferPool) (place : Nat)

/-- **One completion is taken in**: it is lost, or its frame is shown. -/
inductive RxTakes (s s' : Served) : Prop
  /-- The buffer goes back to the pool at once. -/
  | lose {slot : Nat} {b : BufferId} {c : Completion}
      (done : RxDone Q home place (.lose slot b c) s.machine s'.machine) (count : s'.count = s.count)
  /-- After the frame was shown the upper layer does as it likes. -/
  | deliver {slot : Nat} {b : BufferId} {c : Completion} {f : Frame} {bytes : List UInt8} {k : Machine}
      (done : RxDone Q home place (.deliver slot b c f bytes) s.machine k)
      (rests : RxRests Q k s'.machine) (count : s'.count = s.count + 1)

end

namespace RxWatch

variable {Q : Event → Prop} {home : BufferPool} {T : RxTrack} {Act : Machine → Machine → Prop}
  {m : Machine} {n due unrung : Nat}

/-- The oldest slot of a ring is passed, and its completion read. -/
structure Looks (Q : Event → Prop) (T : RxTrack) (m : Machine) (r : RxRing) (p : BufferPool)
    (b : BufferId) (c : Completion) (k : Machine) : Prop where
  /-- The ring has passed the slot. -/
  rx : k.rx = some r.pass
  /-- The pool has the buffer down as posted. -/
  pool : k.poolAt? T.place = some p
  /-- So it can be taken back or shown. -/
  posted : p.stateOf? b = some .posted
  /-- No more is entered than the completion. -/
  tells : m.Tells Q [.readCompletion r.headSlot c] k

/-- A completion that is due is looked at. -/
theorem looks (w : RxWatch Q home T Act) {s : Served}
    (h : RxAt T .plain { filled := n, due := due + 1, unrung := unrung } s.machine) :
    ∃ r p b rest c k,
      RxGuard T.toRxTerms .plain { filled := n, due := due + 1, unrung := unrung } s.machine r p
        (b :: rest) ∧
      Looks Q T s.machine r p b c k ∧
      RxAt T .plain
        { filled := n - 1, due := due, unrung := unrung, transit := [b], taking := .read b c } k ∧
      Machine.takeSlot s T.place = Machine.takeCompletion ⟨s.count, s.upper, k⟩ T.place b c := by
  obtain ⟨r, p, bs, guard⟩ := h.guarded
  obtain ⟨b, slot, known, passed⟩ := RxAt.pass (g := { filled := n, unrung := unrung }) h rfl
  obtain ⟨rest, rfl⟩ : ∃ rest, bs = b :: rest := by
    have filled : bs.length = n := guard.filled
    have due : due + 1 ≤ n := guard.due
    cases bs with
    | nil => exact absurd (filled ▸ due) (Nat.not_succ_le_zero _)
    | cons b' rest =>
      rw [guard.rx, Option.map_some, guard.holds.bufferAt?_headSlot] at known
      obtain rfl := Option.some.inj (Prod.mk.inj (Option.some.inj known)).2
      exact ⟨rest, rfl⟩
  rw [guard.rx, Option.map_some, guard.holds.bufferAt?_headSlot] at known
  obtain rfl := (Prod.mk.inj (Option.some.inj known)).1
  obtain ⟨c, k, answer, look⟩ :=
    RxAt.take (g := { filled := n - 1, due := due, unrung := unrung, transit := [b] }) passed
  have told := (RxRests.readCompletion w.tame (s.machine.modifyRx RxRing.pass) r.headSlot).after
    (m := s.machine) rfl
  have rx : ((s.machine.modifyRx RxRing.pass).readCompletion r.headSlot).2.rx = some r.pass := by
    rw [Machine.readCompletion, Machine.toScene_record]
    refine (Machine.rx_turn _).trans ?_
    rw [Machine.modifyRx_eq_setRx guard.rx]
    rfl
  have pool : ((s.machine.modifyRx RxRing.pass).readCompletion r.headSlot).2.poolAt? T.place =
      some p :=
    ((Machine.poolAt?_record _ _ _).trans (Machine.poolAt?_turn _ _)).trans guard.pool
  rw [answer] at told rx pool
  refine ⟨r, p, b, rest, c, k, guard, ⟨rx, pool, ?_, told⟩, look, ?_⟩
  · exact (guard.ledger.posted.mem_iff b).mp (mem_append_left _ mem_cons_self)
  · rw [Machine.takeSlot, guard.rx, Option.map_some, guard.holds.bufferAt?_headSlot]
    dsimp only [Served.onMachine]
    rw [answer]

/-- A completion that is no frame gives its buffer back at once. -/
theorem Looks.drop {k : Machine} {r : RxRing} {p : BufferPool} {b : BufferId} {c : Completion}
    (looks : Looks Q T m r p b c k) (tame : ∀ e, e.isAlarm = false → Q e) :
    (k.dropCompletion T.place b c).rx = some r.pass.noteFramingError ∧
      (k.dropCompletion T.place b c).poolAt? T.place = some (p.move b .free) ∧
      m.Tells Q [.readCompletion r.headSlot c] (k.dropCompletion T.place b c) := by
  have rx : (k.give (.rxDropping c)).rx = some r.pass := (k.rx_give _).trans looks.rx
  have pool : ((k.give (.rxDropping c)).modifyRx RxRing.noteFramingError).poolAt? T.place = some p :=
    (k.poolAt?_give _ _).trans looks.pool
  have dropped := looks.tells.trans (RxRests.give tame k (n := .rxDropping c) rfl).tells
  rw [append_nil] at dropped
  rw [Machine.dropCompletion, Machine.recycleOrReport, Machine.recycle_eq pool looks.posted]
  refine ⟨?_, Machine.poolAt?_setPool pool, dropped.quiet rfl⟩
  rw [Machine.modifyRx_eq_setRx rx]
  rfl

/-- A frame is shown. -/
theorem Looks.shown {k : Machine} {r : RxRing} {p : BufferPool} {b : BufferId} {c : Completion}
    (looks : Looks Q T m r p b c k) (tame : ∀ e, e.isAlarm = false → Q e) :
    let f := Machine.frameOf T.place r.pass p b c
    (k.showFrame T.place r.pass p b c).rx = some (r.pass.noteDelivery f.length) ∧
      (k.showFrame T.place r.pass p b c).poolAt? T.place = some (p.deliver b) ∧
      m.Tells Q [.readCompletion r.headSlot c, .delivered f (f.bytes k.memory)]
        (k.showFrame T.place r.pass p b c) := by
  intro f
  set k' := (k.setPool T.place (p.deliver b)).setRx (r.pass.noteDelivery f.length)
  have showing : k'.Tells Q [.delivered f (f.bytes k.memory)] (k.showFrame T.place r.pass p b c) :=
    .of_journal_add (e := .delivered f (f.bytes k.memory)) (Machine.journal_record _ _) (tame _ rfl)
  refine ⟨?_, ?_, looks.tells.trans (showing.after rfl)⟩
  · rw [Machine.showFrame, Machine.toScene_record]
    rfl
  · exact (Machine.poolAt?_record _ _ _).trans (Machine.poolAt?_setPool looks.pool)

/-- **The next completion is taken in.** -/
theorem takeSlot (w : RxWatch Q home T Act) {s : Served}
    (h : RxAt T .plain { filled := n, due := due + 1, unrung := unrung } s.machine)
    (abides : s.upper.Abides Act) : RxTakes Q home T.place s (Machine.takeSlot s T.place) := by
  obtain ⟨r, p, b, rest, c, k, guard, looks, look, at_once⟩ := w.looks h
  rw [at_once]
  unfold Machine.takeCompletion
  dsimp only
  rw [looks.rx, looks.pool, Option.map_some, Option.getD_some, Option.any_some]
  split
  case isTrue whole =>
    rw [Option.bind_some, BufferPool.addressOf?_eq_base looks.posted]
    dsimp only
    rw [Machine.deliverFrame_eq (s := ⟨s.count, s.upper, k⟩) looks.rx looks.pool looks.posted]
    have shown := RxAt.showFrame (g := { filled := n - 1, due := due, unrung := unrung }) look
      looks.rx looks.pool whole
    obtain ⟨rx, pool, tells⟩ := looks.shown w.tame
    set f := Machine.frameOf T.place r.pass p b c
    set s' : Served := ⟨s.count + 1, s.upper, k.showFrame T.place r.pass p b c⟩
    obtain ⟨settled, replies⟩ :=
      RxAt.dispose (g := { filled := n - 1, due := due, unrung := unrung }) (s := s') shown rfl
    obtain ⟨disposed, count⟩ := dispose (Q := Q) (s := s')
      (g := { filled := n - 1, due := due, unrung := unrung, taking := .shown f }) shown rfl
    have replied := w.callback settled ⟨rfl, rfl, rfl⟩ fun reply hreply =>
      abides reply (replies ▸ hreply)
    have shows : f.Shows r p b c := ⟨rfl, rfl, rfl, rfl⟩
    have worthy : r.deliverable p.bufferSize c = true := whole
    exact .deliver (w.done h guard (.deliver rfl worthy shows _) rx pool tells)
      (disposed.trans replied) ((Served.count_reply _).trans count)
  case isFalse lost =>
    obtain ⟨rx, pool, tells⟩ := looks.drop w.tame
    exact .lose (w.done h guard (.lose rfl looks.posted (Bool.eq_false_iff.mpr lost)) rx pool tells)
      rfl

end RxWatch

/-- No callbacks come to those that were laid down. -/
theorem Machine.replies_takeSlot (s : Served) (place : Nat) :
    (takeSlot s place).upper.replies ⊆ s.upper.replies := by
  have replied (s : Served) : s.reply.upper.replies ⊆ s.upper.replies := by
    unfold Served.reply
    split
    · exact Subset.refl _
    · next laid =>
      rw [laid]
      exact subset_cons_self _ _
  have disposed (s : Served) (f : Frame) : (s.dispose f).upper.replies = s.upper.replies := by
    unfold Served.dispose
    dsimp only
    split <;> rfl
  unfold takeSlot
  split
  · exact Subset.refl _
  · dsimp only
    split
    · unfold takeCompletion
      dsimp only
      split
      · split
        · unfold deliverFrame
          split
          · exact Subset.refl _
          · refine List.Subset.trans (replied _) ?_
            rw [disposed]
            exact Subset.refl _
        · exact Subset.refl _
      · exact Subset.refl _
    · exact Subset.refl _

/-! ## A whole service -/

/-- What is done in a service: so many frames are shown, completions dropped, buffers posted and
readings doubted.  No buffer is taken back, and the ring is not put elsewhere. -/
structure RxWork (shown lost posted doubted : Nat) (ds : List RxDeed) : Prop where
  /-- Each frame is shown once. -/
  shown : (ds.filterMap RxDeed.frame?).length = shown
  /-- Each other completion is dropped. -/
  lost : ds.countP RxDeed.isLoss = lost
  /-- Each buffer is posted once. -/
  posted : ds.countP RxDeed.isPost = posted
  /-- A reading that is not believed is noted. -/
  doubted : ds.countP RxDeed.isDoubt = doubted
  /-- No buffer is taken back without a completion. -/
  cleared : (ds.map RxDeed.cleared).sum = 0
  /-- The window moves on by what is taken in. -/
  put : ds.countP RxDeed.isResync = 0

namespace RxWork

variable {shown lost posted doubted shown' lost' posted' doubted' : Nat} {ds ds' : List RxDeed}

theorem nil : RxWork 0 0 0 0 [] := ⟨rfl, rfl, rfl, rfl, rfl, rfl⟩

theorem append (h : RxWork shown lost posted doubted ds)
    (h' : RxWork shown' lost' posted' doubted' ds') :
    RxWork (shown + shown') (lost + lost') (posted + posted') (doubted + doubted') (ds ++ ds') := by
  constructor
  · rw [filterMap_append, length_append, h.shown, h'.shown]
  · rw [countP_append, h.lost, h'.lost]
  · rw [countP_append, h.posted, h'.posted]
  · rw [countP_append, h.doubted, h'.doubted]
  · rw [map_append, sum_append, h.cleared, h'.cleared]
  · rw [countP_append, h.put, h'.put]

/-- One completion is shown or dropped. -/
theorem of_takes {Q : Event → Prop} {home : BufferPool} {place : Nat} {s s' : Served}
    (takes : RxTakes Q home place s s') :
    ∃ ds shown lost, RxCourse Q home place ds s.machine s'.machine ∧ RxWork shown lost 0 0 ds ∧
      shown + lost = 1 ∧ s'.count = s.count + shown ∧ ∀ d ∈ ds, d.serves = true := by
  cases takes with
  | lose done count =>
    exact ⟨_, 0, 1, .of_done done, ⟨rfl, rfl, rfl, rfl, rfl, rfl⟩, rfl, count,
      fun d hd => mem_singleton.mp hd ▸ rfl⟩
  | deliver done rests count =>
    exact ⟨_, 1, 0, (RxCourse.of_done done).rest rests, ⟨rfl, rfl, rfl, rfl, rfl, rfl⟩, rfl, count,
      fun d hd => mem_singleton.mp hd ▸ rfl⟩

/-- Filling up shows no frame and drops none. -/
theorem of_fills (fills : ∀ d ∈ ds, d.fills = true) : RxWork 0 0 (ds.countP RxDeed.isPost) 0 ds := by
  induction ds with
  | nil => exact nil
  | cons d ds ih =>
    have rest := ih fun d' hd' => fills d' (mem_cons_of_mem d hd')
    have first : RxWork 0 0 ([d].countP RxDeed.isPost) 0 [d] := by
      have here := fills d mem_cons_self
      cases d <;> first | exact ⟨rfl, rfl, rfl, rfl, rfl, rfl⟩ | exact absurd here Bool.false_ne_true
    have both := first.append rest
    rwa [singleton_append, ← countP_append, singleton_append] at both

end RxWork

namespace Machine

/-- The service of a running ring, after so many completions. -/
def serviceAfter (m : Machine) (u : Upper) (place k : Nat) : RxService :=
  loop (RxService.round place) k
    ⟨.start u ((m.readCounter .rxConsumer).2.checkRxReading m.rxReading), 0⟩

/-- At the end of a service the ring is filled up once more, and the doorbell is rung. -/
theorem serveRx_eq {m : Machine} {n : Nat}
    (ready : ((m.readCounter .rxConsumer).2.rx.map fun r => r.ready m.rxReading).getD 0 = n)
    (u : Upper) (place : Nat) :
    m.serveRx u place =
      ((m.serviceAfter u place n).refill place).served.onMachine fun k =>
        (k.ringRx ((m.serviceAfter u place n).refill place).filled).giveIf (n != 0)
          (.rxServed n ((m.serviceAfter u place n).refill place).served.count
            ((m.serviceAfter u place n).refill place).filled) := by
  subst ready
  rfl

theorem replies_serviceAfter (m : Machine) (u : Upper) (place k : Nat) :
    (m.serviceAfter u place k).served.upper.replies ⊆ u.replies :=
  loop_keeps (P := fun s : RxService => s.served.upper.replies ⊆ u.replies)
    (fun s h => List.Subset.trans (replies_takeSlot s.served place) h) k (Subset.refl _)

end Machine

namespace RxWatch

variable {Q : Event → Prop} {home : BufferPool} {T : RxTrack} {Act : Machine → Machine → Prop}
  {g : Hands} {m : Machine} {n due unrung : Nat}

theorem abides (w : RxWatch Q home T Act) {u : Upper} (bound : u.Abides Act) :
    u.Abides (RxMeanwhile T.permits T.place) :=
  bound.mono fun _ _ act => .single (w.aside _ _ act)

/-- **Completions are taken in one after the other**, and after each the ring is filled up. -/
theorem serveRounds (w : RxWatch Q home T Act) (rounds : Nat) {later : Nat} {s : Machine.RxService}
    (h : RxAt T .plain { filled := n, due := later + rounds, unrung := s.filled } s.served.machine)
    (bound : s.served.upper.Abides Act) :
    ∃ ds shown lost posted,
      RxCourse Q home T.place ds s.served.machine
        (loop (Machine.RxService.round T.place) rounds s).served.machine ∧
      RxWork shown lost posted 0 ds ∧ shown + lost = rounds ∧
      (loop (Machine.RxService.round T.place) rounds s).served.count = s.served.count + shown ∧
      (loop (Machine.RxService.round T.place) rounds s).filled = s.filled + posted ∧
      ∀ d ∈ ds, d.serves = true := by
  induction rounds generalizing n s with
  | zero => exact ⟨[], 0, 0, 0, .refl _, .nil, rfl, rfl, rfl, fun d hd => absurd hd not_mem_nil⟩
  | succ rounds ih =>
    obtain ⟨⟨n₁, taken⟩, -⟩ := h.takeSlot (w.abides bound)
    obtain ⟨n₂, refilled⟩ := taken.refill
    obtain ⟨ts, shown₁, lost₁, taking, work₁, one, count₁, serves₁⟩ :=
      RxWork.of_takes (w.takeSlot h bound)
    obtain ⟨fs, filling, fills, filled, -⟩ := w.refill taken
    obtain ⟨ds, shown, lost, posted, course, work, all, count, total, serves⟩ :=
      ih (s := (Machine.RxService.round T.place s).2) refilled
        fun reply hreply => bound reply (Machine.replies_takeSlot s.served T.place hreply)
    rw [loop_of_again rfl]
    refine ⟨ts ++ fs ++ ds, _, _, _, (taking.trans filling).trans course,
      (work₁.append (.of_fills fills)).append work, ?_, ?_, ?_, ?_⟩
    · omega
    · rw [count]
      show (Machine.takeSlot s.served T.place).count + shown = _
      rw [count₁]
      omega
    · rw [total]
      show s.filled + ((Machine.takeSlot s.served T.place).machine.refill T.place).filled + posted = _
      rw [filled]
      omega
    · intro d hd
      rcases mem_append.mp hd with hd | hd
      · exact (mem_append.mp hd).elim (serves₁ d) fun hd => RxDeed.serves_of_fills (fills d hd)
      · exact serves d hd

/-- A reading that is not believed is noted. -/
theorem checkRxReading (w : RxWatch Q home T Act) (h : RxAt T .plain g m) {r : RxRing}
    (rx : m.rx = some r) (c : Counter) :
    ∃ ds, RxCourse Q home T.place ds m (m.checkRxReading c) ∧
      RxWork 0 0 0 (if r.believes c then 0 else 1) ds ∧ ∀ d ∈ ds, d.serves = true := by
  have noted := RxRests.giveIf w.tame m (!r.believes c) (n := .rxBadConsumer c r.consumer r.producer)
    rfl
  have check : m.checkRxReading c =
      (m.giveIf (!r.believes c) (.rxBadConsumer c r.consumer r.producer)).modifyRx fun r =>
        r.noteReading c := by
    rw [Machine.checkRxReading, rx]
  rw [check]
  cases believed : r.believes c with
  | true =>
    rw [believed] at noted
    have same : r.noteReading c = r := if_pos believed
    refine ⟨[], .of_rests (noted.trans (.of_journal_eq ?_ rfl)), .nil,
      fun d hd => absurd hd not_mem_nil⟩
    rw [Machine.modifyRx_eq_setRx (noted.rx.trans rx), same]
    exact (noted.rx.trans rx).symm
  | false =>
    rw [believed] at noted
    have doubted := w.adjust (d := .doubt c) (h.giveIf (!false) _) rfl fun q p bs guard => by
      obtain rfl := Option.some.inj (guard.rx.symm.trans (noted.rx.trans rx))
      exact .doubt believed
    exact ⟨[.doubt c], (RxCourse.of_rests noted).deed doubted, ⟨rfl, rfl, rfl, rfl, rfl, rfl⟩,
      fun d hd => mem_singleton.mp hd ▸ rfl⟩

/-- The doorbell is rung if buffers were posted. -/
theorem ringRx (w : RxWatch Q home T Act) (h : RxAt T .plain g m) (filled : Nat) :
    ∃ ds, RxCourse Q home T.place ds m (m.ringRx filled) ∧ RxWork 0 0 0 0 ds := by
  unfold Machine.ringRx
  split
  · exact ⟨[], .refl m, .nil⟩
  · obtain ⟨c, rung⟩ := w.ring h
    exact ⟨[.ring c], .of_done rung, ⟨rfl, rfl, rfl, rfl, rfl, rfl⟩⟩

/-- What a service of a running ring begins with. -/
theorem beginning (w : RxWatch Q home T Act) (h : RxAt T .plain { filled := n } m) {r : RxRing}
    (rx : m.rx = some r) :
    ∃ ds, RxCourse Q home T.place ds m
        ((m.readCounter .rxConsumer).2.checkRxReading m.rxReading) ∧
      RxWork 0 0 0 (if r.believes m.rxReading then 0 else 1) ds ∧ (∀ d ∈ ds, d.serves = true) ∧
      RxAt T .plain { filled := n, due := r.ready m.rxReading }
        ((m.readCounter .rxConsumer).2.checkRxReading m.rxReading) ∧
      ((m.readCounter .rxConsumer).2.rx.map fun r => r.ready m.rxReading).getD 0 =
        r.ready m.rxReading := by
  have rests := RxRests.readCounter w.tame m .rxConsumer
  obtain ⟨k, answer, ⟨q, p, bs, guard⟩, run⟩ := h.readCounter .rxConsumer
  have reading : m.rxReading = k.adapter.counter .rxConsumer := by
    rw [Machine.rxReading, answer]
  rw [answer] at rests
  rw [answer, reading]
  dsimp only
  obtain rfl : q = r := Option.some.inj (guard.rx.symm.trans (rests.rx.trans rx))
  have announced : RxAt T .plain
      { filled := n, due := q.ready (k.adapter.counter .rxConsumer) } k :=
    ⟨⟨q, p, bs, guard.announce⟩, run⟩
  obtain ⟨ds, course, work, serves⟩ :=
    w.checkRxReading announced guard.rx (k.adapter.counter .rxConsumer)
  refine ⟨ds, (RxCourse.of_rests rests).trans course, work, serves, announced.checkRxReading _, ?_⟩
  rw [guard.rx]
  rfl

/-- Where a service stands after so many completions. -/
theorem midway (w : RxWatch Q home T Act) (h : RxAt T .plain { filled := n } m) {u : Upper}
    (bound : u.Abides Act) {r : RxRing} (rx : m.rx = some r) {k later : Nat}
    (all : later + k = r.ready m.rxReading) :
    ∃ n', RxAt T .plain
      { filled := n', due := later, unrung := (m.serviceAfter u T.place k).filled }
      (m.serviceAfter u T.place k).served.machine := by
  obtain ⟨-, -, -, -, announced, -⟩ := w.beginning h rx
  rw [← all] at announced
  exact (RxAt.serveRounds k (s := ⟨.start u _, 0⟩) announced (w.abides bound)).1

/-- **A service before the doorbell**: what is announced is taken in, and then the ring is as full as
the free buffers allow. -/
theorem serving (w : RxWatch Q home T Act) (h : RxAt T .plain { filled := n } m) {u : Upper}
    (bound : u.Abides Act) {r : RxRing} (rx : m.rx = some r) :
    ∃ (s : Machine.RxService) (ds : List RxDeed) (lost n' : Nat),
      RxCourse Q home T.place ds m s.served.machine ∧
      RxWork s.served.count lost s.filled (if r.believes m.rxReading then 0 else 1) ds ∧
      (∀ d ∈ ds, d.serves = true) ∧ s.served.count + lost = r.ready m.rxReading ∧
      RxAt T .plain { filled := n', unrung := s.filled } s.served.machine ∧
      (n' = T.size.capacity ∨ ∃ p, s.served.machine.poolAt? T.place = some p ∧ p.free = []) ∧
      m.serveRx u T.place = s.served.onMachine fun k =>
        (k.ringRx s.filled).giveIf (r.ready m.rxReading != 0)
          (.rxServed (r.ready m.rxReading) s.served.count s.filled) := by
  obtain ⟨bs, begun, work₀, serves₀, announced, ready⟩ := w.beginning h rx
  rw [← Nat.zero_add (r.ready m.rxReading)] at announced
  obtain ⟨ds, shown, lost, posted, rounds, work₁, all, count, filled, serves₁⟩ :=
    w.serveRounds (r.ready m.rxReading) (s := ⟨.start u _, 0⟩) announced bound
  obtain ⟨n₁, served⟩ := w.midway h bound rx (Nat.zero_add _)
  obtain ⟨fs, filling, fills, posts, ends⟩ := w.refill served
  obtain ⟨n₂, refilled⟩ := served.refill
  let s := (m.serviceAfter u T.place (r.ready m.rxReading)).refill T.place
  have shows : s.served.count = shown := count.trans (Nat.zero_add shown)
  have holds : s.filled = posted + fs.countP RxDeed.isPost := by
    show (m.serviceAfter u T.place (r.ready m.rxReading)).filled + _ = _
    rw [posts]
    exact congrArg (· + _) (filled.trans (Nat.zero_add posted))
  have more : n₂ = n₁ + fs.countP RxDeed.isPost := by
    obtain ⟨q, _, qs, before⟩ := served.guarded
    obtain ⟨q', _, qs', after⟩ := refilled.guarded
    obtain ⟨q'', qs'', rx'', holds'', accounts, -⟩ := filling.accounts before.rx before.holds
    obtain rfl := Option.some.inj (rx''.symm.trans after.rx)
    have work := RxWork.of_fills fills
    have posted := accounts.posted
    rw [work.shown, work.lost, work.cleared, ← holds''.posted_eq, after.holds.posted_eq] at posted
    have before : qs.length = n₁ := before.filled
    have after : qs'.length = n₂ := after.filled
    omega
  refine ⟨s, bs ++ ds ++ fs, lost, n₂, (begun.trans rounds).trans filling, ?_, ?_, ?_, refilled, ?_,
    Machine.serveRx_eq ready u T.place⟩
  · have work := (work₀.append work₁).append (.of_fills fills)
    simp only [Nat.zero_add, Nat.add_zero] at work
    rwa [shows, holds]
  · intro d hd
    rcases mem_append.mp hd with hd | hd
    · exact (mem_append.mp hd).elim (serves₀ d) (serves₁ d)
    · exact RxDeed.serves_of_fills (fills d hd)
  · rw [shows]
    exact all
  · rw [more]
    exact ends

/-- **Serving a running ring** takes in what is announced. -/
theorem serveRx (w : RxWatch Q home T Act) (h : RxAt T .plain { filled := n } m) {u : Upper}
    (bound : u.Abides Act) {r : RxRing} (rx : m.rx = some r) :
    ∃ ds lost posted, RxCourse Q home T.place ds m (m.serveRx u T.place).machine ∧
      RxWork (m.serveRx u T.place).count lost posted (if r.believes m.rxReading then 0 else 1) ds ∧
      (m.serveRx u T.place).count + lost = r.ready m.rxReading := by
  obtain ⟨s, ds, lost, n', course, work, -, all, served, -, answer⟩ := w.serving h bound rx
  obtain ⟨rs, ringing, rung⟩ := w.ringRx served s.filled
  rw [answer]
  refine ⟨ds ++ rs, lost, s.filled, ?_, work.append rung, all⟩
  exact (course.trans ringing).rest (.giveIf w.tame _ _ rfl)

/-- **Serving a ring** that is not running takes nothing in. -/
theorem advanceRx_of_idle (w : RxWatch Q home T Act) (h : RxAt T .plain { filled := n } m) (u : Upper)
    {r : RxRing} (rx : m.rx = some r) (idle : r.phase ≠ .running) :
    ∃ ds, RxCourse Q home T.place ds m (m.advanceRx u).machine ∧ (ds = [] ∨ ds = [.clear n]) ∧
      (m.advanceRx u).count = 0 := by
  unfold Machine.advanceRx
  rw [rx]
  dsimp only
  split
  · exact ⟨[], .refl m, .inl rfl, rfl⟩
  · exact ⟨[.clear n], w.recyclePosted h, .inr rfl, rfl⟩
  · next running => exact absurd running idle

/-- **Serving a running ring.** -/
theorem advanceRx_of_running (w : RxWatch Q home T Act) (h : RxAt T .plain { filled := n } m)
    {u : Upper} (bound : u.Abides Act) {r : RxRing} (rx : m.rx = some r) (running : r.phase = .running) :
    ∃ ds lost posted, RxCourse Q home T.place ds m (m.advanceRx u).machine ∧
      RxWork (m.advanceRx u).count lost posted (if r.believes m.rxReading then 0 else 1) ds ∧
      (m.advanceRx u).count + lost = r.ready m.rxReading := by
  have draws : r.pool = T.place := by
    obtain ⟨q, p, bs, guard⟩ := h.guarded
    obtain rfl := Option.some.inj (guard.rx.symm.trans rx)
    exact guard.place
  have served : m.advanceRx u = m.serveRx u T.place := by
    unfold Machine.advanceRx
    rw [rx]
    dsimp only
    rw [running, draws]
  rw [served]
  exact w.serveRx h bound rx

/-- **Serving a ring** is a list of deeds in any case. -/
theorem advanceRx (w : RxWatch Q home T Act) (h : RxAt T .plain { filled := n } m) {u : Upper}
    (bound : u.Abides Act) : ∃ ds, RxCourse Q home T.place ds m (m.advanceRx u).machine := by
  obtain ⟨r, p, bs, guard⟩ := h.guarded
  by_cases running : r.phase = .running
  · obtain ⟨ds, -, -, course, -⟩ := w.advanceRx_of_running h bound guard.rx running
    exact ⟨ds, course⟩
  · obtain ⟨ds, course, -⟩ := w.advanceRx_of_idle h u guard.rx running
    exact ⟨ds, course⟩

end RxWatch

/-! ## Runs -/

section

variable {Q : Event → Prop} {home : BufferPool} {T : RxTrack} {m m' : Machine} {n : Nat}

/-- **The upper layer raises no alarm** by what it does to its frames and handles. -/
theorem RxWatch.holding (tame : ∀ e, e.isAlarm = false → Q e)
    (origin : T.origin.2.poolAt? T.place = some home) :
    RxWatch Q home T (Holding T.permits T.place) := by
  refine ⟨tame, origin, fun _ _ act => .holding act, fun g k k' empty h act => ?_⟩
  have removed (i : Nat) : k.Enters Q (k.removeFrame i) := .of_journal_eq Q rfl
  cases act with
  | @drop i f held =>
    obtain ⟨pool, h'⟩ := h.removeFrame held
    exact (removed i).trans (dropFrame h' pool).tells.enters
  | @detach i f held =>
    obtain ⟨pool, h'⟩ := h.removeFrame held
    exact (removed i).trans (detachFrame h' pool).tells.enters
  | release =>
    refine .of_journal_eq Q ?_
    unfold Machine.release
    split <;> rfl
  | reply o => exact .record (tame _ rfl) k
  | move => exact .move (fun _ => tame _ rfl) k _

/-- **Every request is a list of deeds.** -/
theorem RxWatch.request (w : RxWatch Q home T (Holding T.permits T.place))
    (h : RxAt T .plain { filled := n } m) (allowed : T.switches)
    (request : RxRequest T.permits T.place m m') : ∃ ds, RxCourse Q home T.place ds m m' := by
  cases request with
  | start =>
    obtain ⟨ds, course, -⟩ := w.startRx h allowed
    exact ⟨_, course⟩
  | cancel =>
    obtain ⟨ds, course, -⟩ := w.cancelRx h allowed
    exact ⟨ds, course⟩
  | advance bound => exact w.advanceRx h bound
  | holding act => exact ⟨[], .of_rests (w.act h ⟨rfl, rfl, rfl⟩ act)⟩
  | plan => exact ⟨[], .of_rests (.of_journal_eq rfl rfl)⟩

/-- **So is every run.** -/
theorem RxWatch.run (w : RxWatch Q home T (Holding T.permits T.place))
    (h : RxAt T .plain { filled := n } m) (allowed : T.switches)
    (run : ReflTransGen (RxRequest T.permits T.place) m m') :
    ∃ ds n', RxCourse Q home T.place ds m m' ∧ RxAt T .plain { filled := n' } m' := by
  induction run with
  | refl => exact ⟨[], n, .refl m, h⟩
  | tail _ request ih =>
    obtain ⟨ds, n₁, course, h₁⟩ := ih
    obtain ⟨ds', course'⟩ := w.request h₁ allowed request
    obtain ⟨n₂, h₂⟩ := request.course allowed h₁
    exact ⟨ds ++ ds', n₂, course.trans course', h₂⟩

end

end DescriptorRings
