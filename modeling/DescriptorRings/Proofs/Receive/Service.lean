import DescriptorRings.Proofs.Receive.Hands

/-!
# Every receive request keeps the guard

The requests to a receive ring, put together from the actions of `Proofs.Receive.Steps` and
`Proofs.Receive.Hands`: starting and cancelling, and serving a ring that is running or cancelled.
Each begins and ends with empty hands (`RxIdle`).

The upper layer is called in the middle of a service, between two completions.  The hands of the
driver are empty then as well, although completions may be due and the doorbell may be behind; so
whatever the upper layer does with its frames and handles keeps the guard too (`Holding.keeps`).
-/

namespace DescriptorRings

open Relation List

/-! ## What the upper layer may do -/

/-- What happens in the callbacks of a receive ring, and between requests: the upper layer drops or
detaches frames that it holds and uses handles that it detached, each once; it is entered what its
request came to; and the adapter makes moves. -/
inductive Holding (permits : Move → Prop) (place : Nat) : Machine → Machine → Prop
  /-- A frame that is held is dropped. -/
  | drop (m : Machine) {i : Nat} {f : Frame} (held : m.frameAt? i = some f) :
      Holding permits place m ((m.removeFrame i).dropFrame f)
  /-- The handle of a frame that is held is detached. -/
  | detach (m : Machine) {i : Nat} {f : Frame} (held : m.frameAt? i = some f) :
      Holding permits place m ((m.removeFrame i).detachFrame f)
  /-- A buffer is released under the word of a handle, which is used up by that. -/
  | release (m : Machine) {i : Nat} {w : UInt64} (unused : m.handles[i]? = some (.ofRaw w)) :
      Holding permits place m
        { (m.release place (.ofRaw w)).2 with handles := m.handles.eraseIdxIfInBounds i }
  /-- What a request came to is entered. -/
  | reply (m : Machine) (o : Outcome) : Holding permits place m (m.record (.replied o))
  /-- The adapter makes a move. -/
  | move (m : Machine) {mv : Move} (h : permits mv) : Holding permits place m (m.move mv)

/-- What can happen while a request is under way without being a part of it: the upper layer gives
buffers back, and whatever concerns other parts. -/
inductive RxMeanwhile (permits : Move → Prop) (place : Nat) : Machine → Machine → Prop
  /-- Something of the things that happen in callbacks. -/
  | holding {m m' : Machine} (h : Holding permits place m m') : RxMeanwhile permits place m m'
  /-- The adapter has its turn. -/
  | turn (m : Machine) : RxMeanwhile permits place m m.turn
  /-- The adapter changes its plans. -/
  | plan (m : Machine) {agenda : List (List Move)} (h : Machine.Permitted permits agenda) :
      RxMeanwhile permits place m { m with agenda := agenda }
  /-- Something is noted. -/
  | note (m : Machine) {e : Event} (h : e.isNote = true) : RxMeanwhile permits place m (m.record e)
  /-- A register is written that is none of this direction. -/
  | write (m : Machine) {reg : Register} (v : UInt32)
      (other : reg ∉ [Lane.rx.producer, Lane.rx.consumer, Lane.rx.control]) :
      RxMeanwhile permits place m (m.poke reg v)
  /-- A transmit descriptor is written. -/
  | writeTx (m : Machine) (slot : Nat) (d : TxDescriptor) :
      RxMeanwhile permits place m (m.pokeTx slot d)
  /-- Another part of the machine changes. -/
  | elsewhere (m : Machine) (tx : Option TxRing) (arbiter : Option Arbiter)
      (stalled : Option Direction) :
      RxMeanwhile permits place m { m with tx := tx, arbiter := arbiter, stalled := stalled }

theorem Upper.Abides.aside {permits : Move → Prop} {place : Nat} {u : Upper}
    (h : u.Abides (Holding permits place)) : u.Abides (RxMeanwhile permits place) :=
  h.mono fun _ _ act => .single (.holding act)

/-- A request to the receive ring, or something that happens between two of them. -/
inductive RxRequest (permits : Move → Prop) (place : Nat) : Machine → Machine → Prop
  /-- The ring is started, or that is refused. -/
  | start (m : Machine) : RxRequest permits place m m.startRx.2
  /-- The ring is cancelled. -/
  | cancel (m : Machine) : RxRequest permits place m m.cancelRx
  /-- The ring is served. -/
  | advance (m : Machine) {u : Upper} (h : u.Abides (Holding permits place)) :
      RxRequest permits place m (m.advanceRx u).machine
  /-- Something of the things that may also happen in a callback. -/
  | holding {m m' : Machine} (h : Holding permits place m m') : RxRequest permits place m m'
  /-- The adapter changes its plans. -/
  | plan (m : Machine) {agenda : List (List Move)} (h : Machine.Permitted permits agenda) :
      RxRequest permits place m { m with agenda := agenda }

/-- What happens between a start and the next start or cancellation: the ring is served, and the
upper layer and the adapter do what they may also do in a callback. -/
inductive RxUse (permits : Move → Prop) (place : Nat) : Machine → Machine → Prop
  /-- The ring is served. -/
  | advance (m : Machine) {u : Upper} (h : u.Abides (Holding permits place)) :
      RxUse permits place m (m.advanceRx u).machine
  /-- Something of the things that may also happen in a callback. -/
  | holding {m m' : Machine} (h : Holding permits place m m') : RxUse permits place m m'
  /-- The adapter changes its plans. -/
  | plan (m : Machine) {agenda : List (List Move)} (h : Machine.Permitted permits agenda) :
      RxUse permits place m { m with agenda := agenda }

/-! ## What the operations come to -/

namespace Machine

/-- The frame that a completion of a buffer stands for. -/
def frameOf (place : Nat) (r : RxRing) (p : BufferPool) (b : BufferId) (c : Completion) : Frame where
  pool := place
  handle := (p.deliver b).handleOf b
  address := p.base b
  pad := r.pad
  length := c.length.toNat - r.pad

/-- The machine just after that frame was shown. -/
def showFrame (m : Machine) (place : Nat) (r : RxRing) (p : BufferPool) (b : BufferId)
    (c : Completion) : Machine :=
  ((m.setPool place (p.deliver b)).setRx (r.noteDelivery (frameOf place r p b c).length)).record
    (.delivered (frameOf place r p b c) ((frameOf place r p b c).bytes m.memory))

/-- **A posted buffer can be delivered**: its frame is shown, and the upper layer says what becomes of
it before it is called. -/
theorem deliverFrame_eq {s : Served} {place : Nat} {r : RxRing} {p : BufferPool} {b : BufferId}
    {c : Completion} (rx : s.machine.rx = some r) (pool : s.machine.poolAt? place = some p)
    (posted : p.stateOf? b = some .posted) :
    deliverFrame s place b (p.base b) c.length.toNat =
      (Served.dispose ⟨s.count + 1, s.upper, s.machine.showFrame place r p b c⟩
        (frameOf place r p b c)).reply := by
  have placed : (s.machine.setPool place (p.deliver b)).rx = some r := rx
  unfold deliverFrame
  rw [markDelivered_eq pool posted]
  dsimp only
  rw [placed, Option.map_some, Option.getD_some, modifyRx_eq_setRx placed]
  rfl

variable {place : Nat} {f : Refill} {b : BufferId} {m : Machine}

/-- A free buffer is posted. -/
theorem refillOne_of_some (taken : (f.machine.acquire place).1 = some b)
    (posted : (f.machine.acquire place).2.postBuffer place b = (.ok (), m)) :
    refillOne place f = (true, ⟨f.filled + 1, m⟩) := by
  unfold refillOne
  generalize f.machine.acquire place = a at taken posted ⊢
  obtain ⟨_, k⟩ := a
  obtain rfl := taken
  dsimp only at posted ⊢
  rw [posted]

/-- Without a free buffer the ring waits. -/
theorem refillOne_of_none (none : (f.machine.acquire place).1 = none) :
    refillOne place f =
      (false, ⟨f.filled, ((f.machine.acquire place).2.modifyRx RxRing.noteDeferral).give
        .rxRefillDeferred⟩) := by
  unfold refillOne
  generalize f.machine.acquire place = a at none ⊢
  obtain ⟨_, k⟩ := a
  obtain rfl := none
  rfl

end Machine

variable {T : RxTrack} {x : RxStage} {g : Hands} {m m' : Machine} {n due unrung : Nat}

/-- Nothing is in the hands of the driver. -/
structure Hands.Empty (g : Hands) : Prop where
  /-- No buffer is going to be posted. -/
  batch : g.batch = []
  /-- No completion is being taken in. -/
  transit : g.transit = []
  /-- No handle is being handed over. -/
  fresh : g.fresh = []

/-- **The upper layer cannot disturb the guard**, and finds it intact after each request. -/
theorem Holding.keeps (h : Holding T.permits T.place m m') (inv : RxAt T x g m) (empty : g.Empty) :
    RxAt T x g m' := by
  cases h with
  | drop held =>
    obtain ⟨pool, inv'⟩ := inv.removeFrame held
    exact inv'.dropFrame pool
  | detach held =>
    obtain ⟨pool, inv'⟩ := inv.removeFrame held
    exact inv'.detachFrame pool
  | release unused => exact inv.releaseHandle unused
  | reply o => exact inv.reply empty.batch empty.transit empty.fresh o
  | move permitted => exact inv.move permitted

theorem RxMeanwhile.keeps (h : RxMeanwhile T.permits T.place m m') (inv : RxAt T x g m)
    (empty : g.Empty) : RxAt T x g m' := by
  cases h with
  | holding act => exact act.keeps inv empty
  | turn => exact inv.turn
  | plan permitted => exact inv.plan permitted
  | note note => exact inv.note note
  | write v other => exact inv.write v other
  | writeTx slot d => exact inv.writeTx slot d
  | elsewhere tx arbiter stalled => exact inv.elsewhere tx arbiter stalled

namespace RxAt

/-- A callback keeps the guard, and the later ones are bound by the same rule. -/
theorem callback {s : Served} (h : RxAt T x g s.machine) (empty : g.Empty)
    (abides : s.upper.Abides (RxMeanwhile T.permits T.place)) :
    RxAt T x g s.reply.machine ∧ s.reply.upper.Abides (RxMeanwhile T.permits T.place) := by
  refine ⟨?_, Served.abides_reply abides⟩
  have run := Served.run_reply abides
  generalize s.reply.machine = m' at run ⊢
  induction run with
  | refl => exact h
  | tail _ step ih => exact step.keeps ih empty

/-! ## Batches -/

/-- The order of a batch does not matter. -/
theorem batch_perm {batch batch' : List BufferId} (h : RxAt T x { g with batch := batch } m)
    (same : batch ~ batch') : RxAt T x { g with batch := batch' } m := by
  obtain ⟨⟨r, p, bs, guard⟩, past⟩ := h
  refine ⟨⟨r, p, bs, { guard with
    ledger := guard.ledger.perm same (.refl _) (.refl _)
    window := fun lawful on => ?_ }⟩, past⟩
  have window := guard.window lawful on
  exact ⟨window.running, window.producer, window.within⟩

/-- One more buffer is acquired, if there is one. -/
theorem nextOfBatch {b : Machine.Batch} (h : RxAt T x { g with batch := b.buffers } b.machine) :
    (Machine.Batch.next T.place b).2.buffers.length ≤ b.buffers.length + 1 ∧
      RxAt T x { g with batch := (Machine.Batch.next T.place b).2.buffers }
        (Machine.Batch.next T.place b).2.machine := by
  have taken := h.acquire
  unfold Machine.Batch.next
  generalize b.machine.acquire T.place = a at taken ⊢
  obtain ⟨next, k⟩ := a
  rcases taken with ⟨id, rfl, acquired⟩ | ⟨rfl, left⟩
  · exact ⟨Nat.le_refl _, acquired⟩
  · exact ⟨Nat.le_succ _, left⟩

/-- A batch is acquired, as large as the pool allows. -/
theorem acquireMany (h : RxAt T x { g with batch := [] } m) (count : Nat) :
    (m.acquireMany T.place count).1.length ≤ count ∧
      RxAt T x { g with batch := (m.acquireMany T.place count).1 }
        (m.acquireMany T.place count).2 := by
  have rounds (count : Nat) (b : Machine.Batch)
      (hb : RxAt T x { g with batch := b.buffers } b.machine) :
      (loop (Machine.Batch.next T.place) count b).buffers.length ≤ b.buffers.length + count ∧
        RxAt T x { g with batch := (loop (Machine.Batch.next T.place) count b).buffers }
          (loop (Machine.Batch.next T.place) count b).machine := by
    induction count generalizing b with
    | zero => exact ⟨Nat.le_refl _, hb⟩
    | succ count ih =>
      obtain ⟨one, next⟩ := hb.nextOfBatch
      cases again : (Machine.Batch.next T.place b).1 with
      | true =>
        obtain ⟨short, all⟩ := ih _ next
        rw [loop_of_again again]
        exact ⟨by omega, all⟩
      | false =>
        rw [loop_of_stop again]
        exact ⟨by omega, next⟩
  obtain ⟨short, acquired⟩ := rounds count ⟨[], m⟩ h
  refine ⟨?_, acquired.batch_perm (reverse_perm _).symm⟩
  rw [Machine.acquireMany, length_reverse]
  exact short.trans (Nat.zero_add count).le

/-- A batch that is too small can be put back. -/
theorem putBackAll (batch : List BufferId) (h : RxAt T x { g with batch := batch } m) :
    ∃ m', Machine.forBuffers (fun b m => m.putBack T.place b) batch m = (.ok (), m') ∧
      RxAt T x { g with batch := [] } m' := by
  induction batch generalizing m with
  | nil => exact ⟨m, rfl, h⟩
  | cons b batch ih =>
    obtain ⟨k, put, hk⟩ := h.putBack
    obtain ⟨m', rest, h'⟩ := ih hk
    refine ⟨m', ?_, h'⟩
    rw [Machine.forBuffers, put]
    exact rest

/-- A batch that is large enough can be posted. -/
theorem postAll (batch : List BufferId) (h : RxAt T x { g with batch := batch } m)
    (idle : g.taking = .nothing) (room : g.filled + batch.length ≤ T.size.capacity)
    (stays : ∀ (a : Adapter) (r : RxRing) (b : BufferId), x.Knows a r → x.Knows a (r.post b)) :
    ∃ m', Machine.forBuffers (fun b m => m.postBuffer T.place b) batch m = (.ok (), m') ∧
      RxAt T x
        { g with
          batch := []
          filled := g.filled + batch.length
          unrung := g.unrung + batch.length } m' := by
  induction batch generalizing m g with
  | nil => exact ⟨m, rfl, h⟩
  | cons b batch ih =>
    rw [length_cons] at room
    obtain ⟨k, post, hk⟩ := h.post idle (by omega) stays
    obtain ⟨m', rest, h'⟩ :=
      ih (g := { g with filled := g.filled + 1, unrung := g.unrung + 1 }) hk idle (by
        show g.filled + 1 + batch.length ≤ T.size.capacity
        omega)
    refine ⟨m', ?_, ?_⟩
    · rw [Machine.forBuffers, post]
      exact rest
    · have filled : g.filled + 1 + batch.length = g.filled + (batch.length + 1) := by omega
      have unrung : g.unrung + 1 + batch.length = g.unrung + (batch.length + 1) := by omega
      rw [length_cons, ← filled, ← unrung]
      exact h'

/-! ## Taking all buffers back -/

/-- While the direction is off, all posted buffers can be taken back. -/
theorem recyclePosted (h : RxAt T .silenced { filled := n } m) :
    RxAt T .silenced {} m.recyclePosted := by
  obtain ⟨⟨r, p, bs, guard⟩, run⟩ := h
  obtain ⟨p', emptied, kept, ledger⟩ :=
    Machine.recyclePosted_eq guard.rx (guard.place ▸ guard.pool) guard.between
  rw [guard.place] at emptied
  have cleared : RxAt T .silenced {} ((m.setPool T.place p').setRx r.clear) := by
    have target : RxGuard T.toRxTerms .silenced {} ((m.setPool T.place p').setRx r.clear) r.clear
        p' [] := by
      refine ⟨rfl, Machine.poolAt?_setPool guard.pool, guard.place, guard.size, guard.complete,
        guard.planned, guard.holds.clear, rfl, ledger, guard.frames, Nat.le_refl _, .nil _ _ _,
        guard.knows, fun lawful on => ?_⟩
      exact absurd ((guard.knows lawful).symm.trans on) Bool.false_ne_true
    exact reach run guard target (.clear kept guard.knows)
  rw [emptied]
  exact cleared.giveIf _ _

/-! ## Starting and cancelling -/

theorem abortStart {batch : List BufferId} (h : RxAt T .silenced { batch := batch } m)
    (needed : Nat) :
    (m.abortStart T.place needed batch).1 =
        .error (.insufficientBuffers needed batch.length) ∧
      RxAt T .plain {} (m.abortStart T.place needed batch).2 := by
  obtain ⟨k, put, hk⟩ := putBackAll (g := {}) batch h
  have stopped : RxAt T .silenced {} (k.modifyRx fun r => r.enter .stopped) :=
    hk.enterPhase .stopped (fun _ _ off => off) fun _ _ off => off
  rw [Machine.abortStart, put]
  exact ⟨rfl, (stopped.give _).forget⟩

/-- The counter is read and the ring is put there, while the direction is off. -/
theorem resync (h : RxAt T .silenced { g with filled := 0 } m) (idle : g.taking = .nothing) :
    RxAt T .aligned { g with filled := 0 }
      ((m.readCounter .rxConsumer).2.modifyRx fun r => r.resync (m.readCounter .rxConsumer).1) := by
  obtain ⟨k, read, ⟨r, p, bs, guard⟩, run⟩ := h.readCounter .rxConsumer
  rw [read]
  dsimp only
  rw [Machine.modifyRx_eq_setRx guard.rx]
  obtain rfl : bs = [] := length_eq_zero_iff.mp guard.filled
  set c := k.adapter.counter .rxConsumer with hc
  have target : RxGuard T.toRxTerms .aligned { g with filled := 0 } (k.setRx (r.resync c))
      (r.resync c) p [] := by
    refine ⟨rfl, guard.pool, guard.place, guard.size, guard.complete, guard.planned,
      guard.holds.resync c, guard.filled, guard.ledger, guard.frames, guard.due, .nil _ _ _,
      fun lawful => ⟨guard.knows lawful, hc.symm⟩, fun lawful on => ?_⟩
    exact absurd ((guard.knows lawful).symm.trans on) Bool.false_ne_true
  refine reach run guard target ?_
  show RxChange _ _ _ _ _ _ _ g.taking g.taking _
  rw [idle]
  exact .resync c guard.knows

theorem completeStart {batch : List BufferId} (h : RxAt T .silenced { batch := batch } m)
    (needed : Nat) (fits : batch.length ≤ T.size.capacity) (allowed : T.switches) :
    (m.completeStart T.place needed batch).1 = .ok () ∧
      RxAt T .plain { filled := batch.length } (m.completeStart T.place needed batch).2 ∧
      (T.lawful → (m.completeStart T.place needed batch).2.toScene.Begins) := by
  have placed : RxAt T .aligned { batch := batch } _ := resync (g := { batch := batch }) h rfl
  obtain ⟨k, posted, hk⟩ := postAll (g := {}) batch placed rfl ((Nat.zero_add _).le.trans fits)
    fun _ _ _ known => known
  have armed : RxAt T .armed _ (k.modifyRx fun r => r.enter .running) :=
    hk.enterPhase .running (fun _ _ known => known.1) fun _ _ known => ⟨known.1, known.2, rfl⟩
  have rung := armed.ring (y := .rung)
    (c := ((k.modifyRx fun r => r.enter .running).rx.map RxRing.producer).getD 0)
    (fun r rx => by rw [rx]; rfl) fun a r known producer => by
      refine ⟨?_, ?_, known.2.2, ?_⟩
      · exact (Adapter.isOn_write_of_ne _ (by decide) (by decide) _).trans known.1
      · rw [Adapter.counter_write_of_ne _ (by decide) (by decide)]
        exact known.2.1
      · rw [Adapter.counter_write_self]
        exact producer.symm
  obtain ⟨started, begins⟩ := rung.switchOn rfl allowed
  rw [Nat.zero_add] at started
  unfold Machine.completeStart
  dsimp only
  rw [posted]
  exact ⟨rfl, started.give _, fun lawful => (begins lawful).give _⟩

/-- **Starting**, after the direction was switched off.  Where it is not refused, the adapter stands
where the ring begins. -/
theorem restart (h : RxAt T .silenced { filled := n } (m.write .rxDmaControl DmaControl.off))
    (allowed : T.switches) :
    (∃ n, RxAt T .plain { filled := n } m.startRx.2 ∧
        (m.startRx.1 = .ok () → n = T.size.capacity)) ∧
      (T.lawful → m.startRx.1 = .ok () → m.startRx.2.toScene.Begins) := by
  have known : m.rx.map (fun r => (r.pool, r.capacity)) = some (T.place, T.size.capacity) := by
    obtain ⟨⟨r, p, bs, guard⟩, -⟩ := h
    have rx : m.rx = some r := (m.rx_write _ _).symm.trans guard.rx
    rw [rx, ← guard.place, ← guard.size]
    rfl
  obtain ⟨short, acquired⟩ := acquireMany (g := {}) h.recyclePosted T.size.capacity
  unfold Machine.startRx
  rw [known]
  dsimp only
  split
  case isTrue =>
    obtain ⟨refused, aborted⟩ := acquired.abortStart T.size.capacity
    exact ⟨⟨0, aborted, fun ok => nomatch refused.symm.trans ok⟩,
      fun _ ok => nomatch refused.symm.trans ok⟩
  case isFalse enough =>
    obtain ⟨-, completed, begins⟩ := acquired.completeStart T.size.capacity short allowed
    exact ⟨⟨_, completed, fun _ => Nat.le_antisymm short (Nat.le_of_not_lt enough)⟩,
      fun lawful _ => begins lawful⟩

theorem startRx (h : RxAt T .plain { filled := n } m) (allowed : T.switches) :
    ∃ n, RxAt T .plain { filled := n } m.startRx.2 ∧
      (m.startRx.1 = .ok () → n = T.size.capacity) :=
  ((h.switchOff allowed).restart allowed).1

/-- Cancelling, after the direction was switched off. -/
theorem recancel (h : RxAt T .silenced { filled := n } (m.write .rxDmaControl DmaControl.off))
    (first : m.rx.any RxRing.isCancelled = false) : RxAt T .plain { filled := n } m.cancelRx := by
  have cancelled : RxAt T .silenced { filled := n }
      (Machine.modifyRx _ fun r => r.enter .cancelled) :=
    h.enterPhase .cancelled (fun _ _ off => off) fun _ _ off => off
  rw [Machine.cancelRx, first]
  exact (cancelled.give _).forget

theorem cancelRx (h : RxAt T .plain { filled := n } m) (allowed : T.switches) :
    RxAt T .plain { filled := n } m.cancelRx := by
  cases first : m.rx.any RxRing.isCancelled with
  | false => exact (h.switchOff allowed).recancel first
  | true =>
    rw [Machine.cancelRx, if_pos first]
    exact h

/-! ## Filling up -/

/-- Free buffers are posted until the rounds or the buffers have run out. -/
theorem refillRounds (rounds : Nat) {f : Machine.Refill}
    (h : RxAt T .plain { filled := n, due := due, unrung := unrung + f.filled } f.machine)
    (room : n + rounds ≤ T.size.capacity) :
    ∃ n', RxAt T .plain
      { filled := n'
        due := due
        unrung := unrung + (loop (Machine.refillOne T.place) rounds f).filled }
      (loop (Machine.refillOne T.place) rounds f).machine := by
  induction rounds generalizing n f with
  | zero => exact ⟨n, h⟩
  | succ rounds ih =>
    rcases h.acquire with ⟨b, taken, acquired⟩ | ⟨none, left⟩
    · obtain ⟨m', post, posted⟩ := acquired.post rfl (by show n < T.size.capacity; omega)
        fun _ _ _ known => known
      have again := Machine.refillOne_of_some taken post
      rw [loop_of_again (by rw [again]), again]
      exact ih (n := n + 1) (f := ⟨f.filled + 1, m'⟩) posted (by omega)
    · have deferred : RxAt T .plain { filled := n, due := due, unrung := unrung + f.filled }
          ((f.machine.acquire T.place).2.modifyRx RxRing.noteDeferral) :=
        left.adjust _ (fun _ => ⟨rfl, rfl, rfl, rfl, rfl, rfl⟩) (fun _ _ _ => trivial)
          fun _ _ _ _ => rfl
      have stop := Machine.refillOne_of_none none
      rw [loop_of_stop (by rw [stop]), stop]
      exact ⟨n, deferred.give _⟩

/-- There is room for as many buffers as there are slots without one. -/
theorem room (h : RxAt T x { g with filled := n } m) :
    n + (m.rx.map RxRing.unfilled).getD 0 ≤ T.size.capacity := by
  obtain ⟨r, p, bs, guard⟩ := h.guarded
  have fits := guard.holds.fits
  have filled : bs.length = n := guard.filled
  rw [guard.rx, Option.map_some, Option.getD_some, RxRing.unfilled, guard.holds.posted_eq, filled,
    RxRing.capacity, guard.size]
  rw [filled, RxRing.capacity, guard.size] at fits
  omega

theorem refill (h : RxAt T .plain { filled := n, due := due, unrung := unrung } m) :
    ∃ n', RxAt T .plain
      { filled := n', due := due, unrung := unrung + (m.refill T.place).filled }
      (m.refill T.place).machine :=
  refillRounds _ (f := ⟨0, m⟩) h (room (g := { due := due, unrung := unrung }) h)

/-! ## Taking completions in -/

/-- What becomes of a frame is settled. -/
theorem dispose {s : Served} {f : Frame} {fresh : List ReturnHandle}
    (h : RxAt T x { g with fresh := f.handle :: fresh, taking := .shown f } s.machine)
    (pool : f.pool = T.place) :
    RxAt T x { g with fresh := fresh, taking := .nothing } (s.dispose f).machine ∧
      (s.dispose f).upper.replies = s.upper.replies := by
  have settled : RxAt T x { g with fresh := f.handle :: fresh, taking := .nothing } s.machine :=
    settle (g := { g with fresh := f.handle :: fresh }) h
  unfold Served.dispose
  dsimp only
  cases s.upper.disposal s.upper.frames with
  | drop => exact ⟨dropFrame (g := { g with taking := .nothing }) settled pool, rfl⟩
  | hold => exact ⟨h.hold pool, rfl⟩
  | detach => exact ⟨detachFrame (g := { g with taking := .nothing }) settled pool, rfl⟩

/-- Just after it was shown, a frame is in the hands of nobody but the driver. -/
theorem showFrame {r : RxRing} {p : BufferPool} {b : BufferId} {c : Completion}
    (h : RxAt T .plain { g with transit := [b], taking := .read b c } m) (rx : m.rx = some r)
    (pool : m.poolAt? T.place = some p) (whole : r.deliverable p.bufferSize c = true) :
    RxAt T .plain
      { g with
        transit := []
        fresh := (Machine.frameOf T.place r p b c).handle :: g.fresh
        taking := .shown (Machine.frameOf T.place r p b c) } (m.showFrame T.place r p b c) := by
  obtain ⟨-, delivered⟩ := markDelivered (g := { g with transit := [b], taking := .read b c }) h pool
  set f := Machine.frameOf T.place r p b c with hf
  have noted := delivered.adjust (y := .plain) (fun r => r.noteDelivery f.length)
    (fun _ => ⟨rfl, rfl, rfl, rfl, rfl, rfl⟩) (fun _ _ _ => trivial) fun _ _ _ _ => rfl
  have placed : (m.setPool T.place (p.deliver b)).rx = some r := rx
  rw [Machine.modifyRx_eq_setRx placed] at noted
  refine deliver (g := { g with transit := [] }) (f := f) (b := b) (c := c) noted
    fun r' p' rx' pool' => ?_
  obtain rfl : r.noteDelivery f.length = r' := Option.some.inj rx'
  obtain rfl : p.deliver b = p' := Option.some.inj ((Machine.poolAt?_setPool pool).symm.trans pool')
  exact ⟨whole, rfl, ((p.kept_deliver b).base b).symm, rfl, rfl⟩

/-- A frame is delivered, and the upper layer is called. -/
theorem deliverFrame {s : Served} {b : BufferId} {c : Completion} {r : RxRing} {p : BufferPool}
    (h : RxAt T .plain { g with transit := [b], taking := .read b c } s.machine)
    (rx : s.machine.rx = some r) (pool : s.machine.poolAt? T.place = some p)
    (whole : r.deliverable p.bufferSize c = true) (empty : { g with transit := [] }.Empty)
    (abides : s.upper.Abides (RxMeanwhile T.permits T.place)) :
    RxAt T .plain { g with transit := [], taking := .nothing }
        (Machine.deliverFrame s T.place b (p.base b) c.length.toNat).machine ∧
      (Machine.deliverFrame s T.place b (p.base b) c.length.toNat).upper.Abides
        (RxMeanwhile T.permits T.place) := by
  have state : p.stateOf? b = some .posted := by
    obtain ⟨r', p', bs, guard⟩ := h.guarded
    obtain rfl : p' = p := Option.some.inj (guard.pool.symm.trans pool)
    exact (guard.ledger.posted.mem_iff b).mp (mem_append_right _ mem_cons_self)
  rw [Machine.deliverFrame_eq rx pool state]
  have shown := h.showFrame rx pool whole
  obtain ⟨settled, replies⟩ := dispose (g := { g with transit := [] })
    (s := ⟨s.count + 1, s.upper, s.machine.showFrame T.place r p b c⟩) shown rfl
  exact settled.callback ⟨empty.batch, rfl, empty.fresh⟩ fun reply hreply =>
    abides reply (replies ▸ hreply)

/-- A completion that is no frame gives its buffer back. -/
theorem dropCompletion {b : BufferId} {c : Completion}
    (h : RxAt T .plain { g with transit := [b], taking := .read b c } m)
    (lost : ∀ r p, m.rx = some r → m.poolAt? T.place = some p →
      r.deliverable p.bufferSize c = false) :
    RxAt T .plain { g with transit := [], taking := .nothing } (m.dropCompletion T.place b c) := by
  have rejected : RxAt T .plain { g with transit := [b], taking := .nothing } m :=
    reject (g := { g with transit := [b] }) h lost
  have noted := (rejected.give (.rxDropping c)).adjust (y := .plain) RxRing.noteFramingError
    (fun _ => ⟨rfl, rfl, rfl, rfl, rfl, rfl⟩) (fun _ _ _ => trivial) fun _ _ _ _ => rfl
  exact recycle (g := { g with taking := .nothing }) noted

theorem takeCompletion {s : Served} {b : BufferId} {c : Completion}
    (h : RxAt T .plain { g with transit := [b], taking := .read b c } s.machine)
    (empty : { g with transit := [] }.Empty)
    (abides : s.upper.Abides (RxMeanwhile T.permits T.place)) :
    RxAt T .plain { g with transit := [], taking := .nothing }
        (Machine.takeCompletion s T.place b c).machine ∧
      (Machine.takeCompletion s T.place b c).upper.Abides (RxMeanwhile T.permits T.place) := by
  obtain ⟨r, p, bs, guard⟩ := h.guarded
  have posted := (guard.ledger.posted.mem_iff b).mp (mem_append_right _ mem_cons_self)
  have address : ((s.machine.poolAt? T.place).bind fun p => p.addressOf? b) = some (p.base b) := by
    rw [guard.pool]
    exact BufferPool.addressOf?_eq_base posted
  have verdict (r' : RxRing) (p' : BufferPool) (rx : s.machine.rx = some r')
      (pool : s.machine.poolAt? T.place = some p') : r' = r ∧ p' = p :=
    ⟨Option.some.inj (rx.symm.trans guard.rx), Option.some.inj (pool.symm.trans guard.pool)⟩
  unfold Machine.takeCompletion
  dsimp only
  rw [guard.rx, guard.pool, Option.map_some, Option.getD_some, Option.any_some]
  split
  case isTrue whole =>
    rw [guard.pool] at address
    rw [address]
    exact h.deliverFrame guard.rx guard.pool whole empty abides
  case isFalse lost =>
    refine ⟨h.dropCompletion fun r' p' rx pool => ?_, abides⟩
    obtain ⟨rfl, rfl⟩ := verdict r' p' rx pool
    exact Bool.eq_false_iff.mpr lost

/-- One completion that was due is taken in. -/
theorem takeSlot {s : Served}
    (h : RxAt T .plain { filled := n, due := due + 1, unrung := unrung } s.machine)
    (abides : s.upper.Abides (RxMeanwhile T.permits T.place)) :
    (∃ n', RxAt T .plain { filled := n', due := due, unrung := unrung }
        (Machine.takeSlot s T.place).machine) ∧
      (Machine.takeSlot s T.place).upper.Abides (RxMeanwhile T.permits T.place) := by
  obtain ⟨b, slot, known, passed⟩ := pass (g := { filled := n, unrung := unrung }) h rfl
  obtain ⟨c, k, read, look⟩ :=
    take (g := { filled := n - 1, due := due, unrung := unrung, transit := [b] }) passed
  obtain ⟨taken, abides'⟩ :=
    takeCompletion (g := { filled := n - 1, due := due, unrung := unrung })
      (s := { s with machine := k }) look ⟨rfl, rfl, rfl⟩ abides
  unfold Machine.takeSlot
  rw [known]
  dsimp only [Served.onMachine]
  rw [read]
  exact ⟨⟨n - 1, taken⟩, abides'⟩

/-! ## A whole service -/

/-- Completions are taken in one after the other, and after each the ring is filled up. -/
theorem serveRounds (rounds : Nat) {later : Nat} {s : Machine.RxService}
    (h : RxAt T .plain { filled := n, due := later + rounds, unrung := s.filled } s.served.machine)
    (abides : s.served.upper.Abides (RxMeanwhile T.permits T.place)) :
    (∃ n', RxAt T .plain
      { filled := n', due := later, unrung := (loop (Machine.RxService.round T.place) rounds s).filled }
      (loop (Machine.RxService.round T.place) rounds s).served.machine) ∧
      (loop (Machine.RxService.round T.place) rounds s).served.upper.Abides
        (RxMeanwhile T.permits T.place) := by
  induction rounds generalizing n s with
  | zero => exact ⟨⟨n, h⟩, abides⟩
  | succ rounds ih =>
    obtain ⟨⟨n₁, taken⟩, abides'⟩ := h.takeSlot abides
    obtain ⟨n₂, refilled⟩ := taken.refill
    rw [loop_of_again rfl]
    exact ih refilled abides'

/-- A reading that is not believed is reported and counted. -/
theorem checkRxReading (h : RxAt T .plain g m) (c : Counter) :
    RxAt T .plain g (m.checkRxReading c) := by
  unfold Machine.checkRxReading
  split
  · exact h
  · exact (h.giveIf _ _).noteReading c

/-- The doorbell is rung for what was posted. -/
theorem ringRx (h : RxAt T .plain { filled := n, unrung := unrung } m) :
    RxAt T .plain { filled := n } (m.ringRx unrung) := by
  unfold Machine.ringRx
  split
  · subst unrung
    exact h
  · exact ring (g := { filled := n, unrung := unrung }) h (fun r rx => by rw [rx]; rfl)
      fun _ _ _ _ => trivial

/-- **Serving a running ring keeps the guard.** -/
theorem serveRx {u : Upper} (h : RxAt T .plain { filled := n } m)
    (abides : u.Abides (RxMeanwhile T.permits T.place)) :
    ∃ n', RxAt T .plain { filled := n' } (m.serveRx u T.place).machine := by
  obtain ⟨k, read, ⟨r, p, bs, guard⟩, run⟩ := h.readCounter .rxConsumer
  have ready : (k.rx.map fun r => r.ready (k.adapter.counter .rxConsumer)).getD 0 =
      r.ready (k.adapter.counter .rxConsumer) := by
    rw [guard.rx]
    rfl
  have announced : RxAt T .plain
      { filled := n, due := r.ready (k.adapter.counter .rxConsumer) } k :=
    ⟨⟨r, p, bs, guard.announce⟩, run⟩
  have checked := announced.checkRxReading (k.adapter.counter .rxConsumer)
  rw [← Nat.zero_add (r.ready (k.adapter.counter .rxConsumer))] at checked
  obtain ⟨⟨n₁, served⟩, -⟩ := serveRounds _ (s := ⟨.start u _, 0⟩) checked abides
  obtain ⟨n₂, refilled⟩ := served.refill
  unfold Machine.serveRx
  rw [read]
  dsimp only
  rw [ready]
  exact ⟨n₂, refilled.ringRx.giveIf _ _⟩

theorem advanceRx {u : Upper} (h : RxAt T .plain { filled := n } m)
    (abides : u.Abides (RxMeanwhile T.permits T.place)) :
    ∃ n', RxAt T .plain { filled := n' } (m.advanceRx u).machine := by
  obtain ⟨⟨r, p, bs, guard⟩, run⟩ := h
  unfold Machine.advanceRx
  rw [guard.rx]
  dsimp only
  split
  case h_1 => exact ⟨n, ⟨r, p, bs, guard⟩, run⟩
  case h_2 cancelled =>
    -- a lawful adapter is switched on only while the ring is running
    have off (lawful : T.lawful) : m.adapter.on .rx = false := by
      rw [← Bool.not_eq_true]
      intro on
      exact Phase.noConfusion (cancelled.symm.trans (guard.window lawful on).running)
    have silenced : RxAt T .silenced { filled := n } m :=
      ⟨⟨r, p, bs, { guard with knows := off }⟩, run⟩
    exact ⟨0, silenced.recyclePosted.forget⟩
  case h_3 =>
    rw [guard.place]
    exact serveRx ⟨⟨r, p, bs, guard⟩, run⟩ abides

end RxAt

/-! ## Runs -/

/-- Between two requests the hands of the driver are empty, no completion is due, and the doorbell
covers all that is posted. -/
def RxIdle (T : RxTerms) (m : Machine) : Prop := ∃ n, RxInv T .plain { filled := n } m

/-- What happens between two starts is a run of steps, none of which is at the switch. -/
theorem RxUse.course (h : RxUse T.permits T.place m m') (start : RxAt T .plain { filled := n } m) :
    ∃ n', RxAt T .plain { filled := n' } m' := by
  cases h with
  | advance abides => exact start.advanceRx abides.aside
  | holding h => exact ⟨n, h.keeps start ⟨rfl, rfl, rfl⟩⟩
  | plan permitted => exact ⟨n, start.plan permitted⟩

/-- **Every request is a run of steps.** -/
theorem RxRequest.course (h : RxRequest T.permits T.place m m') (allowed : T.switches)
    (start : RxAt T .plain { filled := n } m) : ∃ n', RxAt T .plain { filled := n' } m' := by
  cases h with
  | start =>
    obtain ⟨n', started, -⟩ := start.startRx allowed
    exact ⟨n', started⟩
  | cancel => exact ⟨n, start.cancelRx allowed⟩
  | advance abides => exact (RxUse.advance m abides).course start
  | holding h => exact (RxUse.holding h).course start
  | plan permitted => exact (RxUse.plan m permitted).course start

/-- **Every request keeps the guard**, and what is claimed of the moments. -/
theorem RxRequest.keeps {T : RxTerms} (h : RxRequest T.permits T.place m m') (idle : RxIdle T m) :
    RxIdle T m' := by
  obtain ⟨n, ⟨r, p, bs, guard⟩, past⟩ := idle
  obtain ⟨n', guarded', run⟩ := h.course (T := T.track True m) trivial (guard.here True)
  exact ⟨n', guarded', Machine.inv_of_steps (fun c => RxPast T c.2) (fun _ _ step => step.past) run
    past⟩

/-- So does every run. -/
theorem RxIdle.run {T : RxTerms} (idle : RxIdle T m)
    (run : ReflTransGen (RxRequest T.permits T.place) m m') : RxIdle T m' := by
  induction run with
  | refl => exact idle
  | tail _ step ih => exact step.keeps ih

end DescriptorRings
