import DescriptorRings.Proofs.Engine.Start
import DescriptorRings.Proofs.Machine.Grants
import DescriptorRings.Proofs.Receive.Dealings

/-!
# A valid configuration makes a working engine

The conditions that a configuration has to meet are checked in one place, and most of them once more by
the parts that are built from it: the rings check their sizes, the receive ring its pad, the pool the
number of its buffers and their layout.  If the two disagreed, a configuration could be accepted and the
engine refused half-way, or made and never started.  They do not.  Of all refusals only two are left
(`Machine.createEngine_of_sound`): size and alignment may describe no block of memory, and the allocator
may refuse a block, for whatever reason.  In the first case nothing at all has happened, in the second
nothing is left (`Machine.Forgone`).

An engine that was made can be started (`Machine.Operable`).  Before its first start the upper layer has
no buffer and nothing is in flight, whatever else was done to it (`TxCall.unstarted`, `RxCall.quiet`);
so there are buffers enough, and nothing that the adapter holds in its counters matters.  The size of a
buffer is known to fit a descriptor, and is what every descriptor that is posted says
(`RxCourse.offered`).
-/

namespace DescriptorRings

open Relation List

/-! ## What is offered to the adapter -/

/-- The size that a buffer is offered with when it is posted. -/
def Event.offered? : Event → Option Nat
  | .wroteRx _ _ capacity => some capacity.toNat
  | _ => none

/-- The sizes of all buffers that were posted, in order. -/
def Journal.offered (j : Journal) : List Nat := j.pick Event.offered?

theorem Event.offered?_of_not_own {e : Event} (h : e.isRxOwn = false) : e.offered? = none := by
  cases e <;> first | rfl | exact absurd h.symm Bool.false_ne_true

theorem Event.offered?_of_hushed {e : Event} (h : e.isRxHushed = true) : e.offered? = none := by
  cases e <;> first | rfl | exact absurd h Bool.false_ne_true

/-- **A buffer is offered with its full size**, if that fits a descriptor. -/
theorem RxDeed.Fits.offered {r : RxRing} {bs : List BufferId} {p p' : BufferPool} {d : RxDeed}
    (fits : d.Fits r bs p p') (small : p.bufferSize ≤ Config.maxBufferSize) :
    d.events.filterMap Event.offered? = replicate ([d].countP isPost) p.bufferSize := by
  cases fits with
  | post =>
    have whole : (UInt32.ofNat p.bufferSize).toNat = p.bufferSize :=
      UInt32.toNat_ofNat_of_lt' (Nat.lt_succ_of_le small)
    exact congrArg (fun size => [size]) whole
  | _ => rfl

section

variable {Q : Event → Prop} {home : BufferPool} {place : Nat} {m m' : Machine} {ds : List RxDeed}

/-- **Every buffer that is posted is offered with its full size.** -/
theorem RxCourse.offered (course : RxCourse Q home place ds m m')
    (complete : m.journal.detail = .complete) (small : home.bufferSize ≤ Config.maxBufferSize) :
    m'.journal.offered = m.journal.offered ++ replicate (ds.countP RxDeed.isPost) home.bufferSize := by
  obtain ⟨es, events, -, own⟩ := course.tells.events complete
  have each : ∀ d ∈ ds, d.events.filterMap Event.offered? =
      replicate ([d].countP RxDeed.isPost) home.bufferSize := by
    refine course.forall_mem fun d r bs p p' kept fits => ?_
    have size : p.bufferSize = home.bufferSize := congrArg Layout.size kept.layout
    rw [← size] at small ⊢
    exact fits.offered small
  have all : (ds.flatMap RxDeed.events).filterMap Event.offered? =
      replicate (ds.countP RxDeed.isPost) home.bufferSize := by
    clear course own
    induction ds with
    | nil => rfl
    | cons d ds ih =>
      rw [flatMap_cons, filterMap_append, each d mem_cons_self,
        ih fun d' hd' => each d' (mem_cons_of_mem d hd'), replicate_append_replicate,
        ← countP_append, singleton_append]
  have picked : es.filterMap Event.offered? =
      replicate (ds.countP RxDeed.isPost) home.bufferSize := by
    rw [Machine.Tells.filterMap_eq (fun _ => Event.offered?_of_not_own), own, all]
  rw [Journal.offered, Journal.pick, events, filterMap_append, picked]
  rfl

end

/-! ## Runs of the receive ring -/

section Receive

variable {permits : Move → Prop} {place n : Nat} {starts : Prop} {size : RingSize} {T : RxTrack}
  {home p : BufferPool} {m m' : Machine} {r : RxRing}

/-- What happens meanwhile leaves the ring alone. -/
theorem RxWatch.meanwhile (origin : T.origin.2.poolAt? T.place = some home) :
    RxWatch (fun _ => True) home T (RxMeanwhile T.permits T.place) :=
  ⟨fun _ _ => trivial, origin, fun _ _ act => act,
    fun _ _ _ _ _ act => act.spared.entered.mono fun _ _ => trivial⟩

/-- **Every call is a list of deeds.** -/
theorem RxWatch.call {Q : Event → Prop} (w : RxWatch Q home T (RxMeanwhile T.permits T.place))
    (h : RxAt T .plain { filled := n } m) (allowed : T.switches)
    (call : RxCall T.permits T.place starts m m') : ∃ ds, RxCourse Q home T.place ds m m' := by
  cases call with
  | start =>
    obtain ⟨ds, course, -⟩ := w.startRx h allowed
    exact ⟨_, course⟩
  | cancel =>
    obtain ⟨ds, course, -⟩ := w.cancelRx h allowed
    exact ⟨ds, course⟩
  | advance abides => exact w.advanceRx h abides
  | meanwhile act => exact ⟨[], .of_rests (w.act h ⟨rfl, rfl, rfl⟩ act)⟩

namespace RxInUse

/-- **Whatever is posted in a run** is offered with the full size of a buffer. -/
theorem offered (used : RxInUse permits place size m) (pool : m.poolAt? place = some p)
    (small : p.bufferSize ≤ Config.maxBufferSize)
    (run : ReflTransGen (RxCall permits place starts) m m') :
    ∃ count, m'.journal.offered = m.journal.offered ++ replicate count p.bufferSize := by
  induction run with
  | refl => exact ⟨0, (append_nil _).symm⟩
  | @tail k k' before call ih =>
    obtain ⟨count, offered⟩ := ih
    obtain ⟨p', pool', kept⟩ := used.kept before pool
    have same : p'.bufferSize = p.bufferSize := congrArg Layout.size kept.layout
    obtain ⟨n, r, q, bs, guard⟩ := used.calls before
    have watch := RxWatch.meanwhile (T := (RxTerms.over place size permits).track True k) pool'
    obtain ⟨ds, course⟩ := watch.call (guard.here True) trivial call
    have next := course.offered guard.complete (same ▸ small)
    refine ⟨count + ds.countP RxDeed.isPost, ?_⟩
    rw [next, offered, same, append_assoc, replicate_append_replicate]

/-- **A start posts a buffer for every usable slot**, and no more. -/
theorem offered_startRx (used : RxInUse permits place size m) (pool : m.poolAt? place = some p)
    (rx : m.rx = some r) (small : p.bufferSize ≤ Config.maxBufferSize)
    (ok : m.startRx.1 = .ok ()) :
    m.startRx.2.journal.offered = m.journal.offered ++ replicate r.capacity p.bufferSize := by
  have capacity : r.capacity = size.capacity := congrArg RingSize.capacity (used.size_eq rx)
  obtain ⟨n, r', q, bs, guard⟩ := used
  have watch := RxWatch.meanwhile (T := (RxTerms.over place size permits).track True m) pool
  obtain ⟨ds, course, ends⟩ := watch.startRx (guard.here True) trivial
  rcases ends with ⟨⟨cause, failed⟩, -⟩ | ⟨-, c, posts, c', rfl, all, length⟩
  · exact nomatch failed.symm.trans ok
  · have count : posts.countP RxDeed.isPost = size.capacity :=
      (countP_eq_length.mpr all).trans length
    rw [course.offered guard.complete small, capacity, ← count]
    simp [RxDeed.isPost]

end RxInUse

/-- **A receive ring that was not started shows nothing**, so that nothing can be out. -/
theorem RxCall.unstarted (run : ReflTransGen (RxCall permits place False) m m')
    (used : RxInUse permits place size m) (rx : m.rx = some r) (idle : r.phase ≠ .running) :
    m'.toScene.out ⊆ m.toScene.out ∧ m.Enters (fun e => e.isRxHushed = true) m' := by
  suffices all : (∃ q, m'.rx = some q ∧ q.phase ≠ .running) ∧ m'.toScene.out ⊆ m.toScene.out ∧
      m.Enters (fun e => e.isRxHushed = true) m' from all.2
  induction run with
  | refl => exact ⟨⟨r, rx, idle⟩, Subset.refl _, .refl _ m⟩
  | tail before call ih =>
    obtain ⟨⟨q, rx', idle'⟩, out, hushed⟩ := ih
    obtain ⟨⟨q', rx'', next⟩, out', hushed'⟩ := call.quiet (used.calls before) rx' idle'
    refine ⟨⟨q', rx'', ?_⟩, List.Subset.trans out' out, hushed.trans hushed'⟩
    rcases next with rfl | rfl | drained
    · exact idle'
    · exact nofun
    · exact drained.phase

end Receive

/-! ## A transmit ring before its first start -/

section Transmit

variable {permits : Move → Prop} {m m' : Machine} {r : TxRing}

/-- A call to a ring that was not started puts nothing in flight. -/
theorem TxCall.unstarted (call : TxCall permits False m m') (tx : m.tx = some r)
    (idle : r.phase ≠ .running) (clear : r.inFlight = 0) :
    ∃ q, m'.tx = some q ∧ q.phase ≠ .running ∧ q.inFlight = 0 := by
  cases call with
  | start refused =>
    rw [Machine.startTx_of_refused refused]
    exact ⟨r, tx, idle, clear⟩
  | cancel =>
    by_cases cancelled : r.phase = .cancelled
    · rw [cancelTx_of_cancelled tx cancelled]
      exact ⟨r, tx, idle, clear⟩
    · rw [Machine.cancelTx_of_live tx cancelled]
      exact ⟨r.cancel, Machine.tx_give _ _, nofun, r.cancelled_cancel.inFlight.trans clear⟩
  | @advance u abides =>
    cases phase : r.phase with
    | running => exact absurd phase idle
    | stopped =>
      have nothing : (m.advanceTx u).machine = m := by
        rw [Machine.advanceTx, tx]
        dsimp only
        rw [phase]
        rfl
      rw [nothing]
      exact ⟨r, tx, idle, clear⟩
    | cancelled =>
      obtain ⟨-, -, q, tx', -, cancelled, empty⟩ := advanceTx_of_cancelled abides tx phase
      exact ⟨q, tx', by rw [cancelled]; exact nofun, empty⟩
  | meanwhile act =>
    obtain ⟨intake, count, tx'⟩ := act.tx_eq tx
    exact ⟨_, tx', idle, clear⟩

/-- So does a run of calls. -/
theorem TxCall.unstarted_run (run : ReflTransGen (TxCall permits False) m m') (tx : m.tx = some r)
    (idle : r.phase ≠ .running) (clear : r.inFlight = 0) :
    ∃ q, m'.tx = some q ∧ q.inFlight = 0 := by
  suffices all : ∃ q, m'.tx = some q ∧ q.phase ≠ .running ∧ q.inFlight = 0 by
    obtain ⟨q, tx', -, clear'⟩ := all
    exact ⟨q, tx', clear'⟩
  induction run with
  | refl => exact ⟨r, tx, idle, clear⟩
  | tail _ call ih =>
    obtain ⟨q, tx', idle', clear'⟩ := ih
    exact call.unstarted tx' idle' clear'

end Transmit

/-! ## Making the engine -/

namespace Config.Sound

variable {c : Config} (sound : c.Sound)

include sound

/-- The rings admit what the configuration was admitted with. -/
theorem rings (place : Nat) : ∃ tx rx, TxRing.create c.txSlots c.queueDepth = .ok tx ∧
    RxRing.create place c.bufferSize c.rxSlots c.leadingPad = .ok rx ∧
    Machine.createRings c place = .ok (tx, rx) := by
  have tx : TxRing.create c.txSlots c.queueDepth =
      .ok { size := ⟨c.txSlots, sound.tx⟩, depth := c.queueDepth } := by
    rw [TxRing.create, RingSize.ofNat?, dif_pos sound.tx]
  have rx : RxRing.create place c.bufferSize c.rxSlots c.leadingPad =
      .ok { pool := place, size := ⟨c.rxSlots, sound.rx⟩, pad := c.leadingPad,
            slots := Array.replicate c.rxSlots none } := by
    rw [RxRing.create, RingSize.ofNat?, dif_pos sound.rx]
    exact if_neg (Nat.not_le_of_lt sound.room)
  refine ⟨_, _, tx, rx, ?_⟩
  rw [Machine.createRings, tx, rx]
  rfl

/-- There are more buffers than usable slots. -/
theorem slots_lt : 2 ≤ c.rxSlots ∧ c.rxSlots - 1 < c.bufferCount := by
  have least := RingSize.two_le ⟨c.rxSlots, sound.rx⟩
  have enough := sound.enough
  dsimp only at least
  omega

end Config.Sound

namespace Machine

variable {c : Config} {layout : Layout}

/-- **An engine with sound numbers is made**, with a buffer for each block that was asked for, or the
allocator has refused one of them and nothing is left. -/
theorem createEngine_of_sound (sound : c.Sound)
    (fits : Layout.ofSizes? c.bufferSize c.bufferAlign = some layout) (k : Machine) :
    ((k.createEngine c).1 = .error .outOfMemory ∧
        ∃ granted, k.Forgone layout c.bufferCount granted (k.createEngine c).2) ∨
      (k.createEngine c).1 = .ok () ∧ ∃ id addresses, addresses.length = c.bufferCount ∧
        (k.createEngine c).2.poolAt? k.pools.size = some (.ofAddresses id layout addresses) := by
  have valid := Config.validate_eq_ok_iff.mpr sound
  obtain ⟨-, more⟩ := sound.slots_lt
  unfold createEngine
  rw [valid]
  dsimp only
  rcases createPool_of_layout (m := k) (by omega) sound.named fits with
    ⟨granted, k', refused, forgone⟩ | ⟨k', es, id, addresses, length, trades, made⟩
  · rw [refused]
    exact .inl ⟨rfl, granted, forgone⟩
  · obtain ⟨tx, rx, -, -, rings⟩ := sound.rings k.pools.size
    have pools : k'.pools = k.pools := by rw [trades.scene]
    rw [made]
    dsimp only
    rw [rings]
    refine .inr ⟨rfl, id, addresses, length, ?_⟩
    rw [poolAt?_give, createArbiter]
    refine (poolAt?_write _ _ _ _).trans ?_
    rw [poolAt?]
    dsimp only
    rw [pools, Array.getElem?_push_size]
    rfl

/-- **A new engine that works**, over a machine in which no ring was used yet. -/
structure Operable (permits : Move → Prop) (place : Nat) (c : Config) (m₀ : Machine) : Prop where
  /-- The first start succeeds, however late it comes and whatever the adapter's counters hold by then.
  It posts a buffer for each usable slot, and no other was posted before. -/
  starts : ∀ n m, ReflTransGen (EngineRequest ⟨permits, place, False, False⟩ n) m₀ m →
    m.startEngine.1 = .ok () ∧ m.startEngine.2.Underway (c.rxSlots - 1) ∧
      m.journal.offered = m₀.journal.offered ∧
      m.startEngine.2.journal.offered = m.journal.offered ++ replicate (c.rxSlots - 1) c.bufferSize
  /-- Whenever a buffer is posted, then and later, it is offered with its full size. -/
  offers : ∀ n m, ReflTransGen (EngineRequest ⟨permits, place, True, True⟩ n) m₀ m →
    ∃ count, m.journal.offered = m₀.journal.offered ++ replicate count c.bufferSize

/-- A start that succeeds is one of the transmit ring and then one of the receive ring. -/
theorem startEngine_of_ok {m : Machine} (ok : m.startEngine.1 = .ok ()) :
    m.startTx.2.startRx.1 = .ok () ∧ m.startEngine.2 = m.startTx.2.startRx.2 := by
  unfold startEngine at ok ⊢
  split at ok
  · exact nomatch ok
  · next k started =>
    rw [started]
    dsimp only at ok ⊢
    split at ok
    · exact nomatch ok
    · next k' started' =>
      rw [started']
      exact ⟨rfl, rfl⟩

end Machine

section Start

variable {permits : Move → Prop} {place depth n : Nat} {txSize rxSize : RingSize}
  {m m₀ : Machine} {r : RxRing} {p : BufferPool}

/-- **A start of an engine posts a buffer for every usable slot**, and no more. -/
theorem EngineInUse.offered_startEngine (spares : ∀ mv, permits mv → mv.SparesSwitches)
    (used : EngineInUse permits place depth txSize rxSize m) (rx : m.rx = some r)
    (pool : m.poolAt? place = some p) (small : p.bufferSize ≤ Config.maxBufferSize)
    (ok : m.startEngine.1 = .ok ()) :
    m.startEngine.2.journal.offered = m.journal.offered ++ replicate r.capacity p.bufferSize := by
  have started : EngineRequest ⟨permits, place, True, True⟩ 0 m m.startTx.2 :=
    .call (.startTx m rfl fun _ => trivial)
  have used' := used.run spares (.single started)
  obtain ⟨sameRx, pools⟩ := (Machine.working_startTx m).rx_eq (by decide)
  have pool' : m.startTx.2.poolAt? place = some p := by
    rw [Machine.poolAt?, pools, ← Machine.poolAt?]
    exact pool
  have idle (k k' : Machine) (h : False) : RxView ⟨permits, place, True, True⟩ true k k' := h.elim
  have spared := RxMeanwhile.spared_run
    (RxView.working (by decide) idle (Machine.working_startTx m))
  have aside : m.startTx.2.journal.offered = m.journal.offered :=
    spared.entered.pick_eq used.tx.kept.complete fun e => Event.offered?_of_hushed
  obtain ⟨ok', ends⟩ := Machine.startEngine_of_ok ok
  rw [ends, ← aside]
  exact used'.rx.offered_startRx pool' (sameRx.trans rx) small ok'

/-- **Before its first start** nothing is in flight on an engine, nothing is out and nothing was posted.
-/
theorem EngineRequest.unstarted_run {slots rxSlots : Nat} (tx : m₀.TxMade slots depth)
    (rx : m₀.RxMade place rxSlots) (used : RxInUse permits place rxSize m₀)
    (run : ReflTransGen (EngineRequest ⟨permits, place, False, False⟩ n) m₀ m) :
    (∃ q, m.tx = some q ∧ q.inFlight = 0) ∧ m.toScene.out = [] ∧
      m.journal.offered = m₀.journal.offered := by
  obtain ⟨q₀, newTx, tx₀⟩ := tx.made
  obtain ⟨_, -, rfl⟩ := TxRing.create_eq_ok newTx
  obtain ⟨_, _, r₀, newRx, rx₀⟩ := rx.made
  have idle : r₀.phase ≠ .running := by
    rw [RxRing.phase_create newRx]
    decide
  obtain ⟨within, hushed⟩ := RxCall.unstarted (EngineRequest.rxCalls run) used rx₀ idle
  have none : m₀.toScene.out = [] := by
    rw [Scene.out, rx.frames, rx.handles]
    rfl
  have stopped : Phase.stopped ≠ .running := by decide
  exact ⟨TxCall.unstarted_run (EngineRequest.txCalls run) tx₀ stopped (Counter.distance_self _ _),
    subset_nil.mp (none ▸ within),
    hushed.pick_eq rx.complete fun e => Event.offered?_of_hushed⟩

end Start

/-- **An engine that was made works.** -/
theorem Machine.operable_createEngine {c : Config} {layout : Layout} {permits : Move → Prop}
    {k m₀ : Machine} {id : UInt16} {addresses : List BusAddress} (sound : c.Sound)
    (fits : Layout.ofSizes? c.bufferSize c.bufferAlign = some layout)
    (spares : ∀ mv, permits mv → mv.SparesSwitches) (unused : k.Unused permits)
    (made : k.createEngine c = (.ok (), m₀)) (length : addresses.length = c.bufferCount)
    (pool₀ : m₀.poolAt? k.pools.size = some (.ofAddresses id layout addresses)) :
    Operable permits k.pools.size c m₀ := by
  obtain ⟨txSize, rxSize, -, slots, begun⟩ := EngineInUse.of_made spares unused made
  obtain ⟨newTx, newRx, -, -⟩ := k.made_createEngine unused spares made
  have size₀ : (BufferPool.ofAddresses id layout addresses).bufferSize = c.bufferSize := by
    unfold Layout.ofSizes? at fits
    split at fits
    · obtain rfl := Option.some.inj fits
      rfl
    · exact nomatch fits
  constructor
  · intro n m run
    have used := begun.run spares run
    obtain ⟨⟨q, tx, clear⟩, none, before⟩ := EngineRequest.unstarted_run newTx newRx begun.rx run
    obtain ⟨p, pool, kept⟩ := begun.rx.kept (EngineRequest.rxCalls run) pool₀
    have size : p.bufferSize = c.bufferSize := (congrArg Layout.size kept.layout).trans size₀
    obtain ⟨r, rx, -⟩ := used.rxGeared
    have capacity : r.capacity = c.rxSlots - 1 := by
      rw [RxRing.capacity, used.rx.size_eq rx, RingSize.capacity, slots]
    have enough : r.capacity ≤ p.capacity - m.toScene.out.length := by
      have buffers : p.capacity = c.bufferCount := by
        rw [kept.capacity, ← length, BufferPool.capacity, BufferPool.ofAddresses, size_toArray,
          length_map]
      obtain ⟨-, more⟩ := sound.slots_lt
      rw [none, buffers, capacity, length_nil]
      omega
    obtain ⟨ok, underway⟩ := used.underway spares tx clear rx pool enough
    have offered := used.offered_startEngine spares rx pool (size ▸ sound.fits) ok
    rw [capacity] at underway
    rw [capacity, size] at offered
    exact ⟨ok, underway, before, offered⟩
  · intro n m run
    obtain ⟨count, offered⟩ :=
      begun.rx.offered pool₀ (size₀ ▸ sound.fits) (EngineRequest.rxCalls run)
    exact ⟨count, size₀ ▸ offered⟩

/-- **A valid configuration makes a working engine.**  Neither ring refuses what the configuration was
accepted with.  To make the engine can fail in two ways only: size and alignment form no layout, and
then nothing has happened, or the allocator has refused one of the blocks, and then nothing is left of
the others.  Otherwise there is an engine, and it can be started. -/
theorem valid_config_makes_working_engine {c : Config} (valid : c.validate = .ok ()) (k : Machine) :
    (∀ place, ∃ tx rx, TxRing.create c.txSlots c.queueDepth = .ok tx ∧
      RxRing.create place c.bufferSize c.rxSlots c.leadingPad = .ok rx ∧
      Machine.createRings c place = .ok (tx, rx)) ∧
    (Layout.ofSizes? c.bufferSize c.bufferAlign = none ∧
        k.createEngine c = (.error Config.Flaw.bufferLayout.refusal, k) ∨
      ∃ layout, Layout.ofSizes? c.bufferSize c.bufferAlign = some layout ∧
        ((k.createEngine c).1 = .error .outOfMemory ∧
            (∃ granted, k.Forgone layout c.bufferCount granted (k.createEngine c).2) ∨
          (k.createEngine c).1 = .ok () ∧ ∀ permits, (∀ mv, permits mv → mv.SparesSwitches) →
            k.Unused permits → Machine.Operable permits k.pools.size c (k.createEngine c).2)) := by
  have sound := Config.validate_eq_ok_iff.mp valid
  refine ⟨sound.rings, ?_⟩
  cases fits : Layout.ofSizes? c.bufferSize c.bufferAlign with
  | none =>
    obtain ⟨-, more⟩ := sound.slots_lt
    have possible : ¬(c.bufferCount = 0 ∨ Config.maxBuffers < c.bufferCount) := by
      have named := sound.named
      omega
    refine .inl ⟨rfl, ?_⟩
    unfold Machine.createEngine Machine.createPool
    rw [valid]
    dsimp only
    rw [if_neg possible, fits]
  | some layout =>
    refine .inr ⟨layout, rfl, ?_⟩
    rcases Machine.createEngine_of_sound sound fits k with failed | ⟨ok, id, addresses, length, pool⟩
    · exact .inl failed
    · exact .inr ⟨ok, fun permits spares unused => Machine.operable_createEngine sound fits spares
        unused (Prod.ext ok rfl) length pool⟩

/-- An engine with buffers of two mebibytes is made over an allocator that has so large blocks, and
before it is started somebody sets both of the adapter's counters.  It starts all the same, with three
whole buffers. -/
theorem valid_config_makes_working_engine_late :
    ∃ (c : Config) (k m : Machine), c.validate = .ok () ∧ c.bufferSize = 2097152 ∧
      (k.createEngine c).1 = .ok () ∧
      ReflTransGen (EngineRequest ⟨Move.SparesSwitches, 0, False, False⟩ 0) (k.createEngine c).2 m ∧
      m.adapter.read .txConsumer = 65533 ∧ m.adapter.read .rxConsumer = 65534 ∧
      m.startEngine.1 = .ok () ∧ m.startEngine.2.journal.offered = [2097152, 2097152, 2097152] := by
  let c : Config := { Config.small with bufferSize := 2097152 }
  let k : Machine := { Machine.blank 4 with memory := { allocator := .orderly 0x100000000 none } }
  have unused : k.Unused Move.SparesSwitches :=
    ⟨rfl, rfl, rfl, rfl, rfl, rfl, rfl, fun _ none => absurd none not_mem_nil⟩
  have counter (r : Register) (v : UInt32) (other : r ≠ .txDmaControl ∧ r ≠ .rxDmaControl) :
      (Move.assign r v).SparesSwitches :=
    ⟨Move.spares_of_ne_assign (by decide) fun _ same => other.1 (Move.assign.inj same).1,
      Move.spares_of_ne_assign (by decide) fun _ same => other.2 (Move.assign.inj same).1⟩
  have run : ReflTransGen (EngineRequest ⟨Move.SparesSwitches, 0, False, False⟩ 0)
      (k.createEngine c).2 _ :=
    ReflTransGen.refl
      |>.tail (.call (.holding (.move _ (counter .txConsumer 65533 (by decide)))))
      |>.tail (.call (.holding (.move _ (counter .rxConsumer 65534 (by decide)))))
  have made : (k.createEngine c).1 = .ok () := by decide +kernel
  have valid : c.validate = .ok () := by decide
  obtain ⟨-, ⟨none, -⟩ | ⟨layout, -, ⟨failed, -⟩ | ⟨-, works⟩⟩⟩ :=
    valid_config_makes_working_engine valid k
  · exact absurd none (by decide)
  · exact nomatch failed.symm.trans made
  · obtain ⟨ok, -, before, offered⟩ :=
      (works Move.SparesSwitches (fun _ spared => spared) unused).starts 0 _ run
    have nothing : (k.createEngine c).2.journal.offered = [] := by decide +kernel
    rw [before, nothing] at offered
    exact ⟨c, k, _, valid, rfl, made, run, by decide +kernel, by decide +kernel, ok, offered⟩

end DescriptorRings
