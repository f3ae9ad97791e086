import DescriptorRings.Proofs.Engine.Course
import DescriptorRings.Proofs.Machine.Upkeep
import DescriptorRings.Script.Session

/-!
# A fleet of engines over one allocator

Any number of engines, rings and pools share one allocator, and live and die in any order.  What can be
done to them, one thing after the other and in the callbacks of one another, is listed in `Deal`: all
commands and all services that there are, making the parts, dropping them, and turning to another
adapter for a while.  Nothing is assumed about the allocator, which may refuse a block whenever it
likes, or about the adapters.

Two things cannot be done, since nobody could: while something over an adapter is being served it is
neither dropped nor replaced; and no second ring or engine is put over an adapter that has one.

Every such thing leaves the machine in order (`Deal.keeps`), and so does every run.  That is all that
there is to say about the blocks: a pool has its blocks as long as it is referred to, whoever refers to
it and whatever goes first.
-/

namespace DescriptorRings

open Relation List

variable {Act : Machine → Machine → Prop} {b : Busy} {m m' m₀ : Machine} {u : Upper} {s : Served}
  {place : Nat}

/-- Whatever is done here leaves the machine in order. -/
def Keeping (b : Busy) (Act : Machine → Machine → Prop) : Prop :=
  ∀ k k', Act k k' → ∀ m₀, Machine.Tidy b m₀ k → Machine.Tidy b m₀ k'

/-- A request under way since a machine, which is in order. -/
structure Served.Tidy (b : Busy) (Act : Machine → Machine → Prop) (m : Machine) (s : Served) :
    Prop where
  /-- The machine is in order. -/
  run : Machine.Tidy b m s.machine
  /-- The callbacks to come are bound by the rule. -/
  abides : s.upper.Abides Act

namespace Served.Tidy

/-- The machine goes on, and more may have been counted. -/
theorem goOn (h : s.Tidy b Act m) {n : Nat} {k : Machine} (quiet : s.machine.Undisturbed k) :
    Served.Tidy b Act m ⟨n, s.upper, k⟩ :=
  ⟨h.run.undisturbed quiet, h.abides⟩

theorem onMachine (h : s.Tidy b Act m) {f : Machine → Machine}
    (quiet : ∀ k : Machine, k.Undisturbed (f k)) : (s.onMachine f).Tidy b Act m :=
  h.goOn (quiet _)

/-- The upper layer is called. -/
theorem reply (h : s.Tidy b Act m) (acts : Keeping b Act) : s.reply.Tidy b Act m := by
  refine ⟨?_, Served.abides_reply h.abides⟩
  have run := Served.run_reply h.abides
  generalize s.reply.machine = k at run
  induction run with
  | refl => exact h.run
  | tail _ act ih => exact acts _ _ act _ ih

/-- A part other than the receive ring was at work. -/
theorem of_works {p : Part} (start : Machine.Tidy b m₀ m) (acts : Keeping b Act)
    (works : s.Works p False Act m) (other : p ≠ .rx) : s.Tidy b Act m₀ :=
  ⟨works.run.keeps (fun _ _ stroke h => h.undisturbed (stroke.undisturbed fun rx => absurd rx other))
    (fun _ _ act h => acts _ _ act _ h) start, works.abides⟩

end Served.Tidy

/-! ## Serving a receive ring -/

namespace Machine

/-- A ring that is being served refers to its pool all the time. -/
theorem InOrder.refersTo_drawn (h : Tidy { b with here := true } m₀ m)
    (draws : m₀.rx.map RxRing.pool = some place) : m.refersTo place = true := by
  have same := (h.steady.here rfl).trans draws
  have uses := (h.sound.paired _ mem_cons_self).refersTo_iff.mpr same
  exact Scene.refersTo_iff.mpr (.inr (.inl ⟨_, mem_cons_self, uses⟩))

theorem mem_blocksAt_of_addressOf? {id : BufferId} {a : BusAddress}
    (h : ((m.poolAt? place).bind fun p => p.addressOf? id) = some a) :
    a ∈ m.toScene.blocksAt place := by
  obtain ⟨p, pool, address⟩ := Option.bind_eq_some_iff.mp h
  obtain ⟨e, here, rfl⟩ := Option.map_eq_some_iff.mp pool
  obtain ⟨x, inside, rfl⟩ := Option.map_eq_some_iff.mp address
  rw [Scene.blocksAt, here]
  exact mem_map.mpr ⟨x, Array.mem_toList_iff.mpr (Array.mem_of_getElem? inside), rfl⟩

variable (acts : Keeping { b with here := true } Act) (draws : m.rx.map RxRing.pool = some place)

include acts draws

/-- **A frame is handed over**, and may be dropped, held or taken apart at once. -/
theorem tidy_deliver (h : s.Tidy { b with here := true } Act m) {f : Frame} (mine : f.pool = place)
    (inside : f.address ∈ s.machine.toScene.blocksAt place) :
    (s.deliver f).Tidy { b with here := true } Act m := by
  refine Served.Tidy.reply ?_ acts
  have quiet := Undisturbed.note s.machine (e := .delivered f (f.bytes s.machine.memory)) rfl
  have told : Tidy { b with here := true } m
      (s.machine.record (.delivered f (f.bytes s.machine.memory))) := h.run.undisturbed quiet
  have inside' : f.address ∈ (s.machine.record
      (.delivered f (f.bytes s.machine.memory))).toScene.blocksAt f.pool := by
    rw [toScene_record, mine]
    exact inside
  unfold Served.dispose
  dsimp only
  split
  · exact ⟨InOrder.dropFrame (told.doubted _), h.abides⟩
  · exact ⟨told.hold (mine ▸ told.refersTo_drawn draws) inside', h.abides⟩
  · exact ⟨InOrder.detachFrame (told.doubted _), h.abides⟩

theorem tidy_deliverFrame (h : s.Tidy { b with here := true } Act m) (id : BufferId) {a : BusAddress}
    (inside : a ∈ s.machine.toScene.blocksAt place) (length : Nat) :
    (deliverFrame s place id a length).Tidy { b with here := true } Act m := by
  have marked := (working_markDelivered s.machine place id).quiet
  unfold deliverFrame
  split
  · next e =>
    rw [e] at marked
    exact h.goOn (marked.trans (.give _ _))
  · next handle k e =>
    rw [e] at marked
    set n := length - (k.rx.map RxRing.pad).getD 0
    have noted := marked.trans
      (Working.modifyRx k (fun r => r.noteDelivery n) (fun _ => rfl) fun _ => rfl).quiet
    have blocks : (k.modifyRx fun r => r.noteDelivery n).toScene.blocksAt =
        s.machine.toScene.blocksAt := noted.scene.blocksAt_eq
    exact tidy_deliver acts draws (h.goOn noted) rfl (by rw [blocks]; exact inside)

theorem tidy_takeCompletion (h : s.Tidy { b with here := true } Act m) (id : BufferId)
    (c : Completion) : (takeCompletion s place id c).Tidy { b with here := true } Act m := by
  unfold takeCompletion
  dsimp only
  split
  · split
    · next a here => exact tidy_deliverFrame acts draws h id (mem_blocksAt_of_addressOf? here) _
    · exact h.onMachine fun k => .give k _
  · refine h.onMachine fun k => Working.quiet ?_
    exact ((Working.give k _ rfl).trans (Working.modifyRx _ RxRing.noteFramingError (fun _ => rfl)
      fun _ => rfl)).trans (working_recycleOrReport _ place id)

theorem tidy_takeSlot (h : s.Tidy { b with here := true } Act m) :
    (takeSlot s place).Tidy { b with here := true } Act m := by
  unfold takeSlot
  split
  · exact h
  · next slot _ _ =>
    have passed := h.onMachine (f := fun k => k.modifyRx RxRing.pass) fun k =>
      (Working.modifyRx k RxRing.pass (fun _ => rfl) fun _ => rfl).quiet
    dsimp only
    split
    · exact tidy_takeCompletion acts draws (passed.goOn (Working.readCompletion _ slot).quiet) _ _
    · exact passed.onMachine fun k => .give k _

/-- **Serving a receive ring leaves the machine in order.** -/
theorem tidy_serveRx (start : Tidy { b with here := true } m m) (abides : u.Abides Act) :
    (m.serveRx u place).Tidy { b with here := true } Act m := by
  have begun : Tidy { b with here := true } m _ := start.undisturbed
    (Working.quiet ((Working.readCounter m .rxConsumer).trans
      (working_checkRxReading _ (m.readCounter .rxConsumer).1)))
  have round (t : RxService) (h : t.served.Tidy { b with here := true } Act m) :
      (RxService.round place t).2.served.Tidy { b with here := true } Act m :=
    (tidy_takeSlot acts draws h).goOn (working_refill _ place).quiet
  have looped (n : Nat) := loop_keeps
    (P := fun t : RxService => t.served.Tidy { b with here := true } Act m) round n
    (a := ⟨.start u ((m.readCounter .rxConsumer).2.checkRxReading
      (m.readCounter .rxConsumer).1), 0⟩) ⟨begun, abides⟩
  unfold serveRx
  exact (looped _).goOn (Working.quiet
    (((working_refill _ place).trans (working_ringRx _ _)).trans (Working.giveIf _ _ _ rfl)))

end Machine

/-! ## Services -/

section Services

variable (acts : Keeping { b with here := true } Act)

include acts

namespace Served.Tidy

theorem advanceTx (h : s.Tidy { b with here := true } Act m) :
    (s.machine.advanceTx s.upper).Tidy { b with here := true } Act m :=
  .of_works h.run acts (Machine.works_advanceTx _ h.abides) (by decide)

theorem advanceRx (h : s.Tidy { b with here := true } Act m) :
    (s.machine.advanceRx s.upper).Tidy { b with here := true } Act m := by
  have start : Machine.Tidy { b with here := true } s.machine s.machine := .refl _ h.run.sound
  have served : (s.machine.advanceRx s.upper).Tidy { b with here := true } Act s.machine := by
    unfold Machine.advanceRx
    split
    · exact ⟨start, h.abides⟩
    · next ring rx =>
      split
      · exact ⟨start, h.abides⟩
      · exact ⟨start.undisturbed (Machine.working_recyclePosted _).quiet, h.abides⟩
      · exact Machine.tidy_serveRx acts (by rw [rx]; rfl) start h.abides
  exact ⟨h.run.trans served.run, served.abides⟩

end Served.Tidy

namespace Machine

theorem tidy_signal (h : Tidy { b with here := true } m₀ m) (abides : u.Abides Act)
    (pending : UInt32) : (m.signal u pending).2.Tidy { b with here := true } Act m₀ :=
  .of_works h acts (works_signal m abides pending) (by decide)

theorem tidy_interrupt (h : Tidy { b with here := true } m₀ m) (abides : u.Abides Act) :
    Tidy { b with here := true } m₀ (m.interrupt u).2.machine := by
  have looked : Tidy { b with here := true } m₀ (m.read .irqStatus).2 := by
    have read : Working .irq True (fun _ _ => False) m (m.read .irqStatus).2 := .read m .irqStatus
    exact h.undisturbed (read.undisturbed fun _ => trivial)
  have told : (m.interruptTold u).Tidy { b with here := true } Act m₀ :=
    (tidy_signal acts looked abides (IrqMask.table.restrict (m.read .irqStatus).1)).onMachine
      (f := fun k => k.give (.engineInterrupt (IrqMask.table.restrict (m.read .irqStatus).1)
        (Direction.masks (signal (m.read .irqStatus).2 u
          (IrqMask.table.restrict (m.read .irqStatus).1)).1))) fun k => .give k _
  have sent : (m.interruptSent u).Tidy { b with here := true } Act m₀ := by
    unfold interruptSent serveIfPending
    dsimp only
    split
    · exact told.advanceTx acts
    · exact told
  rw [interrupt_eq]
  split
  · exact looked
  · unfold serveIfPending
    split
    · exact (sent.advanceRx acts).run
    · exact sent.run

theorem tidy_stopEngine (h : Tidy { b with here := true } m₀ m) (abides : u.Abides Act) :
    Tidy { b with here := true } m₀ (m.stopEngine u).machine := by
  have armed (k : Machine) (d : Direction) (on : Bool) : k.Undisturbed (k.setArmed d on) :=
    Working.undisturbed (working_setArmed k d on) (by decide)
  have off := (armed m .tx false).trans (armed _ .rx false)
  have cancelled := (off.trans ((working_cancelTx _).undisturbed fun _ => trivial)).trans
    (working_cancelRx _).quiet
  have begun : (Served.start u _).Tidy { b with here := true } Act m₀ :=
    ⟨h.undisturbed cancelled, abides⟩
  exact (((begun.advanceTx acts).advanceRx acts).onMachine fun k => .give k _).run

/-- **Every service leaves the machine in order.** -/
theorem tidy_serve (h : Tidy b m₀ m) (what : Service) (abides : u.Abides Act) :
    Tidy b m₀ (m.serve what u).2 := by
  have start : Tidy { b with here := true } m m := .refl _ h.sound
  have wider {k : Machine} (kept : Tidy { b with here := true } m k) : Tidy b m₀ k :=
    h.trans ⟨kept.sound, kept.orderly, kept.steady.idle⟩
  have provided (there : Bool) {act : Machine → Outcome × Machine}
      (kept : Tidy b m₀ (act m).2) : Tidy b m₀ (m.provided there act).2 := by
    unfold Machine.provided
    split
    · exact kept
    · exact h
  have begun : (Served.start u m).Tidy { b with here := true } Act m := ⟨start, abides⟩
  cases what with
  | stop => exact provided _ (wider (tidy_stopEngine acts start abides))
  | interrupt => exact provided _ (wider (tidy_interrupt acts start abides))
  | advanceTx => exact provided _ (wider (begun.advanceTx acts).run)
  | advanceRx => exact provided _ (wider (begun.advanceRx acts).run)
  | signal pending => exact provided _ (wider (tidy_signal acts start abides pending).run)

end Machine

end Services

/-! ## Commands -/

namespace Machine

theorem undisturbed_startEngine (m : Machine) : m.Undisturbed m.startEngine.2 := by
  have first : m.Undisturbed m.startTx.2 := (working_startTx m).undisturbed fun _ => trivial
  unfold startEngine
  split
  · next e =>
    rw [e] at first
    exact first
  · next k e =>
    rw [e] at first
    have second := (working_startRx k).quiet
    split
    · next k' e' =>
      rw [e'] at second
      exact (first.trans second).trans ((working_cancelTx k').undisturbed fun _ => trivial)
    · next e' =>
      rw [e'] at second
      exact first.trans second

theorem undisturbed_submit (m : Machine) (p : Packet) : m.Undisturbed (m.submit p).2 := by
  unfold submit
  split
  · exact .refl m
  · have accepted : m.Undisturbed (m.modifyTx fun r => r.accept p) := .elsewhere
    exact accepted.trans (.note _ rfl)

theorem undisturbed_giveBack (m : Machine) (place : Option Nat) (handle : ReturnHandle) :
    m.Undisturbed (m.giveBack place handle).2 := by
  unfold giveBack
  split
  · exact (working_release m _ handle).quiet
  · exact .refl m

theorem undisturbed_keepDelivered (m : Machine) (place : Nat) (id : BufferId) :
    m.Undisturbed (m.keepDelivered place id).2 := by
  have marked := (working_markDelivered m place id).quiet
  unfold keepDelivered
  split
  · next e =>
    rw [e] at marked
    exact marked.trans .elsewhere
  · next e => rwa [e] at marked

/-- **Every command leaves the machine in order.** -/
theorem tidy_obey (h : Tidy b m₀ m) (c : Command) (free : c = .dropEngine → b.here = false) :
    Tidy b m₀ (m.obey c).2 := by
  have provided (there : Bool) {act : Machine → Outcome × Machine}
      (kept : Tidy b m₀ (act m).2) : Tidy b m₀ (m.provided there act).2 := by
    unfold Machine.provided
    split
    · exact kept
    · exact h
  have other {p : Part} {k : Machine} (run : Working p True (fun _ _ => False) m k) :
      Tidy b m₀ k := h.undisturbed (run.undisturbed fun _ => trivial)
  cases c with
  | start => exact provided _ (h.undisturbed m.undisturbed_startEngine)
  | dropEngine => exact provided _ (h.dropEngine (free rfl))
  | submit p => exact provided _ (h.undisturbed (m.undisturbed_submit p))
  | startTx => exact provided _ (other (working_startTx m))
  | cancelTx => exact provided _ (other (working_cancelTx m))
  | startRx => exact provided _ (other (working_startRx m))
  | cancelRx => exact provided _ (other (working_cancelRx m))
  | inspectEngine | outstanding | readFrame | readTxSlot =>
    unfold obey
    dsimp only
    split <;> exact h
  | dropFrame i =>
    unfold obey withFrame
    dsimp only
    split
    · next f here => exact InOrder.dropFrame (h.removeFrame here)
    · exact h
  | detachFrame i =>
    unfold obey withFrame
    dsimp only
    split
    · next f here => exact InOrder.detachFrame (h.removeFrame here)
    · exact h
  | release i place =>
    unfold obey
    dsimp only
    split
    · exact h.undisturbed (m.undisturbed_giveBack place _)
    · exact h
  | releaseRaw w place => exact h.undisturbed (m.undisturbed_giveBack place _)
  | createPool count size align =>
    have made := h.createPool count size align
    unfold obey tryCreatePool
    dsimp only
    split <;> next e => rwa [e] at made
  | dropPool place => exact provided _ (h.dropPool place)
  | acquire place =>
    exact provided _ (other (Working.modifyPool m place _ BufferPool.addresses_acquireNext))
  | markPosted place id => exact provided _ (other (working_markPosted m place id))
  | recycle place id => exact provided _ (other (working_recycle m place id))
  | putBack place id => exact provided _ (other (working_putBack m place id))
  | markDelivered place id =>
    exact provided _ (h.undisturbed (m.undisturbed_keepDelivered place id))
  | stateOf | addressOf | inspectPool => exact provided _ h
  | arm d on =>
    exact provided _ (h.undisturbed (Working.undisturbed (working_setArmed m d on) (by decide)))
  | move mv => exact h.undisturbed (.move m mv)

end Machine

/-! ## Dealings -/

/-- Something that is done with engines, rings, pools and frames.  In the callbacks of a service there
are `Inner` dealings, and so there are while another adapter is at work. -/
inductive Deal (Inner : Busy → Machine → Machine → Prop) (b : Busy) : Machine → Machine → Prop
  /-- A command is carried out.  An engine that is being served is not dropped. -/
  | obey (m : Machine) (c : Command) (free : c = .dropEngine → b.here = false) :
      Deal Inner b m (m.obey c).2
  /-- A service is carried out. -/
  | serve (m : Machine) (what : Service) {u : Upper} (h : u.Abides (Inner { b with here := true })) :
      Deal Inner b m (m.serve what u).2
  /-- An engine is made, or that is refused. -/
  | createEngine (m : Machine) (c : Config) (idle : b.here = false) (vacant : m.rx = none)
      (unowned : m.engine = none) : Deal Inner b m (m.createEngine c).2
  /-- A transmit ring is made, or that is refused. -/
  | buildTx (m : Machine) (plan : TxPlan) : Deal Inner b m (m.buildTx plan).2
  /-- A receive ring is made over a pool, or that is refused. -/
  | buildRx (m : Machine) (plan : RxPlan) (idle : b.here = false) (vacant : m.rx = none)
      (unowned : m.engine = none) (refers : m.refersTo plan.pool = true) :
      Deal Inner b m (m.buildRx plan).2
  /-- An arbiter is made. -/
  | buildArbiter (m : Machine) : Deal Inner b m m.buildArbiter.2
  /-- Rings and arbiter are dropped. -/
  | dropRings (m : Machine) (idle : b.here = false) : Deal Inner b m m.dropRings
  /-- Somebody who refers to a pool makes another reference to it. -/
  | share (m : Machine) {place : Nat} (refers : m.refersTo place = true) :
      Deal Inner b m (m.share place)
  /-- What a request came to is entered. -/
  | reply (m : Machine) (o : Outcome) : Deal Inner b m (m.record (.replied o))
  /-- The adapter does what it likes, and so does the allocator. -/
  | environment (m : Machine) (adapter : Adapter) (memory : Memory) (agenda : List (List Move)) :
      Deal Inner b m { m with adapter := adapter, memory := memory, agenda := agenda }
  /-- There is one more adapter. -/
  | annex (m : Machine) (a : Adapter) : Deal Inner b m (m.annex a)
  /-- Another adapter is at work for a while. -/
  | elsewhere {m m' : Machine} {j : Nat} (inside : j < m.aside.length)
      (run : ReflTransGen (Inner (b.exchange j)) (m.exchange j) m') :
      Deal Inner b m (m'.exchange j)

/-- Dealings that nest at most so deep. -/
def Deals : Nat → Busy → Machine → Machine → Prop
  | 0, _ => fun _ _ => False
  | n + 1, b => Deal (Deals n) b

/-- What each act keeps, a run keeps. -/
theorem Keeping.run (acts : Keeping b Act) (run : ReflTransGen Act m m')
    (h : Machine.Tidy b m₀ m) : Machine.Tidy b m₀ m' := by
  induction run with
  | refl => exact h
  | tail _ act ih => exact acts _ _ act _ ih

/-- **Every dealing leaves the machine in order**, if those inside it do. -/
theorem Deal.keeps {Inner : Busy → Machine → Machine → Prop}
    (inner : ∀ b, Keeping b (Inner b)) (b : Busy) : Keeping b (Deal Inner b) := by
  intro m m' deal m₀ h
  cases deal with
  | obey c free => exact Machine.tidy_obey h c free
  | serve what abides => exact Machine.tidy_serve (inner _) h what abides
  | createEngine c idle vacant unowned => exact h.createEngine idle vacant unowned c
  | buildTx plan =>
    unfold Machine.buildTx
    split
    · exact h
    · exact h.undisturbed .elsewhere
  | buildRx plan idle vacant unowned refers =>
    unfold Machine.buildRx
    split
    · exact h
    · split
      · exact h
      · next ring new =>
        obtain ⟨-, draws, -⟩ := RxRing.holds_create new
        exact h.placeRx idle vacant unowned (draws ▸ refers) m.tx m.engine
          fun e owned => absurd (unowned.symm.trans owned) nofun
  | buildArbiter => exact h.undisturbed m.undisturbed_createArbiter
  | dropRings idle => exact h.dropRings idle
  | share refers => exact h.share refers
  | reply o => exact h.undisturbed (.note m rfl)
  | environment => exact h.undisturbed .elsewhere
  | annex a => exact h.annex a
  | elsewhere inside run => exact h.elsewhere inside ((inner _).run run)

/-- However deep they nest, dealings leave the machine in order. -/
theorem Deals.keeps (n : Nat) : ∀ b, Keeping b (Deals n b) := by
  induction n with
  | zero => exact fun _ _ _ none => none.elim
  | succ n ih => exact Deal.keeps ih

/-! ## Every run -/

namespace Machine

/-- A machine in which nothing has been made yet, and that keeps and remembers everything. -/
structure Fresh (m : Machine) : Prop where
  /-- Every event is kept. -/
  complete : m.journal.detail = .complete
  /-- There was none yet. -/
  events : m.journal.events = #[]
  /-- Every moment is remembered. -/
  moments : m.moments = some []
  /-- There is no pool. -/
  pools : m.pools = #[]
  /-- No frame is held. -/
  frames : m.frames = #[]
  /-- There is no receive ring. -/
  rx : m.rx = none
  /-- There is no engine. -/
  engine : m.engine = none
  /-- Nothing waits aside. -/
  aside : m.aside = []

theorem Fresh.settled (h : m.Fresh) : m.toScene.Settled := by
  have nothing (place : Nat) : m.refersTo place = false := by
    simp [Scene.refersTo, Scene.atWork, Assembly.refersTo, h.pools, h.frames, h.rx, h.engine, h.aside]
  have dead (place : Nat) : m.livesAt place = false := by simp [Scene.livesAt, h.pools]
  refine ⟨⟨[], ⟨h.complete, ?_, ?_⟩, ?_⟩, fun place refers => ?_, fun place alive => ?_,
    fun f hf => ?_, fun a ha => ?_⟩
  · rw [h.events]
    rfl
  · rw [h.events]
    exact givesBackOut_nil
  · simp [Scene.blocksOf, h.pools]
  · exact absurd ((nothing place).symm.trans refers) Bool.false_ne_true
  · exact absurd ((dead place).symm.trans alive) Bool.false_ne_true
  · rw [h.frames] at hf
    exact absurd hf (Array.not_mem_empty _)
  · rw [Scene.assemblies, h.aside] at ha
    obtain rfl := mem_singleton.mp ha
    exact fun e owned => absurd (owned.symm.trans h.engine) (Option.some_ne_none e)

/-- The blocks of a machine are accounted for. -/
structure BlocksAccounted (m : Machine) : Prop where
  /-- Only blocks that were out have been given back. -/
  honest : GivesBackOut m.journal.events.toList
  /-- Every moment was orderly. -/
  moments : m.Always Scene.Orderly
  /-- As many blocks are out as the pools have that are referred to. -/
  balanced : (blocksOut m.journal.events.toList).length = m.capacityReferred
  /-- The block in which a held frame lies is out. -/
  held : ∀ f, some f ∈ m.frames → f.address ∈ blocksOut m.journal.events.toList
  /-- A pool that cannot be made leaves no block behind. -/
  poolRefused : ∀ count size align cause, (m.createPool count size align).1 = .error cause →
    blocksOut (m.createPool count size align).2.journal.events.toList ~
      blocksOut m.journal.events.toList
  /-- Nor does an engine. -/
  engineRefused : ∀ c cause, (m.createEngine c).1 = .error cause →
    blocksOut (m.createEngine c).2.journal.events.toList ~ blocksOut m.journal.events.toList
  /-- When nobody refers to any pool no block is out. -/
  returned : (∀ place, m.refersTo place = false) → blocksOut m.journal.events.toList = []

end Machine

/-- **Blocks live and die with their pools**, and these with the last reference to them.  Whatever is
made over one allocator, whenever it refuses a block, and in whatever order engines, rings, frames and
references go: no block is given back twice or too early, and none is left behind. -/
theorem blocks_live_with_their_pools {k : Machine} {n : Nat} (fresh : k.Fresh)
    (run : ReflTransGen (Deals n {}) k m) : m.BlocksAccounted := by
  have start : Machine.Tidy {} k k := .refl _ fresh.settled
  have tidy := (Deals.keeps n {}).run run start
  have settled := tidy.sound
  obtain ⟨out, accounts, -⟩ := settled.account
  refine ⟨accounts.honest, tidy.orderly.always ⟨[], fresh.moments, fun _ none => ?_⟩, ?_,
    settled.orderly.held, fun _ _ _ _ => Machine.blocksOut_createPool settled _ _ _,
    fun _ _ => Machine.blocksOut_createEngine settled, fun nobody => ?_⟩
  · exact absurd none not_mem_nil
  · exact settled.perm.length_eq.trans m.length_blocksOf_refersTo
  · have none : m.blocksOf m.refersTo = [] := by
      rw [Scene.blocksOf, filter_eq_nil_iff.mpr fun place _ => ?_, flatMap_nil]
      rw [nobody]
      exact Bool.false_ne_true
    have perm := settled.perm
    rw [none] at perm
    exact perm.eq_nil

/-- An engine is made and started, and a frame of it is held.  Over another adapter the allocator refuses
a block the first time, so that a second engine is made only in the second attempt.  Then the first
engine is dropped, and nobody refers to its pool but the frame; after the frame the second engine
goes. -/
theorem blocks_live_with_their_pools_mixed :
    ∃ m m' : Machine, ReflTransGen (Deals 2 {}) (.blank 4) m ∧ ReflTransGen (Deals 2 {}) m m' ∧
      m.BlocksAccounted ∧ m.toScene.capacityReferred = 8 ∧ m.engine.isNone = true ∧
      (m.frames.any fun f => f.isSome) = true ∧
      (m.journal.events.any fun e => e matches .allocated _ none) = true ∧
      m'.BlocksAccounted ∧ blocksOut m'.journal.events.toList = [] := by
  have fresh : (Machine.blank 4).Fresh := ⟨rfl, rfl, rfl, rfl, rfl, rfl, rfl, rfl⟩
  let keeper (limit : Option Nat) : Allocator := .orderly Allocator.usualDistance limit
  let short (m : Machine) (limit : Option Nat) : Machine :=
    { m with memory := { m.memory with allocator := keeper limit } }
  let served : Machine := (((Machine.small.obey .start).2.obey (.move .frame)).2.serve .advanceRx
    .keeping).2
  let holding : Machine := served.annex { rxSlots := 4 }
  let refused : Machine := ((short (holding.exchange 0) (some 6)).createEngine .small).2
  let second : Machine := ((short refused none).createEngine .small).2
  let m : Machine := (((second.exchange 0).obey .dropEngine).2.obey (.dropPool 0)).2
  let dropped : Machine := (m.obey (.dropFrame 0)).2
  let last : Machine := (((dropped.exchange 0).obey (.dropPool 1)).2.obey .dropEngine).2
  have limited (k : Machine) (limit : Option Nat) :
      Deals 1 (Busy.exchange {} 0) k (short k limit) :=
    .environment k k.adapter { k.memory with allocator := keeper limit } k.agenda
  have away : ReflTransGen (Deals 1 (Busy.exchange {} 0)) (holding.exchange 0) second :=
    ReflTransGen.refl
      |>.tail (limited _ (some 6))
      |>.tail (.createEngine _ .small rfl (by decide +kernel) (by decide +kernel))
      |>.tail (limited refused none)
      |>.tail (.createEngine _ .small rfl (by decide +kernel) (by decide +kernel))
  have run : ReflTransGen (Deals 2 {}) (.blank 4) m :=
    ReflTransGen.refl
      |>.tail (.createEngine _ .small rfl rfl rfl)
      |>.tail (.obey _ .start nofun)
      |>.tail (.obey _ (.move .frame) nofun)
      |>.tail (.serve _ .advanceRx (Upper.abides_keeping _))
      |>.tail (.annex _ _)
      |>.tail (.elsewhere (by decide +kernel) away)
      |>.tail (.obey _ .dropEngine fun _ => rfl)
      |>.tail (.obey _ (.dropPool 0) nofun)
  have back : ReflTransGen (Deals 1 (Busy.exchange {} 0)) (dropped.exchange 0) last :=
    ReflTransGen.refl
      |>.tail (.obey _ (.dropPool 1) nofun)
      |>.tail (.obey _ .dropEngine fun _ => rfl)
  have rest : ReflTransGen (Deals 2 {}) m (last.exchange 0) :=
    ReflTransGen.refl
      |>.tail (.obey _ (.dropFrame 0) nofun)
      |>.tail (.elsewhere (by decide +kernel) back)
  exact ⟨m, last.exchange 0, run, rest, blocks_live_with_their_pools fresh run, by decide +kernel,
    by decide +kernel, by decide +kernel, by decide +kernel,
    blocks_live_with_their_pools fresh (run.trans rest), by decide +kernel⟩

end DescriptorRings
