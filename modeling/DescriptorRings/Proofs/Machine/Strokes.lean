import DescriptorRings.Machine.Engine
import DescriptorRings.Proofs.Device.Law
import DescriptorRings.Proofs.Machine.Entries
import DescriptorRings.Proofs.Receive.Pool
import DescriptorRings.Proofs.Transmit.Window

/-!
# What one part does to the others

Both rings and the arbiter work on one adapter, and any of them may be at work while another one is
in the middle of a request, since the upper layer may be called there.  A part can be disturbed by
the others only as far as they change what it relies on, and that is very little.  This file lists
it once: a *stroke* is the smallest thing that a part does, and it is an access to the adapter, an
entry in the journal, or a change of what belongs to the part.

Whatever a part does is a series of strokes, with acts of the upper layer between them (`Working`).
This needs no invariant of any kind, so it holds of a ring in any state, and of no ring at all.

A direction is switched and a ring changes its phase when the ring is started or cancelled,
and frames are handed out and given back when it is served.  `shifts` tells the two apart: without it
no stroke is at the switch, and with it none is about what the upper layer holds.  A pool is taken
down when a frame was the last to refer to it, and that too happens without it only.
-/

namespace DescriptorRings

open Relation

/-! ## Strokes -/

/-- The parts of a machine that work on the adapter side by side. -/
inductive Part where
  /-- The transmit ring. -/
  | tx
  /-- The receive ring and its pool. -/
  | rx
  /-- The arbiter. -/
  | irq
  deriving DecidableEq

namespace Part

/-- The registers that a part writes in the course of its work. -/
def owns : Part → Register → Bool
  | .tx, .txProducer | .rx, .rxProducer | .irq, .irqClear | .irq, .irqEnable => true
  | _, _ => false

/-- The register with which a part switches its direction. -/
def switch? : Part → Option Register
  | .tx => some .txDmaControl
  | .rx => some .rxDmaControl
  | .irq => none

/-- What a part enters in the journal, accesses apart.  Notices of the gravest level are given by the
receive ring alone, if at all. -/
def tells : Part → Event → Bool
  | .rx, .noticed _ => true
  | _, .noticed n => n.level != .error
  | .tx, .posting _ | .tx, .completed _ => true
  | .rx, .readCompletion _ _ | .rx, .delivered _ _ => true
  | .irq, .armed _ _ _ | .irq, .notified _ => true
  | _, _ => false

/-- All that a part enters in the journal. -/
def enters (p : Part) : Event → Bool
  | .moved _ | .read _ _ => true
  | .wrote r _ => p.owns r || p.switch? == some r
  | .wroteTx _ _ => p == .tx
  | .wroteRx _ _ _ | .freed _ => p == .rx
  | e => p.tells e

theorem enters_of_tells {p : Part} {e : Event} (h : p.tells e = true) : p.enters e = true := by
  cases p <;> cases e <;> first | exact h | exact absurd h Bool.false_ne_true

end Part

/-- What a pool is to the allocator: where its blocks lie, whether its maker refers to it, and whether
it still has them. -/
def PoolEntry.estate (e : PoolEntry) : List BusAddress × Bool × Bool :=
  (e.pool.addresses, e.listed, e.live)

/-- The smallest things that a part does. -/
inductive Stroke (p : Part) (shifts : Prop) : Machine → Machine → Prop
  /-- The adapter has its turn. -/
  | turn (m : Machine) : Stroke p shifts m m.turn
  /-- A register is read. -/
  | look (m : Machine) (r : Register) : Stroke p shifts m (m.peek r)
  /-- Something is entered in the journal. -/
  | tell (m : Machine) {e : Event} (h : p.tells e = true) : Stroke p shifts m (m.record e)
  /-- A register is written. -/
  | write (m : Machine) {r : Register} (h : p.owns r = true) (v : UInt32) :
      Stroke p shifts m (m.poke r v)
  /-- The direction is switched. -/
  | switch (m : Machine) {r : Register} (h : p.switch? = some r) (v : UInt32) (allowed : shifts) :
      Stroke p shifts m (m.poke r v)
  /-- A transmit descriptor is written. -/
  | describeTx (m : Machine) (h : p = .tx) (slot : Nat) (d : TxDescriptor) :
      Stroke p shifts m (m.pokeTx slot d)
  /-- A receive descriptor is written. -/
  | describeRx (m : Machine) (h : p = .rx) (slot : Nat) (address : BusAddress) (capacity : UInt32) :
      Stroke p shifts m (m.pokeRx slot address capacity)
  /-- The transmit ring changes. -/
  | changeTx (m : Machine) (h : p = .tx) (tx : Option TxRing)
      (phase : shifts ∨ tx.map TxRing.phase = m.tx.map TxRing.phase) :
      Stroke p shifts m { m with tx := tx }
  /-- The receive ring changes, or the buffers of its pool move. -/
  | changeRx (m : Machine) (h : p = .rx) (rx : Option RxRing) (pools : Array PoolEntry)
      (phase : shifts ∨ rx.map RxRing.phase = m.rx.map RxRing.phase)
      (draws : rx.map RxRing.pool = m.rx.map RxRing.pool)
      (estates : pools.map PoolEntry.estate = m.pools.map PoolEntry.estate) :
      Stroke p shifts m { m with rx := rx, pools := pools }
  /-- A block is given back. -/
  | free (m : Machine) (h : p = .rx) (a : BusAddress) (serving : ¬shifts) :
      Stroke p shifts m (m.free a)
  /-- A pool has no blocks any more. -/
  | bury (m : Machine) (h : p = .rx) (place : Nat) (serving : ¬shifts) :
      Stroke p shifts m
        { m with pools := m.pools.modify place fun e => { e with live := false } }
  /-- Something is handed out, or given back. -/
  | changeHeld (m : Machine) (h : p = .rx) (frames : Array (Option Frame))
      (handles : Array ReturnHandle) (serving : ¬shifts) :
      Stroke p shifts m { m with frames := frames, handles := handles }
  /-- The arbiter changes. -/
  | changeArbiter (m : Machine) (h : p = .irq) (arbiter : Option Arbiter)
      (stalled : Option Direction) :
      Stroke p shifts m { m with arbiter := arbiter, stalled := stalled }

/-- What happens while a part is at work: it makes a stroke, or the upper layer acts. -/
inductive Work (p : Part) (shifts : Prop) (Act : Machine → Machine → Prop) :
    Machine → Machine → Prop
  /-- The part makes a stroke. -/
  | stroke {m m' : Machine} (h : Stroke p shifts m m') : Work p shifts Act m m'
  /-- The upper layer acts. -/
  | act {m m' : Machine} (h : Act m m') : Work p shifts Act m m'

/-- One machine is reached from another while a part is at work. -/
abbrev Working (p : Part) (shifts : Prop) (Act : Machine → Machine → Prop) :
    Machine → Machine → Prop :=
  ReflTransGen (Work p shifts Act)

variable {p : Part} {shifts : Prop} {Act : Machine → Machine → Prop}

/-- A request under way, which began at a machine. -/
structure Served.Works (p : Part) (shifts : Prop) (Act : Machine → Machine → Prop) (m : Machine)
    (s : Served) : Prop where
  /-- The part has been at work since. -/
  run : Working p shifts Act m s.machine
  /-- The callbacks to come are bound by the rule. -/
  abides : s.upper.Abides Act

/-! ## What a stroke leaves alone -/

namespace Stroke

variable {m m' : Machine}

/-- **A part enters what it enters**, and nothing that only other parts do. -/
theorem entered (h : Stroke p shifts m m') : m.Enters (fun e => p.enters e = true) m' := by
  cases h with
  | turn => exact .turn (fun _ => rfl) m
  | look r => exact .of_journal_add (Machine.journal_record _ _) rfl
  | tell h => exact .record (Part.enters_of_tells h) m
  | @write r h v =>
    have mine : p.enters (.wrote r v) = true := by rw [Part.enters, h, Bool.true_or]
    exact .of_journal_add (Machine.journal_record _ _) mine
  | @switch r h v =>
    have mine : p.enters (.wrote r v) = true := by
      rw [Part.enters, h, beq_self_eq_true, Bool.or_true]
    exact .of_journal_add (Machine.journal_record _ _) mine
  | describeTx h =>
    subst h
    exact .of_journal_add (Machine.journal_record _ _) rfl
  | describeRx h =>
    subst h
    exact .of_journal_add (Machine.journal_record _ _) rfl
  | free h =>
    subst h
    exact .of_journal_add (Machine.journal_record _ _) rfl
  | changeTx | changeRx | bury | changeHeld | changeArbiter => exact .of_journal_eq _ rfl

/-- **Each part has what is its own**: a stroke is an access, or it changes what belongs to the
part. -/
theorem cases (h : Stroke p shifts m m') :
    (∃ a mem j, m'.toScene = { m.toScene with adapter := a, memory := mem, journal := j }) ∨
      (p = .tx ∧ ∃ tx, (shifts ∨ tx.map TxRing.phase = m.tx.map TxRing.phase) ∧
        m' = { m with tx := tx }) ∨
      (p = .rx ∧ ∃ rx pools, (shifts ∨ rx.map RxRing.phase = m.rx.map RxRing.phase) ∧
        m' = { m with rx := rx, pools := pools }) ∨
      (p = .rx ∧ ¬shifts ∧ ∃ frames handles, m' = { m with frames := frames, handles := handles }) ∨
      p = .irq ∧ ∃ arbiter stalled, m' = { m with arbiter := arbiter, stalled := stalled } := by
  cases h with
  | turn => exact .inl (Machine.exists_toScene_turn m)
  | look r => exact .inl ⟨_, _, _, Machine.toScene_peek m r⟩
  | tell => exact .inl ⟨_, _, _, Machine.toScene_record m _⟩
  | write => exact .inl ⟨_, _, _, Machine.toScene_poke m _ _⟩
  | switch => exact .inl ⟨_, _, _, Machine.toScene_poke m _ _⟩
  | describeTx => exact .inl ⟨_, _, _, Machine.toScene_pokeTx m _ _⟩
  | describeRx => exact .inl ⟨_, _, _, Machine.toScene_pokeRx m _ _ _⟩
  | changeTx h _ phase => exact .inr (.inl ⟨h, _, phase, rfl⟩)
  | changeRx h rx pools phase => exact .inr (.inr (.inl ⟨h, rx, pools, phase, rfl⟩))
  | free => exact .inl ⟨m.adapter, _, _, Machine.toScene_record _ _⟩
  | bury h => exact .inr (.inr (.inl ⟨h, m.rx, _, .inr rfl, rfl⟩))
  | changeHeld h _ _ serving => exact .inr (.inr (.inr (.inl ⟨h, serving, _, _, rfl⟩)))
  | changeArbiter h => exact .inr (.inr (.inr (.inr ⟨h, _, _, rfl⟩)))

theorem tx_eq (h : Stroke p shifts m m') (other : p ≠ .tx) : m'.tx = m.tx := by
  rcases h.cases with ⟨a, mem, j, same⟩ | ⟨rfl, -⟩ | ⟨-, rx, pools, -, rfl⟩ |
    ⟨-, -, frames, handles, rfl⟩ | ⟨-, arbiter, stalled, rfl⟩
  · rw [same]
  · exact absurd rfl other
  · rfl
  · rfl
  · rfl

theorem rx_eq (h : Stroke p shifts m m') (other : p ≠ .rx) :
    m'.rx = m.rx ∧ m'.pools = m.pools := by
  rcases h.cases with ⟨a, mem, j, same⟩ | ⟨-, tx, phase, rfl⟩ | ⟨rfl, -⟩ | ⟨rfl, -⟩ |
    ⟨-, arbiter, stalled, rfl⟩
  · rw [same]
    exact ⟨rfl, rfl⟩
  · exact ⟨rfl, rfl⟩
  · exact absurd rfl other
  · exact absurd rfl other
  · exact ⟨rfl, rfl⟩

theorem arbiter_eq (h : Stroke p shifts m m') (other : p ≠ .irq) :
    m'.arbiter = m.arbiter ∧ m'.stalled = m.stalled := by
  rcases h.cases with ⟨a, mem, j, same⟩ | ⟨-, tx, phase, rfl⟩ | ⟨-, rx, pools, -, rfl⟩ |
    ⟨-, -, frames, handles, rfl⟩ | ⟨rfl, -⟩
  · rw [same]
    exact ⟨rfl, rfl⟩
  · exact ⟨rfl, rfl⟩
  · exact ⟨rfl, rfl⟩
  · exact ⟨rfl, rfl⟩
  · exact absurd rfl other

/-- A ring enters a phase only at the switch. -/
theorem phase_eq (h : Stroke p False m m') :
    m'.tx.map TxRing.phase = m.tx.map TxRing.phase ∧
      m'.rx.map RxRing.phase = m.rx.map RxRing.phase := by
  rcases h.cases with ⟨a, mem, j, same⟩ | ⟨-, tx, phase, rfl⟩ | ⟨-, rx, pools, phase, rfl⟩ |
    ⟨-, -, frames, handles, rfl⟩ | ⟨-, arbiter, stalled, rfl⟩
  · rw [same]
    exact ⟨rfl, rfl⟩
  · exact ⟨phase.resolve_left id, rfl⟩
  · exact ⟨rfl, phase.resolve_left id⟩
  · exact ⟨rfl, rfl⟩
  · exact ⟨rfl, rfl⟩

/-- Nothing is handed out at the switch, and nothing by other parts. -/
theorem held_eq (h : Stroke p shifts m m') (idle : p = .rx → shifts) :
    m'.frames = m.frames ∧ m'.handles = m.handles := by
  rcases h.cases with ⟨a, mem, j, same⟩ | ⟨-, tx, phase, rfl⟩ | ⟨-, rx, pools, phase, rfl⟩ |
    ⟨rx, serving, -⟩ | ⟨-, arbiter, stalled, rfl⟩
  · rw [same]
    exact ⟨rfl, rfl⟩
  · exact ⟨rfl, rfl⟩
  · exact ⟨rfl, rfl⟩
  · exact absurd (idle rx) serving
  · exact ⟨rfl, rfl⟩

end Stroke

namespace Machine

/-- A register holds a value, and the adapter does not plan to change it. -/
structure Reads (r : Register) (v : UInt32) (m : Machine) : Prop where
  /-- What it holds. -/
  value : m.adapter.read r = v
  /-- The plans leave it alone. -/
  planned : Permitted (Move.Spares r) m.agenda

namespace Reads

variable {r s : Register} {v : UInt32} {m : Machine}

theorem record (h : m.Reads r v) (e : Event) : (m.record e).Reads r v := by
  refine ⟨?_, ?_⟩
  · rw [adapter_record]
    exact h.value
  · rw [agenda_record]
    exact h.planned

theorem move (h : m.Reads r v) {mv : Move} (spares : mv.Spares r) : (m.move mv).Reads r v := by
  refine ⟨?_, ?_⟩
  · rw [toScene_move]
    exact (spares m.adapter).trans h.value
  · rw [agenda_move]
    exact h.planned

theorem turn (h : m.Reads r v) : m.turn.Reads r v :=
  keeps_turn_of_planned h.planned (fun _ _ planned => ⟨h.value, planned⟩)
    (fun _ _ spares hk => hk.move spares) h

theorem poke (h : m.Reads r v) (other : r ≠ s) (status : r ≠ .irqStatus) (w : UInt32) :
    (m.poke s w).Reads r v :=
  record (m := m.setAdapter (m.adapter.write s w))
    ⟨(m.adapter.read_write_elsewhere other status w).trans h.value, h.planned⟩ _

/-- The register itself is written. -/
theorem overwrite (h : m.Reads r v) (w : UInt32) : (m.poke r w).Reads r w :=
  record (m := m.setAdapter (m.adapter.write r w))
    ⟨Adapter.read_write_self _ _ _, h.planned⟩ _

end Reads

end Machine

/-- **A register that a part does not write is left alone by it.** -/
theorem Stroke.reads {m m' : Machine} {r : Register} {v : UInt32} (h : Stroke p shifts m m')
    (foreign : p.owns r = false) (unswitched : shifts → p.switch? ≠ some r)
    (status : r ≠ .irqStatus) (reads : m.Reads r v) : m'.Reads r v := by
  cases h with
  | turn => exact reads.turn
  | look | tell => exact reads.record _
  | @write s h =>
    have other : r ≠ s := by
      rintro rfl
      exact Bool.false_ne_true (foreign.symm.trans h)
    exact reads.poke other status _
  | @switch s h _ allowed =>
    have other : r ≠ s := by
      rintro rfl
      exact unswitched allowed h
    exact reads.poke other status _
  | describeTx _ slot d =>
    exact Machine.Reads.record (m := m.setAdapter (m.adapter.writeTx slot d))
      ⟨reads.value, reads.planned⟩ _
  | describeRx _ slot address capacity =>
    exact Machine.Reads.record (m := m.setAdapter (m.adapter.writeRx slot address capacity))
      ⟨reads.value, reads.planned⟩ _
  | free _ a =>
    exact Machine.Reads.record (m := { m with memory := m.memory.free a })
      ⟨reads.value, reads.planned⟩ _
  | changeTx | changeRx | bury | changeHeld | changeArbiter => exact ⟨reads.value, reads.planned⟩

namespace Working

theorem stroke {m m' : Machine} (h : Stroke p shifts m m') : Working p shifts Act m m' :=
  .single (.stroke h)

/-- What each stroke and each act keeps, work keeps. -/
theorem keeps {P : Machine → Prop} {m m' : Machine} (run : Working p shifts Act m m')
    (strokes : ∀ k k', Stroke p shifts k k' → P k → P k') (acts : ∀ k k', Act k k' → P k → P k')
    (start : P m) : P m' := by
  induction run with
  | refl => exact start
  | tail _ step ih =>
    cases step with
    | stroke h => exact strokes _ _ h ih
    | act h => exact acts _ _ h ih

/-! ## Work in which nobody else acts -/

section Alone

variable {m m' : Machine}

/-- The transmit ring is left to its part. -/
theorem tx_eq (run : Working p shifts (fun _ _ => False) m m') (other : p ≠ .tx) : m'.tx = m.tx :=
  run.keeps (P := fun k => k.tx = m.tx) (fun _ _ stroke same => (stroke.tx_eq other).trans same)
    (fun _ _ none => none.elim) rfl

/-- So are the receive ring and the pools. -/
theorem rx_eq (run : Working p shifts (fun _ _ => False) m m') (other : p ≠ .rx) :
    m'.rx = m.rx ∧ m'.pools = m.pools :=
  run.keeps (P := fun k => k.rx = m.rx ∧ k.pools = m.pools)
    (fun _ _ stroke same =>
      ⟨(stroke.rx_eq other).1.trans same.1, (stroke.rx_eq other).2.trans same.2⟩)
    (fun _ _ none => none.elim) ⟨rfl, rfl⟩

/-- The upper layer has what it had, unless the receive ring is served. -/
theorem held_eq (run : Working p shifts (fun _ _ => False) m m') (idle : p = .rx → shifts) :
    m'.frames = m.frames ∧ m'.handles = m.handles :=
  run.keeps (P := fun k => k.frames = m.frames ∧ k.handles = m.handles)
    (fun _ _ stroke same =>
      ⟨(stroke.held_eq idle).1.trans same.1, (stroke.held_eq idle).2.trans same.2⟩)
    (fun _ _ none => none.elim) ⟨rfl, rfl⟩

end Alone

/-! ## Accesses and entries -/

section Accesses

variable (m : Machine)

theorem read (r : Register) : Working p shifts Act m (m.read r).2 :=
  (stroke (.turn m)).trans (stroke (.look m.turn r))

theorem readCounter (r : Register) : Working p shifts Act m (m.readCounter r).2 :=
  read m r

theorem write {r : Register} (h : p.owns r = true) (v : UInt32) :
    Working p shifts Act m (m.write r v) :=
  (stroke (.turn m)).trans (stroke (.write m.turn h v))

theorem switch {r : Register} (h : p.switch? = some r) (v : UInt32) :
    Working p True Act m (m.write r v) :=
  (stroke (.turn m)).trans (stroke (.switch m.turn h v trivial))

theorem give (n : Notice) (mild : p.tells (.noticed n) = true) :
    Working p shifts Act m (m.give n) := by
  unfold Machine.give
  split
  · exact stroke (.tell m mild)
  · exact .refl

theorem giveIf (condition : Bool) (n : Notice) (mild : p.tells (.noticed n) = true) :
    Working p shifts Act m (m.giveIf condition n) := by
  unfold Machine.giveIf
  split
  · exact give m n mild
  · exact .refl

theorem readCompletion (slot : Nat) : Working .rx shifts Act m (m.readCompletion slot).2 :=
  (stroke (.turn m)).trans (stroke (.tell m.turn rfl))

theorem modifyTx (f : TxRing → TxRing) (phase : ∀ r, (f r).phase = r.phase) :
    Working .tx shifts Act m (m.modifyTx f) := by
  refine stroke (.changeTx m rfl _ (.inr ?_))
  rw [Option.map_map]
  exact congrArg (m.tx.map ·) (funext phase)

/-- The transmit ring is started or cancelled. -/
theorem shiftTx (f : TxRing → TxRing) : Working .tx True Act m (m.modifyTx f) :=
  stroke (.changeTx m rfl _ (.inl trivial))

theorem modifyRx (f : RxRing → RxRing) (phase : ∀ r, (f r).phase = r.phase)
    (draws : ∀ r, (f r).pool = r.pool) : Working .rx shifts Act m (m.modifyRx f) := by
  refine stroke (.changeRx m rfl (m.rx.map f) m.pools (.inr ?_) ?_ rfl)
  · rw [Option.map_map]
    exact congrArg (m.rx.map ·) (funext phase)
  · rw [Option.map_map]
    exact congrArg (m.rx.map ·) (funext draws)

theorem enter (phase : Phase) : Working .rx True Act m (m.modifyRx fun r => r.enter phase) := by
  refine stroke (.changeRx m rfl _ m.pools (.inl trivial) ?_ rfl)
  rw [Option.map_map]
  rfl

theorem modifyPool (place : Nat) (f : BufferPool → BufferPool)
    (stays : ∀ p, (f p).addresses = p.addresses) :
    Working .rx shifts Act m (m.modifyPool place f) := by
  refine stroke (.changeRx m rfl m.rx _ (.inr rfl) rfl (BufferPool.map_modify _ _ fun e => ?_))
  exact congrArg (fun as => (as, e.listed, e.live)) (stays e.pool)

theorem modifyArbiter (f : Arbiter → Arbiter) : Working .irq shifts Act m (m.modifyArbiter f) :=
  stroke (.changeArbiter m rfl _ m.stalled)

end Accesses

/-! ## Repetition -/

theorem foldl {α : Type} {f : Machine → α → Machine}
    (each : ∀ k a, Working p shifts Act k (f k a)) (as : List α) (m : Machine) :
    Working p shifts Act m (as.foldl f m) := by
  induction as generalizing m with
  | nil => exact .refl
  | cons a as ih => exact (each m a).trans (ih (f m a))

end Working

namespace Served.Works

variable {m : Machine} {s : Served}

theorem start {u : Upper} {k : Machine} (abides : u.Abides Act)
    (run : Working p shifts Act m k) : (Served.start u k).Works p shifts Act m :=
  ⟨run, abides⟩

/-- The machine goes on, and more may have been counted. -/
theorem goOn (h : s.Works p shifts Act m) {n : Nat} {k : Machine}
    (run : Working p shifts Act s.machine k) : Served.Works p shifts Act m ⟨n, s.upper, k⟩ :=
  ⟨h.run.trans run, h.abides⟩

theorem onMachine {f : Machine → Machine} (h : s.Works p shifts Act m)
    (each : ∀ k, Working p shifts Act k (f k)) : (s.onMachine f).Works p shifts Act m :=
  ⟨h.run.trans (each _), h.abides⟩

/-- The upper layer is called. -/
theorem reply (h : s.Works p shifts Act m) : s.reply.Works p shifts Act m :=
  ⟨h.run.trans ((Served.run_reply h.abides).lift id fun _ _ => .act),
    Served.abides_reply h.abides⟩

theorem loop {round : Served → Bool × Served}
    (each : ∀ s : Served, s.Works p shifts Act m → (round s).2.Works p shifts Act m) (n : Nat)
    (h : s.Works p shifts Act m) : (loop round n s).Works p shifts Act m :=
  loop_keeps each n h

end Served.Works

namespace Machine

/-! ## The transmit ring -/

theorem working_startTx (m : Machine) : Working .tx True Act m m.startTx.2 := by
  unfold startTx
  split
  · exact .refl
  · have placed : Working .tx True Act m _ := (Working.readCounter m .txConsumer).trans
      (Working.shiftTx _ fun r => r.begin (m.readCounter .txConsumer).1)
    have aligned := placed.trans (Working.write _ (r := .txProducer) rfl
      (m.readCounter .txConsumer).1.toUInt32)
    exact (aligned.trans (Working.switch _ rfl _)).trans (Working.give _ _ rfl)

theorem working_cancelTx (m : Machine) : Working .tx True Act m m.cancelTx := by
  unfold cancelTx
  split
  · exact .refl
  · exact ((Working.switch m rfl _).trans (Working.shiftTx _ _)).trans (Working.give _ _ rfl)

theorem working_postPacket (size : RingSize) (m : Machine) (t : TxPost) :
    Working .tx shifts Act m (postPacket size m t) := by
  have writes (k : Machine) (w : Nat × TxDescriptor) :
      Working .tx shifts Act k (k.writeTx w.1 w.2) :=
    (Working.stroke (.turn k)).trans (Working.stroke (.describeTx k.turn rfl w.1 w.2))
  exact (Working.stroke (.tell m rfl)).trans (Working.foldl writes _ _)

theorem working_postTx (m : Machine) : Working .tx shifts Act m m.postTx := by
  unfold postTx
  split
  · exact .refl
  · next ring _ =>
    have written : Working .tx shifts Act m _ :=
      Working.foldl (working_postPacket ring.size) ring.postingWalk.posts m
    have walked := written.trans
      (Working.modifyTx _ (fun r => r.afterWalk ring.postingWalk) fun _ => rfl)
    have rung (k : Machine) (n : Nat) (c : Counter) :
        Working .tx shifts Act k (k.ringTx n c) := by
      unfold ringTx
      split
      · exact .refl
      · exact (Working.write k rfl _).trans (Working.give _ _ rfl)
    dsimp only
    split
    · exact (walked.trans (Working.give _ _ rfl)).trans (rung _ _ _)
    · exact walked.trans (rung _ _ _)

section Serving

variable {m : Machine} {s : Served}

theorem works_settleTx (h : s.Works .tx shifts Act m) (p : Packet) :
    (settleTx s p).Works .tx shifts Act m := by
  have settled := h.onMachine fun k => Working.modifyTx k (fun r => r.settle p) fun _ => rfl
  have told := settled.onMachine fun k => Working.stroke (.tell k (e := .completed p) rfl)
  exact Served.Works.reply ⟨told.run, told.abides⟩

/-- A packet is taken out of the ring. -/
theorem works_takeTx {take : TxRing → Option (Packet × TxRing)} {p : Packet} {r : TxRing}
    (h : s.Works .tx shifts Act m) (taken : s.machine.tx.bind take = some (p, r))
    (phase : ∀ q, take q = some (p, r) → r.phase = q.phase) :
    Served.Works .tx shifts Act m (s.onMachine fun m => { m with tx := some r }) := by
  obtain ⟨q, tx, next⟩ := Option.bind_eq_some_iff.mp taken
  refine h.goOn (Working.stroke (.changeTx s.machine rfl _ (.inr ?_)))
  rw [tx, Option.map_some, Option.map_some, phase q next]

theorem works_completeDone (n : Nat) (s : Served) (h : s.Works .tx shifts Act m) :
    (completeDone n s).2.Works .tx shifts Act m := by
  unfold completeDone
  split
  case h_1 p ring taken =>
    refine works_settleTx (works_takeTx h taken fun q next => ?_) _
    rcases TxRing.takeDone?_eq_some_iff.mp next with ⟨rest, -, rfl⟩ | ⟨last, rest, -, -, rfl⟩ <;> rfl
  case h_2 => exact h

theorem works_completeOldest (s : Served) (h : s.Works .tx shifts Act m) :
    (completeOldest s).2.Works .tx shifts Act m := by
  unfold completeOldest
  split
  case h_1 p ring taken =>
    refine works_settleTx (works_takeTx h taken fun q next => ?_) _
    rcases TxRing.takeOldest?_eq_some_iff.mp next with ⟨e, rest, -, -, rfl⟩ | ⟨rest, -, -, rfl⟩ <;>
      rfl
  case h_2 => exact h

theorem working_checkTxReading (m : Machine) (c : Counter) :
    Working .tx shifts Act m (m.checkTxReading c) := by
  unfold checkTxReading
  split
  · exact .refl
  · refine (Working.giveIf m _ _ rfl).trans (Working.modifyTx _ _ fun r => ?_)
    unfold TxRing.noteReading
    split <;> rfl

theorem works_reclaimTx (h : s.Works .tx shifts Act m) :
    (reclaimTx s).Works .tx shifts Act m := by
  have read := h.onMachine fun k => (Working.readCounter k .txConsumer).trans
    (working_checkTxReading _ (s.machine.readCounter .txConsumer).1)
  unfold reclaimTx
  exact (Served.Works.loop (works_completeDone _) _ ⟨read.run, read.abides⟩).onMachine fun k =>
    Working.giveIf k _ _ rfl

theorem works_drainTx (h : s.Works .tx shifts Act m) : (drainTx s).Works .tx shifts Act m :=
  (Served.Works.loop works_completeOldest _ h).onMachine fun k =>
    Working.modifyTx k TxRing.abandon fun _ => rfl

/-- **The transmit ring is served by its own strokes**, none of which is at the switch. -/
theorem works_advanceTx (m : Machine) {u : Upper} (abides : u.Abides Act) :
    (m.advanceTx u).Works .tx False Act m := by
  unfold advanceTx
  split
  · exact .start abides .refl
  · split
    · exact .start abides .refl
    · exact works_drainTx (.start abides (Working.modifyTx m TxRing.collect fun _ => rfl))
    · exact works_reclaimTx (.start abides ((Working.modifyTx m TxRing.collect fun _ => rfl).trans
        (working_postTx _)))

end Serving

/-! ## The pool -/

theorem working_alter (m : Machine) (place : Nat) (b : BufferId) (start : BufferState)
    (change : BufferPool → BufferPool) (stays : ∀ p, (change p).addresses = p.addresses) :
    Working .rx shifts Act m (m.alter place b start change).2 := by
  unfold alter
  split
  · exact Working.modifyPool m place change stays
  · exact Working.give m _ rfl
  · exact .refl

theorem working_markPosted (m : Machine) (place : Nat) (b : BufferId) :
    Working .rx shifts Act m (m.markPosted place b).2 :=
  working_alter m place b .acquired _ fun p => p.addresses_move b _

theorem working_recycle (m : Machine) (place : Nat) (b : BufferId) :
    Working .rx shifts Act m (m.recycle place b).2 :=
  working_alter m place b .posted _ fun p => p.addresses_move b _

theorem working_putBack (m : Machine) (place : Nat) (b : BufferId) :
    Working .rx shifts Act m (m.putBack place b).2 :=
  working_alter m place b .acquired _ fun p => p.addresses_move b _

theorem working_markDelivered (m : Machine) (place : Nat) (b : BufferId) :
    Working .rx shifts Act m (m.markDelivered place b).2 := by
  have altered : Working .rx shifts Act m _ :=
    working_alter m place b .posted _ fun p => p.addresses_deliver b
  unfold markDelivered
  split
  · next h => rwa [h] at altered
  · next h =>
    rw [h] at altered
    split <;> exact altered

theorem working_release (m : Machine) (place : Nat) (h : ReturnHandle) :
    Working .rx shifts Act m (m.release place h).2 := by
  unfold release
  split
  · exact Working.modifyPool m place _ fun p => p.addresses_move h.buffer .free
  · exact .refl

theorem working_reapPool (m : Machine) (place : Nat) :
    Working .rx False Act m (m.reapPool place) := by
  have freed (k : Machine) (a : BusAddress) : Working .rx False Act k (k.free a) :=
    Working.stroke (.free k rfl a id)
  unfold reapPool
  split
  · exact .refl
  · split
    · exact ((Working.giveIf m _ _ rfl).trans (Working.foldl freed _ _)).trans
        (Working.stroke (.bury _ rfl place id))
    · exact .refl

theorem working_dropFrame (m : Machine) (f : Frame) : Working .rx False Act m (m.dropFrame f) := by
  have released : Working .rx False Act m _ := working_release m f.pool f.handle
  unfold dropFrame
  split
  · next h =>
    rw [h] at released
    exact released.trans (working_reapPool _ _)
  · next h =>
    rw [h] at released
    exact (released.trans (Working.give _ _ rfl)).trans (working_reapPool _ _)

theorem working_detachFrame (m : Machine) (f : Frame) :
    Working .rx False Act m (m.detachFrame f) :=
  (working_reapPool m f.pool).trans (Working.stroke (.changeHeld _ rfl _ _ id))

theorem working_removeFrame (m : Machine) (i : Nat) : Working .rx False Act m (m.removeFrame i) :=
  Working.stroke (.changeHeld m rfl _ m.handles id)

/-! ## Starting and cancelling the receive ring -/

theorem working_forBuffers {act : BufferId → Machine → Except Refusal Unit × Machine}
    (each : ∀ b k, Working .rx shifts Act k (act b k).2) (batch : List BufferId) (m : Machine) :
    Working .rx shifts Act m (forBuffers act batch m).2 := by
  induction batch generalizing m with
  | nil => exact .refl
  | cons b batch ih =>
    have first := each b m
    unfold forBuffers
    split
    · next h =>
      rw [h] at first
      exact first.trans (ih _)
    · next h => rwa [h] at first

theorem working_postBuffer (m : Machine) (place : Nat) (b : BufferId) :
    Working .rx shifts Act m (m.postBuffer place b).2 := by
  unfold postBuffer
  split
  · have back : Working .rx shifts Act m _ := working_putBack m place b
    split
    · next h => rwa [h] at back
    · next h => rwa [h] at back
  · next address size _ =>
    dsimp only
    have described : Working .rx shifts Act m
        (m.writeRx ((m.rx.map RxRing.tailSlot).getD 0) address (UInt32.ofNat size)) :=
      (Working.stroke (.turn m)).trans (Working.stroke (.describeRx m.turn rfl _ _ _))
    have marked := described.trans (working_markPosted _ place b)
    split
    · next h => rwa [h] at marked
    · next h =>
      rw [h] at marked
      exact marked.trans (Working.modifyRx _ _ (fun _ => rfl) fun _ => rfl)

theorem working_recycleOrReport (m : Machine) (place : Nat) (b : BufferId) :
    Working .rx shifts Act m (m.recycleOrReport place b) := by
  have recycled : Working .rx shifts Act m _ := working_recycle m place b
  unfold recycleOrReport
  split
  · next h => rwa [h] at recycled
  · next h =>
    rw [h] at recycled
    exact recycled.trans (Working.give _ _ rfl)

theorem working_recyclePosted (m : Machine) : Working .rx shifts Act m m.recyclePosted := by
  unfold recyclePosted
  split
  · exact .refl
  · next place held _ =>
    have recycled : Working .rx shifts Act m _ :=
      Working.foldl (fun k b => working_recycleOrReport k place b) held m
    exact (recycled.trans (Working.modifyRx _ RxRing.clear (fun _ => rfl) fun _ => rfl)).trans
      (Working.giveIf _ _ _ rfl)

theorem working_acquireMany (m : Machine) (place count : Nat) :
    Working .rx shifts Act m (m.acquireMany place count).2 := by
  have round (b : Batch) (h : Working .rx shifts Act m b.machine) :
      Working .rx shifts Act m (Batch.next place b).2.machine := by
    have taken : Working .rx shifts Act m (b.machine.acquire place).2 :=
      h.trans (Working.modifyPool b.machine place _ BufferPool.addresses_acquireNext)
    unfold Batch.next
    split
    · next e => rwa [e] at taken
    · next e => rwa [e] at taken
  exact loop_keeps (P := fun b : Batch => Working .rx shifts Act m b.machine) round count .refl

theorem working_abortStart (m : Machine) (place needed : Nat) (batch : List BufferId) :
    Working .rx True Act m (m.abortStart place needed batch).2 := by
  have back : Working .rx True Act m _ :=
    working_forBuffers (fun b k => working_putBack k place b) batch m
  unfold abortStart
  split
  · next h => rwa [h] at back
  · next h =>
    rw [h] at back
    exact (back.trans (Working.enter _ _)).trans (Working.give _ _ rfl)

theorem working_completeStart (m : Machine) (place needed : Nat) (batch : List BufferId) :
    Working .rx True Act m (m.completeStart place needed batch).2 := by
  have placed : Working .rx True Act m _ := (Working.readCounter m .rxConsumer).trans
    (Working.modifyRx _ (fun r => r.resync (m.readCounter .rxConsumer).1) (fun _ => rfl) fun _ => rfl)
  have posted := placed.trans (working_forBuffers (fun b k => working_postBuffer k place b) batch _)
  unfold completeStart
  dsimp only
  split
  · next h => rwa [h] at posted
  · next h =>
    rw [h] at posted
    exact (((posted.trans (Working.enter _ .running)).trans (Working.write _ rfl _)).trans
      (Working.switch _ rfl _)).trans (Working.give _ _ rfl)

theorem working_startRx (m : Machine) : Working .rx True Act m m.startRx.2 := by
  unfold startRx
  split
  · exact .refl
  · next place needed _ =>
    have off : Working .rx True Act m _ := Working.switch m rfl DmaControl.off
    have acquired := (off.trans (working_recyclePosted _)).trans
      (working_acquireMany _ place needed)
    dsimp only
    split
    · exact acquired.trans (working_abortStart _ _ _ _)
    · exact acquired.trans (working_completeStart _ _ _ _)

theorem working_cancelRx (m : Machine) : Working .rx True Act m m.cancelRx := by
  unfold cancelRx
  split
  · exact .refl
  · exact ((Working.switch m rfl _).trans (Working.enter _ _)).trans (Working.give _ _ rfl)

/-! ## Serving the receive ring -/

theorem working_refill (m : Machine) (place : Nat) :
    Working .rx shifts Act m (m.refill place).machine := by
  have round (r : Refill) (h : Working .rx shifts Act m r.machine) :
      Working .rx shifts Act m (refillOne place r).2.machine := by
    have taken : Working .rx shifts Act m (r.machine.acquire place).2 :=
      h.trans (Working.modifyPool r.machine place _ BufferPool.addresses_acquireNext)
    unfold refillOne
    split
    · next e =>
      rw [e] at taken
      exact (taken.trans (Working.modifyRx _ RxRing.noteDeferral (fun _ => rfl) fun _ => rfl)).trans
        (Working.give _ _ rfl)
    · next b k e =>
      rw [e] at taken
      have posted := taken.trans (working_postBuffer k place b)
      split
      · next e' => rwa [e'] at posted
      · next e' => rwa [e'] at posted
  exact loop_keeps (P := fun r : Refill => Working .rx shifts Act m r.machine) round _ .refl

section Serving

variable {m : Machine} {s : Served}

theorem works_deliver (h : s.Works .rx False Act m) (f : Frame) :
    (s.deliver f).Works .rx False Act m := by
  refine Served.Works.reply ?_
  have told := h.onMachine fun k =>
    Working.stroke (.tell k (e := .delivered f (f.bytes k.memory)) rfl)
  unfold Served.dispose
  dsimp only
  split
  · exact ⟨told.run.trans (working_dropFrame _ f), told.abides⟩
  · exact ⟨told.run.trans (Working.stroke (.changeHeld _ rfl _ _ id)), told.abides⟩
  · exact ⟨told.run.trans (working_detachFrame _ f), told.abides⟩

theorem works_deliverFrame (h : s.Works .rx False Act m) (place : Nat) (b : BufferId)
    (address : BusAddress) (length : Nat) :
    (deliverFrame s place b address length).Works .rx False Act m := by
  have marked : Working .rx False Act s.machine _ := working_markDelivered s.machine place b
  unfold deliverFrame
  split
  · next e =>
    rw [e] at marked
    exact h.goOn (marked.trans (Working.give _ _ rfl))
  · next k e =>
    rw [e] at marked
    have noted : Working .rx False Act s.machine
        (k.modifyRx fun r => r.noteDelivery (length - (k.rx.map RxRing.pad).getD 0)) :=
      marked.trans (Working.modifyRx k _ (fun _ => rfl) fun _ => rfl)
    exact works_deliver (h.goOn noted) _

theorem works_takeCompletion (h : s.Works .rx False Act m) (place : Nat) (b : BufferId)
    (c : Completion) : (takeCompletion s place b c).Works .rx False Act m := by
  unfold takeCompletion
  dsimp only
  split
  · split
    · exact works_deliverFrame h place b _ _
    · exact h.onMachine fun k => Working.give k _ rfl
  · exact h.onMachine fun k => ((Working.give k _ rfl).trans
      (Working.modifyRx _ RxRing.noteFramingError (fun _ => rfl) fun _ => rfl)).trans
      (working_recycleOrReport _ place b)

theorem works_takeSlot (h : s.Works .rx False Act m) (place : Nat) :
    (takeSlot s place).Works .rx False Act m := by
  unfold takeSlot
  split
  · exact h
  · next slot _ _ =>
    have passed := h.onMachine fun k => Working.modifyRx k RxRing.pass (fun _ => rfl) fun _ => rfl
    dsimp only
    split
    · exact works_takeCompletion (passed.goOn (Working.readCompletion _ slot)) place _ _
    · exact passed.onMachine fun k => Working.give k _ rfl

theorem working_checkRxReading (m : Machine) (c : Counter) :
    Working .rx shifts Act m (m.checkRxReading c) := by
  unfold checkRxReading
  split
  · exact .refl
  · next ring _ =>
    refine (Working.giveIf m _ _ rfl).trans (Working.modifyRx _ _ (fun r => ?_) fun r => ?_) <;>
      unfold RxRing.noteReading <;> split <;> rfl

theorem working_ringRx (m : Machine) (filled : Nat) :
    Working .rx shifts Act m (m.ringRx filled) := by
  unfold ringRx
  split
  · exact .refl
  · exact Working.write m rfl _

theorem works_serveRx (m : Machine) {u : Upper} (abides : u.Abides Act) (place : Nat) :
    (m.serveRx u place).Works .rx False Act m := by
  have begun : Working .rx False Act m _ := (Working.readCounter m .rxConsumer).trans
    (working_checkRxReading _ (m.readCounter .rxConsumer).1)
  have round (s : RxService) (h : s.served.Works .rx False Act m) :
      (RxService.round place s).2.served.Works .rx False Act m := by
    have taken := works_takeSlot h place
    exact ⟨taken.run.trans (working_refill _ place), taken.abides⟩
  have looped (n : Nat) := loop_keeps (P := fun s : RxService => s.served.Works .rx False Act m)
    round n (a := ⟨.start u ((m.readCounter .rxConsumer).2.checkRxReading
      (m.readCounter .rxConsumer).1), 0⟩) ⟨begun, abides⟩
  unfold serveRx
  exact ⟨(((looped _).run.trans (working_refill _ place)).trans (working_ringRx _ _)).trans
    (Working.giveIf _ _ _ rfl), (looped _).abides⟩

/-- **The receive ring is served by its own strokes**, none of which is at the switch. -/
theorem works_advanceRx (m : Machine) {u : Upper} (abides : u.Abides Act) :
    (m.advanceRx u).Works .rx False Act m := by
  unfold advanceRx
  split
  · exact .start abides .refl
  · split
    · exact .start abides .refl
    · exact .start abides (working_recyclePosted m)
    · exact works_serveRx m abides _

end Serving

/-! ## The arbiter -/

theorem working_writeEnabled (m : Machine) : Working .irq shifts Act m m.writeEnabled :=
  Working.write m rfl _

theorem working_setArmed (m : Machine) (d : Direction) (on : Bool) :
    Working .irq False Act m (m.setArmed d on) := by
  have changed : Working .irq False Act m ((m.modifyArbiter fun a => a.setArmed d on).record
      (.armed d (m.arbiter.any fun a => a.isArmed d) on)) :=
    (Working.modifyArbiter m _).trans (Working.stroke (.tell _ rfl))
  have written := (changed.trans (working_writeEnabled _)).trans (Working.give _ (.armed d on) rfl)
  unfold setArmed
  dsimp only
  split
  · exact written
  · unfold awaitQuiet
    split
    · exact written.trans (Working.stroke (.changeArbiter _ rfl _ _))
    · exact written

/-- **A signal is handled by strokes of the arbiter.** -/
theorem works_signal (m : Machine) {u : Upper} (abides : u.Abides Act) (pending : UInt32) :
    (m.signal u pending).2.Works .irq False Act m := by
  have tells (due : List Direction) (s : Served) (h : s.Works .irq False Act m) :
      (due.foldl deliverNotification s).Works .irq False Act m := by
    induction due generalizing s with
    | nil => exact h
    | cons d due ih =>
      have told := h.onMachine fun k => Working.stroke (.tell k (e := .notified d) rfl)
      exact ih _ (told.reply.onMachine fun k => Working.modifyArbiter k _)
  unfold signal
  split
  · exact .start abides .refl
  · exact tells _ _ (.start abides (((Working.write m rfl _).trans
      (Working.modifyArbiter _ _)).trans (working_writeEnabled _)))

end Machine

end DescriptorRings
