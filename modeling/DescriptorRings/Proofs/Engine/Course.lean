import DescriptorRings.Proofs.Machine.Strokes
import DescriptorRings.Proofs.Receive.Service
import DescriptorRings.Proofs.Transmit.Simulation

/-!
# The course of an engine

Whoever uses an engine may use all of it at any time: both rings, the arbiter, frames and handles,
between requests and from inside a callback.  The one thing that is forbidden there is to start,
cancel or serve the ring that is calling back; `Locks` says which rings these are.  So calls nest,
and `Calls` counts how deep.

A ring sees little of all this.  While it is calling back, nothing that happens is one of its
requests (`TxMeanwhile`, `RxMeanwhile`).  Between its requests there are requests, and in the
callbacks of each of them there are none.  So the run of an engine, however it nests, is a plain run
of calls to each of its rings: `TxCall` and `RxCall` list these, and `Calls.txView` and `Calls.rxView`
say so.  What is known of the rings by themselves carries over.
-/

namespace DescriptorRings

open Relation

/-! ## Calls -/

/-- What the users of a machine keep to. -/
structure Rules where
  /-- The moves that the adapter may make. -/
  permits : Move → Prop
  /-- The place of the pool of the receive ring. -/
  place : Nat
  /-- Whether the transmit ring may be started. -/
  startsTx : Prop
  /-- Whether the receive ring may be started. -/
  startsRx : Prop

/-- The rings that are in the middle of a request. -/
structure Locks where
  /-- The transmit ring. -/
  tx : Bool := false
  /-- The receive ring. -/
  rx : Bool := false

/-- A call to a machine, or something that happens between two of them.  In the callbacks of a call
there are `Inner` calls. -/
inductive Call (R : Rules) (Inner : Locks → Machine → Machine → Prop) (l : Locks) :
    Machine → Machine → Prop
  /-- A packet is submitted. -/
  | submit (m : Machine) (p : Packet) : Call R Inner l m (m.submit p).2
  /-- Buffers are given back, an outcome is entered, or the adapter makes a move. -/
  | holding {m m' : Machine} (h : Holding R.permits R.place m m') : Call R Inner l m m'
  /-- The adapter changes its plans. -/
  | plan (m : Machine) {agenda : List (List Move)} (h : Machine.Permitted R.permits agenda) :
      Call R Inner l m { m with agenda := agenda }
  /-- A register is read. -/
  | look (m : Machine) (r : Register) : Call R Inner l m (m.read r).2
  /-- A notice is given. -/
  | give (m : Machine) (n : Notice) : Call R Inner l m (m.give n)
  /-- A direction is armed or disarmed. -/
  | arm (m : Machine) (d : Direction) (on : Bool) : Call R Inner l m (m.setArmed d on)
  /-- A signal is handled. -/
  | signal (m : Machine) (pending : UInt32) {u : Upper} (h : u.Abides (Inner l)) :
      Call R Inner l m (m.signal u pending).2.machine
  /-- The transmit ring is started, or that is refused. -/
  | startTx (m : Machine) (free : l.tx = false) (allowed : m.startTx.1 = .ok () → R.startsTx) :
      Call R Inner l m m.startTx.2
  /-- The transmit ring is cancelled. -/
  | cancelTx (m : Machine) (free : l.tx = false) : Call R Inner l m m.cancelTx
  /-- The transmit ring is served. -/
  | advanceTx (m : Machine) (free : l.tx = false) {u : Upper}
      (h : u.Abides (Inner { l with tx := true })) : Call R Inner l m (m.advanceTx u).machine
  /-- The receive ring is started, or that is refused. -/
  | startRx (m : Machine) (free : l.rx = false) (allowed : m.startRx.1 = .ok () → R.startsRx) :
      Call R Inner l m m.startRx.2
  /-- The receive ring is cancelled. -/
  | cancelRx (m : Machine) (free : l.rx = false) : Call R Inner l m m.cancelRx
  /-- The receive ring is served. -/
  | advanceRx (m : Machine) (free : l.rx = false) {u : Upper}
      (h : u.Abides (Inner { l with rx := true })) : Call R Inner l m (m.advanceRx u).machine

/-- Calls that nest at most so deep. -/
def Calls (R : Rules) : Nat → Locks → Machine → Machine → Prop
  | 0, _ => fun _ _ => False
  | n + 1, l => Call R (Calls R n) l

namespace Machine

/-- An interrupt as far as the upper layer has been notified. -/
def interruptTold (m : Machine) (u : Upper) : Served :=
  let (status, m) := m.read .irqStatus
  let pending := IrqMask.table.restrict status
  let (fired, s) := m.signal u pending
  s.onMachine fun m => m.give (.engineInterrupt pending (Direction.masks fired))

/-- An interrupt as far as the transmit ring has been served. -/
def interruptSent (m : Machine) (u : Upper) : Served :=
  let pending := IrqMask.table.restrict (m.read .irqStatus).1
  serveIfPending pending IrqMask.txDone advanceTx (m.interruptTold u)

theorem interrupt_eq (m : Machine) (u : Upper) :
    (m.interrupt u).2 =
      if IrqMask.table.restrict (m.read .irqStatus).1 = 0 then .start u (m.read .irqStatus).2
      else serveIfPending (IrqMask.table.restrict (m.read .irqStatus).1) IrqMask.rxDone advanceRx
        (m.interruptSent u) := by
  unfold interrupt interruptSent interruptTold
  dsimp only
  split <;> rfl

/-- The end of an engine as far as the transmit ring has been served. -/
def stopSent (m : Machine) (u : Upper) : Served :=
  ((m.setArmed .tx false).setArmed .rx false).cancelTx.cancelRx.advanceTx u

theorem stopEngine_eq (m : Machine) (u : Upper) :
    m.stopEngine u = ((m.stopSent u).machine.advanceRx (m.stopSent u).upper).onMachine fun k =>
      k.give (.engineStopped (m.stopSent u).count) :=
  rfl

end Machine

/-- A request to an engine. -/
inductive EngineRequest (R : Rules) (n : Nat) : Machine → Machine → Prop
  /-- One of its parts is called. -/
  | call {m m' : Machine} (h : Calls R (n + 1) {} m m') : EngineRequest R n m m'
  /-- Both rings are started, or neither. -/
  | start (m : Machine) (tx : m.startTx.1 = .ok () → R.startsTx)
      (rx : m.startEngine.1 = .ok () → R.startsRx) : EngineRequest R n m m.startEngine.2
  /-- An interrupt is served.  Each ring is left alone by the callbacks that it makes itself. -/
  | interrupt (m : Machine) {u : Upper} (told : u.Abides (Calls R n {}))
      (sent : (m.interruptTold u).upper.Abides (Calls R n { tx := true }))
      (shown : (m.interruptSent u).upper.Abides (Calls R n { rx := true })) :
      EngineRequest R n m (m.interrupt u).2.machine
  /-- The engine is stopped. -/
  | stop (m : Machine) {u : Upper} (sent : u.Abides (Calls R n { tx := true }))
      (shown : (m.stopSent u).upper.Abides (Calls R n { rx := true })) :
      EngineRequest R n m (m.stopEngine u).machine

variable {R : Rules} {n : Nat} {l : Locks} {m m' : Machine}

/-- **A request to an engine is a series of calls to its parts.** -/
theorem EngineRequest.calls (h : EngineRequest R n m m') :
    ReflTransGen (Calls R (n + 1) {}) m m' := by
  cases h with
  | call h => exact .single h
  | start tx rx =>
    have first : Calls R (n + 1) {} m m.startTx.2 := Call.startTx m rfl tx
    unfold Machine.startEngine at rx ⊢
    split
    · next k e =>
      rw [e] at first
      exact .single first
    · next k e =>
      rw [e] at first rx
      dsimp only at rx
      have second : Calls R (n + 1) {} k k.startRx.2 := by
        refine Call.startRx k rfl fun ok => rx ?_
        split
        · next e' => rw [e'] at ok; exact ok
        · rfl
      split
      · next k' e' =>
        rw [e'] at second
        exact ((ReflTransGen.single first).tail second).tail (Call.cancelTx k' rfl)
      · next e' =>
        rw [e'] at second
        exact (ReflTransGen.single first).tail second
  | @interrupt u told sent shown =>
    have looked : Calls R (n + 1) {} m (m.read .irqStatus).2 := Call.look m .irqStatus
    rw [Machine.interrupt_eq]
    split
    · exact .single looked
    · have notified := (ReflTransGen.single looked).tail
        (Call.signal _ (IrqMask.table.restrict (m.read .irqStatus).1) told)
      have called : ReflTransGen (Calls R (n + 1) {}) m (m.interruptTold u).machine :=
        notified.tail (Call.give _ _)
      have served : ReflTransGen (Calls R (n + 1) {}) m (m.interruptSent u).machine := by
        unfold Machine.interruptSent Machine.serveIfPending
        dsimp only
        split
        · exact called.tail (Call.advanceTx _ rfl sent)
        · exact called
      unfold Machine.serveIfPending
      split
      · exact served.tail (Call.advanceRx _ rfl shown)
      · exact served
  | @stop u sent shown =>
    have silent : ReflTransGen (Calls R (n + 1) {}) m ((m.setArmed .tx false).setArmed .rx false) :=
      (ReflTransGen.single (Call.arm m .tx false)).tail (Call.arm _ .rx false)
    have cancelled := (silent.tail (Call.cancelTx _ rfl)).tail (Call.cancelRx _ rfl)
    have served := (cancelled.tail (Call.advanceTx _ rfl sent)).tail (Call.advanceRx _ rfl shown)
    rw [Machine.stopEngine_eq]
    exact served.tail (Call.give _ _)

/-! ## What a ring sees of it -/

/-- A call to the transmit ring, or something that happens between two of them. -/
inductive TxCall (permits : Move → Prop) (starts : Prop) : Machine → Machine → Prop
  /-- The ring is started, or that is refused. -/
  | start (m : Machine) (allowed : m.startTx.1 = .ok () → starts) : TxCall permits starts m m.startTx.2
  /-- The ring is cancelled. -/
  | cancel (m : Machine) : TxCall permits starts m m.cancelTx
  /-- The ring is served. -/
  | advance (m : Machine) {u : Upper} (h : u.Abides (TxMeanwhile permits)) :
      TxCall permits starts m (m.advanceTx u).machine
  /-- Something else happens. -/
  | meanwhile {m m' : Machine} (h : TxMeanwhile permits m m') : TxCall permits starts m m'

/-- A call to the receive ring, or something that happens between two of them. -/
inductive RxCall (permits : Move → Prop) (place : Nat) (starts : Prop) : Machine → Machine → Prop
  /-- The ring is started, or that is refused. -/
  | start (m : Machine) (allowed : m.startRx.1 = .ok () → starts) :
      RxCall permits place starts m m.startRx.2
  /-- The ring is cancelled. -/
  | cancel (m : Machine) : RxCall permits place starts m m.cancelRx
  /-- The ring is served. -/
  | advance (m : Machine) {u : Upper} (h : u.Abides (RxMeanwhile permits place)) :
      RxCall permits place starts m (m.advanceRx u).machine
  /-- Something else happens. -/
  | meanwhile {m m' : Machine} (h : RxMeanwhile permits place m m') : RxCall permits place starts m m'

/-- What the transmit ring sees of a run: its own calls, unless it is in the middle of one. -/
def TxView (R : Rules) : Bool → Machine → Machine → Prop
  | true => ReflTransGen (TxMeanwhile R.permits)
  | false => ReflTransGen (TxCall R.permits R.startsTx)

/-- What the receive ring sees of a run: its own calls, unless it is in the middle of one. -/
def RxView (R : Rules) : Bool → Machine → Machine → Prop
  | true => ReflTransGen (RxMeanwhile R.permits R.place)
  | false => ReflTransGen (RxCall R.permits R.place R.startsRx)

/-! ## The strokes of other parts -/

variable {p : Part} {shifts : Prop} {Act : Machine → Machine → Prop}

/-- Giving buffers back is work of the receive ring. -/
theorem Holding.cases {permits : Move → Prop} {place : Nat} (h : Holding permits place m m') :
    Working .rx False (fun _ _ => False) m m' ∨ (∃ o, m' = m.record (.replied o)) ∨
      ∃ mv, permits mv ∧ m' = m.move mv := by
  cases h with
  | drop =>
    exact .inl ((Machine.working_removeFrame m _).trans (Machine.working_dropFrame _ _))
  | detach =>
    exact .inl ((Machine.working_removeFrame m _).trans (Machine.working_detachFrame _ _))
  | release =>
    exact .inl ((Machine.working_release m _ _).trans
      (Working.stroke (.changeHeld _ rfl _ _ id)))
  | reply o => exact .inr (.inl ⟨o, rfl⟩)
  | move permitted => exact .inr (.inr ⟨_, permitted, rfl⟩)

/-- **The transmit ring is not concerned by the strokes of other parts.** -/
theorem Stroke.txMeanwhile {permits : Move → Prop} (h : Stroke p shifts m m') (other : p ≠ .tx) :
    ReflTransGen (TxMeanwhile permits) m m' := by
  -- an access changes the adapter, and then is entered
  have access {a : Adapter} (registers : m.adapter.Agrees .tx a) (table : a.txTable = m.adapter.txTable)
      {e : Event} (aside : e.isAside = true) :
      ReflTransGen (TxMeanwhile permits) m ((m.setAdapter a).record e) := by
    have apart : TxApart m (m.setAdapter a) := ⟨rfl, registers, table, rfl, rfl, rfl⟩
    exact .tail (.single (.elsewhere apart)) (.note _ aside)
  cases h with
  | turn => exact .single (.turn m)
  | look => exact .single (.note m rfl)
  | @tell e h =>
    refine .single (.note m ?_)
    cases p <;> cases e <;> first | exact absurd rfl other | rfl | exact absurd h Bool.false_ne_true
  | @write r h v =>
    refine access (.write ?_ (by decide) v) (Adapter.txTable_write _ _ _) ?_ <;>
      cases p <;> cases r <;>
        first | exact absurd rfl other | exact absurd h Bool.false_ne_true | rfl | decide
  | @switch r h v =>
    refine access (.write ?_ (by decide) v) (Adapter.txTable_write _ _ _) ?_ <;>
      cases p <;> cases h <;> first | exact absurd rfl other | rfl | decide
  | describeTx h => exact absurd h other
  | describeRx _ slot address capacity =>
    exact access (a := m.adapter.writeRx slot address capacity) ⟨rfl, rfl, rfl⟩ rfl
      (e := .wroteRx slot address capacity) rfl
  | changeTx h => exact absurd h other
  | changeRx | bury | changeHeld =>
    exact .single (.elsewhere ⟨rfl, .refl _ _, rfl, rfl, rfl, rfl⟩)
  | free _ a =>
    have apart : TxApart m { m with memory := m.memory.free a } :=
      ⟨rfl, .refl _ _, rfl, rfl, rfl, rfl⟩
    exact .tail (.single (.elsewhere apart)) (.note _ rfl)
  | changeArbiter => exact .single (.elsewhere ⟨rfl, .refl _ _, rfl, rfl, rfl, rfl⟩)

/-- **The receive ring is not concerned by the strokes of other parts.** -/
theorem Stroke.rxMeanwhile {permits : Move → Prop} {place : Nat} (h : Stroke p shifts m m')
    (other : p ≠ .rx) : RxMeanwhile permits place m m' := by
  cases h with
  | turn => exact .turn m
  | look => exact .note m rfl
  | @tell e h =>
    refine .note m ?_
    cases p <;> cases e <;> first | exact absurd rfl other | rfl | exact absurd h Bool.false_ne_true
  | @write r h v =>
    refine .write m v ?_
    cases p <;> cases r <;>
      first | exact absurd rfl other | exact absurd h Bool.false_ne_true | decide
  | @switch r h v =>
    refine .write m v ?_
    cases p <;> cases h <;> first | exact absurd rfl other | decide
  | describeTx _ slot d => exact .writeTx m slot d
  | describeRx h => exact absurd h other
  | changeTx _ tx => exact .elsewhere m tx m.arbiter m.stalled
  | changeRx h | free h | bury h | changeHeld h => exact absurd h other
  | changeArbiter _ arbiter stalled => exact .elsewhere m m.tx arbiter stalled

/-! ## A run as a ring sees it -/

section Views

variable {b : Bool}

namespace TxView

theorem refl (R : Rules) (b : Bool) (m : Machine) : TxView R b m m := by
  cases b <;> exact ReflTransGen.refl

theorem trans {m'' : Machine} (h : TxView R b m m') (h' : TxView R b m' m'') :
    TxView R b m m'' := by
  cases b <;> exact ReflTransGen.trans h h'

theorem of_meanwhile (h : ReflTransGen (TxMeanwhile R.permits) m m') : TxView R b m m' := by
  cases b with
  | true => exact h
  | false => exact h.lift id fun _ _ => TxCall.meanwhile

/-- Another part is at work. -/
theorem working (other : p ≠ .tx) (acts : ∀ k k', Act k k' → TxView R b k k')
    (run : Working p shifts Act m m') : TxView R b m m' := by
  refine run.keeps (P := TxView R b m) (fun k k' stroke h => h.trans ?_)
    (fun k k' act h => h.trans (acts k k' act)) (refl R b m)
  exact of_meanwhile (stroke.txMeanwhile other)

end TxView

/-- **What a call is to the transmit ring**, if the calls in its callbacks are known. -/
theorem Call.txView {Inner : Locks → Machine → Machine → Prop}
    (inner : ∀ l' k k', Inner l' k k' → TxView R l'.tx k k') (h : Call R Inner l m m') :
    TxView R l.tx m m' := by
  have idle (k k' : Machine) (h : False) : TxView R l.tx k k' := h.elim
  cases h with
  | submit p => exact .of_meanwhile (.single (.submit m p))
  | holding h =>
    rcases h.cases with run | ⟨o, rfl⟩ | ⟨mv, ok, rfl⟩
    · exact .working (by decide) idle run
    · exact .of_meanwhile (.single (.note m rfl))
    · exact .of_meanwhile (.single (.move m ok))
  | plan permitted => exact .of_meanwhile (.single (.plan m permitted))
  | look r =>
    have looked : Working .irq False (fun _ _ => False) m (m.read r).2 := .read m r
    exact .working (by decide) idle looked
  | give note =>
    have given : Working .rx False (fun _ _ => False) m (m.give note) := .give m note rfl
    exact .working (by decide) idle given
  | arm d on => exact .working (by decide) idle (Machine.working_setArmed m d on)
  | signal pending abides =>
    exact .working (by decide) (inner l) (Machine.works_signal m abides pending).run
  | startTx free allowed =>
    rw [free]
    exact .single (.start m allowed)
  | cancelTx free =>
    rw [free]
    exact .single (.cancel m)
  | advanceTx free abides =>
    rw [free]
    exact .single (.advance m (abides.mono fun k k' act => inner { l with tx := true } k k' act))
  | startRx => exact .working (by decide) idle (Machine.working_startRx m)
  | cancelRx => exact .working (by decide) idle (Machine.working_cancelRx m)
  | advanceRx _ abides =>
    exact .working (by decide) (inner { l with rx := true })
      (Machine.works_advanceRx m abides).run

/-- **The run of an engine is a run of the transmit ring.** -/
theorem Calls.txView (h : Calls R n l m m') : TxView R l.tx m m' := by
  induction n generalizing l m m' with
  | zero => exact absurd h id
  | succ n ih => exact Call.txView (fun l' k k' => ih) h

namespace RxView

theorem refl (R : Rules) (b : Bool) (m : Machine) : RxView R b m m := by
  cases b <;> exact ReflTransGen.refl

theorem trans {m'' : Machine} (h : RxView R b m m') (h' : RxView R b m' m'') :
    RxView R b m m'' := by
  cases b <;> exact ReflTransGen.trans h h'

theorem of_meanwhile (h : RxMeanwhile R.permits R.place m m') : RxView R b m m' := by
  cases b with
  | true => exact .single h
  | false => exact .single (.meanwhile h)

/-- Another part is at work. -/
theorem working (other : p ≠ .rx) (acts : ∀ k k', Act k k' → RxView R b k k')
    (run : Working p shifts Act m m') : RxView R b m m' := by
  refine run.keeps (P := RxView R b m) (fun k k' stroke h => h.trans ?_)
    (fun k k' act h => h.trans (acts k k' act)) (refl R b m)
  exact of_meanwhile (stroke.rxMeanwhile other)

end RxView

/-- **What a call is to the receive ring**, if the calls in its callbacks are known. -/
theorem Call.rxView {Inner : Locks → Machine → Machine → Prop}
    (inner : ∀ l' k k', Inner l' k k' → RxView R l'.rx k k') (h : Call R Inner l m m') :
    RxView R l.rx m m' := by
  have idle (k k' : Machine) (h : False) : RxView R l.rx k k' := h.elim
  cases h with
  | submit p =>
    unfold Machine.submit
    split
    · exact .refl R _ m
    · have entered : RxView R l.rx m (m.modifyTx fun r => r.accept p) :=
        .of_meanwhile (.elsewhere m _ m.arbiter m.stalled)
      exact entered.trans (.of_meanwhile (.note _ rfl))
  | holding h => exact .of_meanwhile (.holding h)
  | plan permitted => exact .of_meanwhile (.plan m permitted)
  | look r =>
    have looked : Working .irq False (fun _ _ => False) m (m.read r).2 := .read m r
    exact .working (by decide) idle looked
  | give note =>
    unfold Machine.give
    split
    · exact .of_meanwhile (.note m rfl)
    · exact .refl R _ m
  | arm d on => exact .working (by decide) idle (Machine.working_setArmed m d on)
  | signal pending abides =>
    exact .working (by decide) (inner l) (Machine.works_signal m abides pending).run
  | startRx free allowed =>
    rw [free]
    exact .single (.start m allowed)
  | cancelRx free =>
    rw [free]
    exact .single (.cancel m)
  | advanceRx free abides =>
    rw [free]
    exact .single (.advance m (abides.mono fun k k' act => inner { l with rx := true } k k' act))
  | startTx => exact .working (by decide) idle (Machine.working_startTx m)
  | cancelTx => exact .working (by decide) idle (Machine.working_cancelTx m)
  | advanceTx _ abides =>
    exact .working (by decide) (inner { l with tx := true })
      (Machine.works_advanceTx m abides).run

/-- **The run of an engine is a run of the receive ring.** -/
theorem Calls.rxView (h : Calls R n l m m') : RxView R l.rx m m' := by
  induction n generalizing l m m' with
  | zero => exact absurd h id
  | succ n ih => exact Call.rxView (fun l' k k' => ih) h

end Views

end DescriptorRings
