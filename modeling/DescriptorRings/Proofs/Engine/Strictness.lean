import DescriptorRings.Proofs.Engine.Calm
import DescriptorRings.Proofs.Receive.Strictness
import DescriptorRings.Proofs.Transmit.Strictness

/-!
# Nothing goes wrong inside

Rings and engines are used in any order and to any purpose: they are started, served, cancelled and
dropped, whatever the adapter reports, and the upper layer submits packets, gives buffers back and arms
directions in the middle of it.  An *errand* is one such use (`Errand`).  The machine does it in its own
way, and the strict machine does it too, but stops at the first check that is not passed.

What makes both agree is known for each ring by itself: the transmit ring counts its packets
(`Machine.TxCounted`), and the receive side is in order (`RxInOrder`).  Each part leaves the other's half
of this alone, so it is kept by every errand (`Errand.sound`), and hence by every run.  It holds of rings
that were made just now, in whatever configuration the constructors accept.

So the strict machine never stops, and no alarm is raised
(`strict_machine_never_stops`).
-/

namespace DescriptorRings

open Relation List

variable {place : Nat} {p : Part} {shifts : Prop} {m m' m'' : Machine} {u : Upper} {s : Served}

/-! ## Errands -/

/-- What can be asked of a machine with rings, and what else can happen to it. -/
inductive Errand where
  /-- A packet is submitted. -/
  | submit (p : Packet)
  /-- The frame that is held at a place is dropped. -/
  | dropFrame (i : Nat)
  /-- The frame that is held at a place is detached. -/
  | detachFrame (i : Nat)
  /-- A handle is used up. -/
  | releaseHandle (i : Nat)
  /-- What a request came to is entered. -/
  | reply (o : Outcome)
  /-- The adapter makes a move. -/
  | move (mv : Move)
  /-- The adapter changes its plans. -/
  | plan (agenda : List (List Move))
  /-- A register is read. -/
  | look (r : Register)
  /-- A direction is armed or disarmed. -/
  | arm (d : Direction) (on : Bool)
  /-- A signal is handled. -/
  | signal (pending : UInt32) (u : Upper)
  /-- The transmit ring is started. -/
  | startTx
  /-- The transmit ring is cancelled. -/
  | cancelTx
  /-- The transmit ring is served. -/
  | advanceTx (u : Upper)
  /-- The receive ring is started. -/
  | startRx
  /-- The receive ring is cancelled. -/
  | cancelRx
  /-- The receive ring is served. -/
  | advanceRx (u : Upper)
  /-- Both rings are started. -/
  | startEngine
  /-- An interrupt is served. -/
  | interrupt (u : Upper)
  /-- Both rings are stopped. -/
  | stopEngine (u : Upper)
  /-- The reference to a pool is dropped. -/
  | dropPool (other : Nat)
  /-- Rings and arbiter are dropped. -/
  | dropRings
  /-- The engine is dropped. -/
  | dropEngine

/-- The callbacks of a request submit packets, give buffers back and arm directions, while the adapter
does as it likes. -/
def Upper.Attends (place : Nat) (u : Upper) : Prop := u.Abides (Attending (fun _ => True) place)

namespace Errand

/-- What comes of an errand.  The receive ring draws from the pool at `place`, and handles go back
there. -/
def does (place : Nat) (m : Machine) : Errand → Machine
  | submit p => (m.submit p).2
  | dropFrame i => ((m.frameAt? i).map fun f => (m.removeFrame i).dropFrame f).getD m
  | detachFrame i => ((m.frameAt? i).map fun f => (m.removeFrame i).detachFrame f).getD m
  | releaseHandle i =>
    (m.handles[i]?.map fun w =>
      { (m.release place w).2 with handles := m.handles.eraseIdxIfInBounds i }).getD m
  | reply o => m.record (.replied o)
  | move mv => m.move mv
  | plan agenda => { m with agenda := agenda }
  | look r => (m.read r).2
  | arm d on => m.setArmed d on
  | signal pending u => (m.signal u pending).2.machine
  | startTx => m.startTx.2
  | cancelTx => m.cancelTx
  | advanceTx u => (m.advanceTx u).machine
  | startRx => m.startRx.2
  | cancelRx => m.cancelRx
  | advanceRx u => (m.advanceRx u).machine
  | startEngine => m.startEngine.2
  | interrupt u => (m.interrupt u).2.machine
  | stopEngine u => (m.stopEngine u).machine
  | dropPool other => m.dropPool other
  | dropRings => m.dropRings
  | dropEngine => m.dropEngine

/-- What comes of it on the strict machine. -/
def strictly (place : Nat) (m : Machine) : Errand → Except Mishap Machine
  | dropFrame i =>
    match m.frameAt? i with
    | some f => Strict.dropFrame (m.removeFrame i) f
    | none => .ok m
  | releaseHandle i =>
    match m.handles[i]? with
    | some w => do
      let (_, k) ← Strict.demand (m.release place w)
      return { k with handles := m.handles.eraseIdxIfInBounds i }
    | none => .ok m
  | advanceTx u => (Strict.advanceTx m u).map Served.machine
  | startRx => (Strict.startRx m).map Prod.snd
  | advanceRx u => (Strict.advanceRx m u).map Served.machine
  | startEngine => (Strict.startEngine m).map Prod.snd
  | interrupt u => (Strict.interrupt m u).map Served.machine
  | stopEngine u => (Strict.stopEngine m u).map Served.machine
  | dropEngine => Strict.dropEngine m
  | e => .ok (e.does place m)

/-- The upper layer does in its callbacks what it may do there. -/
def Bound (place : Nat) : Errand → Prop
  | signal _ u | advanceTx u | advanceRx u | interrupt u | stopEngine u => u.Attends place
  | _ => True

end Errand

/-! ## What is kept -/

/-- Both halves of the machine are in order. -/
structure Machine.Whole (place : Nat) (m : Machine) : Prop where
  /-- The transmit ring counts its packets. -/
  counted : m.TxCounted
  /-- The receive side is in order. -/
  inOrder : RxInOrder (fun _ => True) place m

/-- From one machine to another no alarm is raised, and the other one is in order. -/
structure Machine.Onward (place : Nat) (m m' : Machine) : Prop where
  /-- It is in order. -/
  whole : m'.Whole place
  /-- No alarm is raised. -/
  calm : m.KeepsCalm m'

/-- A request is served as it is by the strict machine, and no alarm is raised. -/
structure Served.Sound (place : Nat) (m : Machine) (strict : Except Mishap Served) (s : Served) :
    Prop where
  /-- Every check is passed. -/
  passes : strict = .ok s
  /-- The machine is in order. -/
  onward : m.Onward place s.machine
  /-- The callbacks to come are bound by the same rule. -/
  attends : s.upper.Attends place

/-- Another part is at work. -/
theorem Machine.TxCounted.working {permits : Move → Prop} (counted : m.TxCounted) (other : p ≠ .tx)
    (run : Working p shifts (Attending permits place) m m') : m'.TxCounted :=
  counted.run (TxView.working (R := ⟨permits, place, True, True⟩) (b := true) other
    (fun _ _ act => act.tx) run)

theorem Machine.Onward.trans (h : m.Onward place m') (h' : m'.Onward place m'') :
    m.Onward place m'' :=
  ⟨h'.whole, h.calm.trans h'.calm⟩

theorem Served.Sound.after {k : Machine} {strict : Except Mishap Served} (before : m.Onward place k)
    (h : s.Sound place k strict) : s.Sound place m strict :=
  ⟨h.passes, before.trans h.onward, h.attends⟩

/-- A strict errand that ends with a request. -/
theorem Served.Sound.performs {strict : Except Mishap Served} (h : s.Sound place m strict) :
    strict.map Served.machine = .ok s.machine ∧ m.Onward place s.machine :=
  ⟨congrArg (Except.map Served.machine) h.passes, h.onward⟩

namespace Machine.Whole

theorem refl (h : m.Whole place) : m.Onward place m := ⟨h, .refl _ m⟩

/-! ## Work of one part -/

/-- The arbiter is at work. -/
theorem irq (h : m.Whole place) (run : Working .irq shifts (Attending (fun _ => True) place) m m') :
    m.Onward place m' := by
  obtain ⟨inOrder, calm⟩ := h.inOrder.working (by decide) run
  exact ⟨⟨h.counted.working (by decide) run, inOrder⟩, calm⟩

/-- The transmit ring is at work. -/
theorem tx (h : m.Whole place) (run : Working .tx shifts (Attending (fun _ => True) place) m m')
    (counted : m'.TxCounted) : m.Onward place m' := by
  obtain ⟨inOrder, calm⟩ := h.inOrder.working (by decide) run
  exact ⟨⟨counted, inOrder⟩, calm⟩

/-- The receive ring is at work. -/
theorem rx (h : m.Whole place) (run : Working .rx shifts (Attending (fun _ => True) place) m m')
    (act : RxHandling (fun _ => True) place m m') : m.Onward place m' := by
  obtain ⟨inOrder, calm⟩ := h.inOrder.handling act
  exact ⟨⟨h.counted.working (by decide) run, inOrder⟩, calm⟩

/-- The upper layer does what it may do in a callback. -/
theorem attend (h : m.Whole place) (act : Attending (fun _ => True) place m m') :
    m.Onward place m' := by
  have run : Working .irq False (Attending (fun _ => True) place) m m' := .single (.act act)
  exact h.irq run

end Machine.Whole

/-! ## The receive side passes every check -/

namespace RxInOrder

variable {permits : Move → Prop}

theorem passes_startRx (h : RxInOrder permits place m) : Strict.startRx m = .ok m.startRx := by
  cases h with
  | used used =>
    obtain ⟨n, r, q, bs, guard⟩ := used
    exact (guard.here True).passes_startRx trivial
  | gone none =>
    rw [Strict.startRx, Machine.startRx, none]
    rfl

theorem passes_advanceRx (h : RxInOrder permits place m)
    (abides : u.Abides (RxMeanwhile permits place)) :
    Strict.advanceRx m u = .ok (m.advanceRx u) := by
  cases h with
  | used used =>
    obtain ⟨n, r, q, bs, guard⟩ := used
    exact (guard.here True).passes_advanceRx abides
  | gone none => rw [Strict.advanceRx, Machine.advanceRx, none]

end RxInOrder

/-- A frame that came out of its place can be dropped. -/
theorem Machine.Lends.passes_dropFrame {f : Frame} {fresh : List ReturnHandle}
    (h : m.Lends place (f.handle :: fresh)) (pool : f.pool = place) :
    Strict.dropFrame m f = .ok (m.dropFrame f) := by
  obtain ⟨q, released, -⟩ := h.release
  rw [Strict.dropFrame, Machine.dropFrame, pool, released]
  rfl

/-! ## Requests -/

namespace Machine.Whole

theorem advanceTx (h : m.Whole place) (attends : u.Attends place) :
    (m.advanceTx u).Sound place m (Strict.advanceTx m u) := by
  have works := m.works_advanceTx attends
  obtain ⟨passes, counted⟩ := h.counted.advanceTx (attends.mono fun _ _ act => act.tx)
  exact ⟨passes, h.tx works.run counted, works.abides⟩

theorem startRx (h : m.Whole place) : m.Onward place m.startRx.2 :=
  h.rx m.working_startRx (.start m)

theorem cancelRx (h : m.Whole place) : m.Onward place m.cancelRx :=
  h.rx m.working_cancelRx (.cancel m)

theorem advanceRx (h : m.Whole place) (attends : u.Attends place) :
    (m.advanceRx u).Sound place m (Strict.advanceRx m u) := by
  have works := m.works_advanceRx attends
  have passes := h.inOrder.passes_advanceRx (attends.mono fun _ _ act => act.rx)
  exact ⟨passes, h.rx works.run (.advance m (attends.mono fun _ _ act => act.mild)), works.abides⟩

/-- **Both rings are started, or neither.** -/
theorem startEngine (h : m.Whole place) :
    Strict.startEngine m = .ok m.startEngine ∧ m.Onward place m.startEngine.2 := by
  have first := h.tx m.working_startTx h.counted.startTx
  unfold Strict.startEngine Machine.startEngine
  generalize m.startTx = answer at first
  obtain ⟨_ | _, k⟩ := answer
  · exact ⟨rfl, first⟩
  · have second := first.trans first.whole.startRx
    dsimp only
    rw [Strict.bind_eq first.whole.inOrder.passes_startRx]
    generalize k.startRx = answer at second
    obtain ⟨_ | _, k'⟩ := answer
    · exact ⟨rfl, second.trans (second.whole.tx k'.working_cancelTx second.whole.counted.cancelTx)⟩
    · exact ⟨rfl, second⟩

/-- A ring is served if its cause was pending. -/
theorem serveIfPending (h : s.machine.Whole place) (attends : s.upper.Attends place)
    {strict : Machine → Upper → Except Mishap Served} {advance : Machine → Upper → Served}
    (serves : (advance s.machine s.upper).Sound place s.machine (strict s.machine s.upper))
    (pending cause : UInt32) :
    (Machine.serveIfPending pending cause advance s).Sound place s.machine
      (Strict.serveIfPending pending cause strict s) := by
  unfold Strict.serveIfPending Machine.serveIfPending
  split
  · exact serves
  · exact ⟨rfl, h.refl, attends⟩

/-- **An interrupt is served.** -/
theorem interrupt (h : m.Whole place) (attends : u.Attends place) :
    (m.interrupt u).2.Sound place m (Strict.interrupt m u) := by
  have looked : Working .irq False (Attending (fun _ => True) place) m (m.read .irqStatus).2 :=
    .read m .irqStatus
  rw [interrupt_eq]
  unfold Strict.interrupt
  dsimp only
  split
  · exact ⟨rfl, h.irq looked, attends⟩
  · have told := m.works_interruptTold attends
    have notified := h.irq told.run
    have sent : (m.interruptSent u).Sound place _ _ :=
      notified.whole.serveIfPending told.abides (notified.whole.advanceTx told.abides)
        (IrqMask.table.restrict (m.read .irqStatus).1) IrqMask.txDone
    have shown := sent.onward.whole.serveIfPending sent.attends
      (sent.onward.whole.advanceRx sent.attends)
      (IrqMask.table.restrict (m.read .irqStatus).1) IrqMask.rxDone
    refine ⟨?_, (notified.trans sent.onward).trans shown.onward, shown.attends⟩
    exact (Strict.bind_eq sent.passes _).trans shown.passes

/-- **An engine is stopped.** -/
theorem stopEngine (h : m.Whole place) (attends : u.Attends place) :
    (m.stopEngine u).Sound place m (Strict.stopEngine m u) := by
  have deaf := h.irq (m.working_setArmed .tx false)
  have silent := deaf.trans (deaf.whole.irq (working_setArmed _ .rx false))
  have halted := silent.trans
    (silent.whole.tx (working_cancelTx _) silent.whole.counted.cancelTx)
  have cancelled := halted.trans halted.whole.cancelRx
  have sent := (cancelled.whole.advanceTx attends).after cancelled
  have shown := (sent.onward.whole.advanceRx sent.attends).after sent.onward
  rw [stopEngine_eq]
  have told (k : Machine) (count : Nat) :
      Working .irq False (Attending (fun _ => True) place) k (k.give (.engineStopped count)) :=
    .give k _ rfl
  refine ⟨?_, shown.onward.trans (shown.onward.whole.irq (told _ _)), shown.attends⟩
  unfold Strict.stopEngine
  dsimp only
  rw [Strict.bind_eq sent.passes, Strict.bind_eq shown.passes]
  rfl

theorem dropPool (h : m.Whole place) (other : Nat) : m.Onward place (m.dropPool other) := by
  have act : Leaving (fun _ => True) place m (m.dropPool other) := .dropPool m other
  exact ⟨⟨h.counted.run act.txMeanwhile, h.inOrder.dropPool other⟩, m.keepsCalm_dropPool other⟩

theorem dropRings (h : m.Whole place) : m.Onward place m.dropRings := by
  refine ⟨⟨fun r tx => ?_, h.inOrder.dropRings⟩, m.keepsCalm_dropRings⟩
  exact absurd (m.tx_dropRings.symm.trans tx) (Option.some_ne_none r).symm

/-- **An engine is dropped.** -/
theorem dropEngine (h : m.Whole place) :
    Strict.dropEngine m = .ok m.dropEngine ∧ m.Onward place m.dropEngine := by
  have off : Working .irq False (Attending (fun _ => True) place) m (m.write .irqEnable 0) :=
    .write m rfl 0
  have deaf := h.irq off
  have halted := deaf.trans (deaf.whole.tx (working_cancelTx _) deaf.whole.counted.cancelTx)
  have cancelled := halted.trans halted.whole.cancelRx
  have emptied := (cancelled.whole.advanceRx (Upper.abides_silent _)).after cancelled
  have warned (k : Machine) (condition : Bool) (count : Nat) :
      Working .irq False (Attending (fun _ => True) place) k
        (k.giveIf condition (.engineLostPackets count)) :=
    .giveIf k condition _ rfl
  have gone (condition : Bool) (count : Nat) :=
    have noted := emptied.onward.trans (emptied.onward.whole.irq (warned _ condition count))
    noted.trans noted.whole.dropRings
  refine ⟨?_, gone _ _⟩
  unfold Strict.dropEngine
  dsimp only
  rw [Strict.bind_eq emptied.passes]
  rfl

end Machine.Whole

/-! ## Every errand -/

/-- **Every errand passes every check**, raises no alarm, and leaves the machine in order. -/
theorem Errand.sound (h : m.Whole place) (e : Errand) (bound : e.Bound place) :
    e.strictly place m = .ok (e.does place m) ∧ m.Onward place (e.does place m) := by
  cases e with
  | submit p => exact ⟨rfl, h.attend (.submit m p)⟩
  | dropFrame i =>
    rw [strictly, does]
    cases shown : m.frameAt? i with
    | none => exact ⟨rfl, h.refl⟩
    | some f =>
      obtain ⟨pool, taken⟩ := h.inOrder.lends.removeFrame shown
      exact ⟨taken.passes_dropFrame pool, h.attend (.holding (.drop m shown))⟩
  | detachFrame i =>
    refine ⟨rfl, ?_⟩
    rw [does]
    cases shown : m.frameAt? i with
    | none => exact h.refl
    | some f => exact h.attend (.holding (.detach m shown))
  | releaseHandle i =>
    rw [strictly, does]
    cases unused : m.handles[i]? with
    | none => exact ⟨rfl, h.refl⟩
    | some w =>
      obtain ⟨q, released, -⟩ := h.inOrder.lends.releaseHandle unused
      have used : Holding (fun _ => True) place m
          { (m.release place w).2 with handles := m.handles.eraseIdxIfInBounds i } := by
        rw [← ReturnHandle.ofRaw_toRaw w] at unused ⊢
        exact .release m unused
      refine ⟨?_, h.attend (.holding used)⟩
      rw [Option.map_some, Option.getD_some]
      dsimp only
      rw [released]
      rfl
  | reply o => exact ⟨rfl, h.attend (.holding (.reply m o))⟩
  | move mv => exact ⟨rfl, h.attend (.holding (.move m trivial))⟩
  | plan agenda =>
    have planned : RxMild (fun _ => True) place m { m with agenda := agenda } :=
      .apart (.plan m fun _ _ _ _ => trivial) (.of_journal_eq _ rfl)
    obtain ⟨inOrder, calm⟩ := h.inOrder.handling (.mild planned)
    exact ⟨rfl, ⟨h.counted.congr rfl, inOrder⟩, calm⟩
  | look r =>
    have looked : Working .irq False (Attending (fun _ => True) place) m (m.read r).2 := .read m r
    exact ⟨rfl, h.irq looked⟩
  | arm d on => exact ⟨rfl, h.irq (m.working_setArmed d on)⟩
  | signal pending u => exact ⟨rfl, h.irq (m.works_signal bound pending).run⟩
  | startTx => exact ⟨rfl, h.tx m.working_startTx h.counted.startTx⟩
  | cancelTx => exact ⟨rfl, h.tx m.working_cancelTx h.counted.cancelTx⟩
  | advanceTx u => exact (h.advanceTx bound).performs
  | startRx => exact ⟨congrArg (Except.map Prod.snd) h.inOrder.passes_startRx, h.startRx⟩
  | cancelRx => exact ⟨rfl, h.cancelRx⟩
  | advanceRx u => exact (h.advanceRx bound).performs
  | startEngine => exact ⟨congrArg (Except.map Prod.snd) h.startEngine.1, h.startEngine.2⟩
  | interrupt u => exact (h.interrupt bound).performs
  | stopEngine u => exact (h.stopEngine bound).performs
  | dropPool other => exact ⟨rfl, h.dropPool other⟩
  | dropRings => exact ⟨rfl, h.dropRings⟩
  | dropEngine => exact h.dropEngine

/-- **So does every series of errands.** -/
theorem Errand.run (h : m.Whole place) (es : List Errand) (bound : ∀ e ∈ es, e.Bound place) :
    es.foldlM (strictly place) m = .ok (es.foldl (does place) m) ∧
      m.Onward place (es.foldl (does place) m) := by
  induction es generalizing m with
  | nil => exact ⟨rfl, h.refl⟩
  | cons e es ih =>
    obtain ⟨passes, onward⟩ := e.sound h (bound e mem_cons_self)
    obtain ⟨rest, onwards⟩ := ih onward.whole fun e' he' => bound e' (mem_cons_of_mem e he')
    refine ⟨?_, onward.trans onwards⟩
    rw [foldlM_cons, Strict.bind_eq passes, rest, foldl_cons]

/-! ## Rings that were made just now -/

/-- Every event is kept, no alarm was raised, and the upper layer has nothing. -/
structure Machine.Vacant (m : Machine) : Prop where
  /-- Every event is kept. -/
  complete : m.journal.detail = .complete
  /-- No alarm was raised. -/
  calm : ∀ e ∈ m.journal.events.toList, e.isAlarm = false
  /-- No frame is held. -/
  frames : m.frames = #[]
  /-- No handle is out. -/
  handles : m.handles = #[]

theorem Machine.vacant_blank (rxSlots : Nat) : (Machine.blank rxSlots).Vacant :=
  ⟨rfl, fun _ none => absurd none not_mem_nil, rfl, rfl⟩

/-- The rings were made just now, in any configuration that the constructors accept, and the pool that
the receive ring draws from as well. -/
structure Machine.Furnished (place : Nat) (m : Machine) : Prop extends Machine.Vacant m where
  /-- The transmit ring is new, if there is one. -/
  tx : ∀ r, m.tx = some r → ∃ slots depth, TxRing.create slots depth = .ok r
  /-- So is the receive ring. -/
  rx : ∀ r, m.rx = some r → ∃ bufferSize slots pad, RxRing.create place bufferSize slots pad = .ok r
  /-- Then so is the pool, which has no more buffers than there are names for. -/
  pool : m.rx ≠ none → ∃ id layout addresses, addresses.length ≤ Config.maxBuffers ∧
    m.poolAt? place = some (.ofAddresses id layout addresses)

namespace Machine

/-- A machine stays vacant if nothing is handed out and no alarm is raised. -/
theorem Vacant.keeps (h : m.Vacant) (calm : m.KeepsCalm m') (frames : m'.frames = m.frames)
    (handles : m'.handles = m.handles) : m'.Vacant := by
  obtain ⟨es, entered, quiet⟩ := calm.events h.complete
  refine ⟨calm.detail.trans h.complete, fun e he => ?_, frames.trans h.frames,
    handles.trans h.handles⟩
  rw [entered] at he
  exact (mem_append.mp he).elim (h.calm e) (quiet e)

/-- A pool is made. -/
theorem Vacant.createPool {count bufferSize align : Nat} (h : m.Vacant)
    (made : m.createPool count bufferSize align = (.ok place, m')) :
    m'.Vacant ∧ place = m.pools.size ∧ ∃ id layout addresses,
      addresses.length ≤ Config.maxBuffers ∧
        m'.poolAt? place = some (.ofAddresses id layout addresses) := by
  obtain ⟨id, layout, addresses, pool, length, named⟩ := poolAt?_createPool made
  refine ⟨?_, (createPool_eq_ok made).1, id, layout, addresses, length.trans_le named, pool⟩
  obtain ⟨rfl, -, layout, id, addresses, k, -, -, granted, rfl⟩ := createPool_eq_ok made
  have asked : m.KeepsCalm k := granted.trades.enters fun e he => by
    rcases mem_append.mp he with he | he
    · obtain ⟨a, -, rfl⟩ := mem_map.mp he
      rfl
    · split at he
      · rw [mem_singleton.mp he]
        rfl
      · exact absurd he not_mem_nil
  have told := asked.trans (k.keepsCalm_give (n := .poolCreated id count bufferSize) rfl)
  obtain ⟨j, scene⟩ := k.exists_toScene_give (.poolCreated id count bufferSize)
  refine h.keeps (told.trans (.of_journal_eq _ rfl)) ?_ ?_
  · show (k.give _).frames = m.frames
    rw [scene, granted.trades.scene]
  · show (k.give _).handles = m.handles
    rw [scene, granted.trades.scene]

/-- **New rings are in order.** -/
theorem Furnished.whole (h : m.Furnished place) : m.Whole place := by
  refine ⟨fun r tx => ?_, ?_⟩
  · obtain ⟨slots, depth, new⟩ := h.tx r tx
    unfold TxRing.create at new
    split at new
    · obtain rfl := Except.ok.inj new
      rfl
    · exact nomatch new
  · cases rx : m.rx with
    | none =>
      refine .gone rx ⟨.inl ?_, fun f hf => ?_⟩
      · rw [nil_append, Scene.out, h.frames, h.handles]
        rfl
      · rw [h.frames] at hf
        exact absurd hf not_mem_nil
    | some r =>
      obtain ⟨bufferSize, slots, pad, new⟩ := h.rx r rx
      obtain ⟨id, layout, addresses, named, pool⟩ := h.pool (by rw [rx]; exact Option.some_ne_none r)
      exact .used (.of_new new rx named pool h.frames h.handles h.complete fun _ _ _ _ => trivial)

/-- **An engine that was made just now has new rings.** -/
theorem furnished_createEngine {c : Config} (vacant : m.Vacant)
    (made : m.createEngine c = (.ok (), m')) : m'.Furnished m.pools.size := by
  obtain ⟨place, k, tx, rx, pooled, newTx, newRx, rfl⟩ := createEngine_eq_ok made
  obtain ⟨vacant', rfl, pool⟩ := vacant.createPool pooled
  set k' : Machine := { k with engine := some ⟨c, m.pools.size⟩, tx := some tx, rx := some rx }
  have placed : k'.Vacant := vacant'.keeps (.of_journal_eq _ rfl) rfl rfl
  -- only the arbiter is at work after that
  have written : Working .irq True (fun _ _ => False) k' (k'.write .irqEnable 0) := .write k' rfl 0
  have armed : Working .irq True (fun _ _ => False) k' k'.createArbiter :=
    written.trans (Working.stroke (.changeArbiter _ rfl (some {}) _))
  have run : Working .irq True (fun _ _ => False) k'
      (k'.createArbiter.give (.engineCreated c.txSlots c.rxSlots c.bufferCount)) :=
    armed.trans (Working.give _ _ rfl)
  have calm : k'.KeepsCalm
      (k'.createArbiter.give (.engineCreated c.txSlots c.rxSlots c.bufferCount)) :=
    run.keeps (P := k'.KeepsCalm) (fun _ _ stroke h =>
        h.trans (stroke.entered.mono fun _ => Part.calm (by decide)))
      (fun _ _ none => none.elim) (.refl _ k')
  generalize k'.createArbiter.give (.engineCreated c.txSlots c.rxSlots c.bufferCount) = m' at run calm
  obtain ⟨frames, handles⟩ := run.held_eq fun _ => trivial
  have tx' := run.tx_eq (by decide)
  obtain ⟨rx', pools⟩ := run.rx_eq (by decide)
  refine ⟨placed.keeps calm frames handles, fun r here => ?_, fun r here => ?_, fun _ => ?_⟩
  · obtain rfl := Option.some.inj (tx'.symm.trans here)
    exact ⟨_, _, newTx⟩
  · obtain rfl := Option.some.inj (rx'.symm.trans here)
    exact ⟨_, _, _, newRx⟩
  · rw [poolAt?, pools]
    exact pool

/-- Rings were made just now, with an engine around them or without one. -/
inductive Outset (place : Nat) (m : Machine) : Prop
  /-- There are one or two rings. -/
  | rings (h : m.Furnished place)
  /-- There is an engine. -/
  | engine {k : Machine} {c : Config} (vacant : k.Vacant) (made : k.createEngine c = (.ok (), m))
      (here : place = k.pools.size)

theorem Outset.furnished (h : m.Outset place) : m.Furnished place := by
  cases h with
  | rings h => exact h
  | engine vacant made here =>
    subst here
    exact furnished_createEngine vacant made

end Machine

/-- **The strict machine never stops.**  Rings or an engine were made just now, and are used by any
series of errands: they are started, served, cancelled and dropped in any order, the adapter reports
what it likes, frames are dropped, each handle is used at most once, and the callbacks submit packets,
give buffers back and arm directions.  Then every check of the strict machine is passed, so that it does
what the machine does; no alarm is raised; and what the rings say of themselves can be worked out
without a difference that would lie below zero. -/
theorem strict_machine_never_stops (outset : m.Outset place) (es : List Errand)
    (bound : ∀ e ∈ es, e.Bound place) :
    es.foldlM (Errand.strictly place) m = .ok (es.foldl (Errand.does place) m) ∧
    (∀ e ∈ (es.foldl (Errand.does place) m).journal.events.toList, e.isAlarm = false) ∧
    (∀ r, (es.foldl (Errand.does place) m).tx = some r →
      Strict.freeSlots r = .ok r.freeSlots ∧ Strict.pending r = .ok r.pending) ∧
    ∀ r, (es.foldl (Errand.does place) m).rx = some r → Strict.unfilled r = .ok r.unfilled := by
  have new := outset.furnished
  obtain ⟨passes, onward⟩ := Errand.run new.whole es bound
  obtain ⟨later, entered, calm⟩ := onward.calm.events new.complete
  refine ⟨passes, fun e he => ?_, fun r _ => ⟨Strict.freeSlots_eq r, Strict.pending_eq r⟩,
    fun r _ => Strict.unfilled_eq r⟩
  rw [entered] at he
  exact (mem_append.mp he).elim (new.calm e) (calm e)

/-- A small engine is started; a packet is sent, two frames arrive, and both rings are served by one
interrupt.  One frame is dropped, the other one detached.  The engine is dropped with two posted buffers,
and the last handle is used when it has gone. -/
theorem strict_machine_never_stops_busy :
    ∃ es : List Errand, (∀ e ∈ es, e.Bound 0) ∧
      es.foldlM (Errand.strictly 0) .small = .ok (es.foldl (Errand.does 0) .small) ∧
      (∀ e ∈ (es.foldl (Errand.does 0) .small).journal.events.toList, e.isAlarm = false) ∧
      (es.foldl (Errand.does 0) .small).journal.completed.length = 1 ∧
      (es.foldl (Errand.does 0) .small).journal.events.toList.countP
        (fun e => e.frame?.isSome) = 2 ∧
      (es.foldl (Errand.does 0) .small).handles = #[] := by
  let packet : Packet := .single 1 ⟨.ofNat 0x1000, 64⟩
  let es : List Errand :=
    [.startEngine, .submit packet, .advanceTx .silent, .move (.consume 1), .move .frame,
      .move .frame, .move (.raise (IrqMask.txDone ||| IrqMask.rxDone)), .interrupt .keeping,
      .dropFrame 0, .detachFrame 1, .dropEngine, .releaseHandle 0]
  have bound : ∀ e ∈ es, e.Bound 0 := by
    simp [es, Errand.Bound, Upper.Attends, Upper.abides_keeping, Upper.abides_silent]
  have outset : Machine.Outset 0 .small :=
    .engine (Machine.vacant_blank 4) Machine.createEngine_small rfl
  obtain ⟨passes, calm, -⟩ := strict_machine_never_stops outset es bound
  exact ⟨es, bound, passes, calm, by decide +kernel, by decide +kernel, by decide +kernel⟩

end DescriptorRings
