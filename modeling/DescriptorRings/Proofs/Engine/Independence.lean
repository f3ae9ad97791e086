import DescriptorRings.Proofs.Engine.Rings
import DescriptorRings.Proofs.Receive.Independence
import DescriptorRings.Proofs.Transmit.Independence
import DescriptorRings.Script.Step

/-!
# The two directions are independent

Transmission and reception of an engine may be used by different hands, and neither has to wait for
the other.  That is safe because each direction works on its own side of the machine, whatever state
the machine is in: an operation of one direction comes to the same before and after any operation of
the other one (`directions_are_independent`).  So it does not matter how the operations of the two
directions are interleaved, as long as each direction keeps its own order
(`schedules_come_to_the_same`).

## What an operation is

An operation is a request, or a service with everything that the upper layer does in its course.  In
a callback the upper layer makes requests of the same direction, and it may go by what these come
to, by its own side of the machine and by everything that has happened since the service began, the
event that it is called for included.  So a callback is a strategy (`Conduct`).

The adapter works meanwhile.  What it does of its own accord in the course of an operation is a plan
of moves for the same direction (`Job`); moves for the other one belong to a job of the other one.
-/

namespace DescriptorRings

open List

variable {d : Direction}

/-! ## Operations -/

namespace Direction

/-- Whether a command is a request to a direction: to its ring, or to what is on its side. -/
def admits : Direction → Command → Bool
  | .tx, .submit _ | .tx, .startTx | .tx, .cancelTx | .tx, .outstanding | .tx, .readTxSlot _ => true
  | .rx, .startRx | .rx, .cancelRx | .rx, .readFrame _ | .rx, .dropFrame _ | .rx, .detachFrame _
  | .rx, .release _ _ | .rx, .releaseRaw _ _ | .rx, .stateOf _ _ | .rx, .addressOf _ _
  | .rx, .inspectPool _ => true
  | _, _ => false

/-- The service of a direction. -/
def service : Direction → Service
  | .tx => .advanceTx
  | .rx => .advanceRx

end Direction

/-- What the upper layer does in a callback of a direction. -/
inductive Conduct (d : Direction) where
  /-- Nothing more. -/
  | done
  /-- It makes a request, and goes on according to what that came to. -/
  | obey (c : Command) (mine : d.admits c = true) (next : Outcome → Conduct d)
  /-- It looks at its side of the machine and at what has happened since the service began, and goes
  on accordingly. -/
  | look (next : Scene → List Event → Conduct d)

/-- Carries a conduct out, in a service that began when the journal had `past` events. -/
def Conduct.run (past : Nat) : Conduct d → Machine → Machine
  | .done, m => m
  | .obey c _ next, m =>
    let (o, m) := m.obey c
    (next o).run past (m.record (.replied o))
  | .look next, m => (next (m.toScene.without d.other) (m.journal.since past)).run past m

/-- An operation of a direction. -/
inductive Operation (d : Direction) where
  /-- A request. -/
  | request (c : Command) (mine : d.admits c = true)
  /-- A service, with what becomes of its frames, and what is done in its callbacks. -/
  | serve (disposal : Nat → Disposal) (replies : List (Conduct d))

/-- Carries an operation out. -/
def Operation.run (m : Machine) : Operation d → Outcome × Machine
  | .request c _ => m.obey c
  | .serve disposal replies =>
    m.serve d.service
      { disposal := disposal, replies := replies.map (Conduct.run m.journal.events.size) }

/-- An operation of a direction, and what the adapter does for that direction meanwhile. -/
structure Job (d : Direction) where
  /-- The operation. -/
  operation : Operation d
  /-- The moves before each access. -/
  plan : List (List Move) := []
  /-- They are moves for the direction. -/
  planned : Machine.Permitted (fun mv => d.makes mv = true) plan

/-- Does a job. -/
def Job.run (j : Job d) (m : Machine) : Outcome × Machine :=
  j.operation.run { m with agenda := j.plan }

/-! ## Requests -/

variable {n n' m m' : Machine}

/-- A request that is done or refused is so in both machines. -/
theorem Matches.attempt {act : Machine → Except Refusal Unit × Machine}
    (each : Matches d n n' (act m) (act m')) :
    Matches d n n' (m.attempt act) (m'.attempt act) :=
  ⟨congrArg Outcome.ofResult each.answer, each.machines⟩

namespace InStep

/-! ### Parts that may be missing -/

theorem provided (h : InStep d n n' m m') (there : Bool) {act act' : Machine → Outcome × Machine}
    (each : Matches d n n' (act m) (act' m')) :
    Matches d n n' (m.provided there act) (m'.provided there act') := by
  unfold Machine.provided
  split
  · exact each
  · exact ⟨rfl, h⟩

theorem listedPool? (h : InStep .rx n n' m m') (place : Nat) :
    m'.listedPool? place = m.listedPool? place := by
  unfold Machine.listedPool?
  rw [h.pools]

theorem onPool (h : InStep .rx n n' m m') (place : Nat) {act : Machine → Outcome × Machine}
    (each : Matches .rx n n' (act m) (act m')) :
    Matches .rx n n' (m.onPool place act) (m'.onPool place act) := by
  unfold Machine.onPool
  rw [h.listedPool?]
  exact h.provided _ each

theorem askBuffer (h : InStep .rx n n' m m') {α : Type} (place : Nat) (look : BufferPool → Option α)
    (shown : α → Outcome) :
    Matches .rx n n' (m.ask (Machine.askBuffer place look shown))
      (m'.ask (Machine.askBuffer place look shown)) := by
  unfold Machine.ask Machine.askBuffer
  rw [h.poolAt?]
  exact ⟨rfl, h⟩

theorem frameAt? (h : InStep .rx n n' m m') (i : Nat) : m'.frameAt? i = m.frameAt? i := by
  unfold Machine.frameAt?
  rw [h.frames]

theorem withFrame (h : InStep .rx n n' m m') (i : Nat)
    {act : Machine → Frame → Outcome × Machine}
    (each : ∀ f k k', InStep .rx n n' k k' → Matches .rx n n' (act k f) (act k' f)) :
    Matches .rx n n' (m.withFrame i act) (m'.withFrame i act) := by
  unfold Machine.withFrame
  rw [h.frameAt?]
  cases m.frameAt? i with
  | none => exact ⟨rfl, h⟩
  | some f => exact each f _ _ (h.removeFrame i)

theorem giveBack (h : InStep .rx n n' m m') (place : Option Nat) (x : ReturnHandle) :
    Matches .rx n n' (m.giveBack place x) (m'.giveBack place x) := by
  have same : m'.releasePlace? place = m.releasePlace? place := by
    unfold Machine.releasePlace? Machine.listedPool?
    rw [h.engine, h.pools]
  unfold Machine.giveBack
  rw [same]
  cases m.releasePlace? place with
  | none => exact ⟨rfl, h⟩
  | some place => exact (h.release place x).attempt

/-! ### Commands -/

/-- **A request to a direction is answered from its side of the machine.** -/
theorem obey (h : InStep d n n' m m') {c : Command} (mine : d.admits c = true) :
    Matches d n n' (m.obey c) (m'.obey c) := by
  cases d with
  | tx =>
    cases c with
    | submit p =>
      dsimp only [Machine.obey]
      rw [h.tx]
      exact h.provided _ (h.submit p).attempt
    | startTx =>
      dsimp only [Machine.obey]
      rw [h.tx]
      exact h.provided _ h.startTx.attempt
    | cancelTx =>
      dsimp only [Machine.obey]
      rw [h.tx]
      exact h.provided _ ⟨rfl, h.cancelTx⟩
    | outstanding =>
      dsimp only [Machine.obey]
      rw [h.tx]
      cases m.tx with
      | none => exact ⟨rfl, h⟩
      | some ring => exact ⟨rfl, h⟩
    | readTxSlot slot =>
      have table : m'.adapter.txTable = m.adapter.txTable := congrArg (fun a => a.txTable) h.adapter
      dsimp only [Machine.obey]
      rw [table]
      cases m.adapter.txTable.get? slot with
      | none => exact ⟨rfl, h⟩
      | some x => exact ⟨rfl, h⟩
    | _ => exact absurd mine Bool.false_ne_true
  | rx =>
    cases c with
    | startRx =>
      dsimp only [Machine.obey]
      rw [h.rx]
      exact h.provided _ h.startRx.attempt
    | cancelRx =>
      dsimp only [Machine.obey]
      rw [h.rx]
      exact h.provided _ ⟨rfl, h.cancelRx⟩
    | readFrame i =>
      have same : m'.frameView? i = m.frameView? i := by
        unfold Machine.frameView?
        rw [h.frameAt?, h.memory]
      dsimp only [Machine.obey]
      rw [same]
      cases m.frameView? i with
      | none => exact ⟨rfl, h⟩
      | some v => exact ⟨rfl, h⟩
    | dropFrame i =>
      dsimp only [Machine.obey]
      refine h.withFrame i ?_
      intro f k k' hk
      exact ⟨rfl, hk.dropFrame f⟩
    | detachFrame i =>
      dsimp only [Machine.obey]
      refine h.withFrame i ?_
      intro f k k' hk
      exact ⟨rfl, hk.detachFrame f⟩
    | release i place =>
      dsimp only [Machine.obey]
      rw [h.handles]
      cases m.handles[i]? with
      | none => exact ⟨rfl, h⟩
      | some x => exact h.giveBack place x
    | releaseRaw w place => exact h.giveBack place (.ofRaw w)
    | stateOf place b => exact h.onPool place (h.askBuffer place _ _)
    | addressOf place b => exact h.onPool place (h.askBuffer place _ _)
    | inspectPool place => exact h.onPool place (h.askBuffer place _ _)
    | _ => exact absurd mine Bool.false_ne_true

/-! ## Services and callbacks -/

/-- The events since the beginning are the same in both machines. -/
theorem since (h : InStep d n n' m m') :
    m'.journal.since n'.journal.events.size = m.journal.since n.journal.events.size := by
  obtain ⟨es, first, second⟩ := h.entered
  have later {j : Journal} {old : Array Event} (grown : j.events.toList = old.toList ++ es) :
      j.since old.size = es := by
    have size : j.events.size = old.size + es.length := by
      simpa using congrArg length grown
    unfold Journal.since
    simp [grown, size]
  rw [later first, later second]

end InStep

/-- **A conduct does the same in both machines**, since it sees the same. -/
theorem Conduct.keepInStep (c : Conduct d) :
    KeepInStep d n n' (c.run n.journal.events.size) (c.run n'.journal.events.size) := by
  induction c with
  | done => exact fun _ _ h => h
  | obey c mine next ih =>
    intro k k' h
    obtain ⟨o, q, q', first, second, answered⟩ := (h.obey mine).split
    unfold Conduct.run
    rw [first, second]
    exact ih o _ _ (answered.record (.replied o))
  | look next ih =>
    intro k k' h
    unfold Conduct.run
    rw [h.own, h.since]
    exact ih _ _ _ _ h

/-- **An operation depends on the side of its direction, and changes nothing else.** -/
theorem Job.inStep (j : Job d) (same : m'.toScene.without d.other = m.toScene.without d.other) :
    Matches d m m' (j.run m) (j.run m') := by
  have begun := InStep.begin same j.planned
  unfold Job.run
  cases j.operation with
  | request c mine => exact begun.obey mine
  | serve disposal replies =>
    have upper : UpperInStep d m m'
        { disposal := disposal, replies := replies.map (Conduct.run m.journal.events.size) }
        { disposal := disposal, replies := replies.map (Conduct.run m'.journal.events.size) } := by
      refine ⟨rfl, rfl, ?_⟩
      rw [forall₂_map_left_iff, forall₂_map_right_iff, forall₂_same]
      exact fun c _ => c.keepInStep
    unfold Operation.run
    cases d with
    | tx =>
      have served := begun.advanceTx upper
      dsimp only [Direction.service, Machine.serve]
      rw [begun.tx]
      exact begun.provided _ ⟨congrArg Outcome.count served.count, served.machines⟩
    | rx =>
      have served := begun.advanceRx upper
      dsimp only [Direction.service, Machine.serve]
      rw [begun.rx]
      exact begun.provided _ ⟨congrArg Outcome.count served.count, served.machines⟩

/-! ## Either order -/

/-- A job leaves the other side as it was. -/
theorem Job.without_run (j : Job d) (m : Machine) :
    (j.run m).2.toScene.without d = m.toScene.without d := by
  have both : Matches d m m (j.run m) (j.run m) := j.inStep rfl
  exact both.machines.rest

/-- **Transmission and reception are independent.** Whatever state the machine is in, a job of the
one direction and a job of the other come to the same in either order.  Each of them has the same
answer, and enters the same events, among them the packets handed back, the frames delivered with
their bytes, and the answers to the requests of the callbacks.  In the end everything is the same
but for the order of the two series of events. -/
theorem directions_are_independent (m : Machine) (t : Job .tx) (r : Job .rx) :
    (t.run (r.run m).2).1 = (t.run m).1 ∧ (r.run (t.run m).2).1 = (r.run m).1 ∧
      (r.run (t.run m).2).2.quiet = (t.run (r.run m).2).2.quiet ∧
      ∃ es fs : List Event,
        (t.run m).2.journal.events.toList = m.journal.events.toList ++ es ∧
        (r.run m).2.journal.events.toList = m.journal.events.toList ++ fs ∧
        (r.run (t.run m).2).2.journal.events.toList = m.journal.events.toList ++ es ++ fs ∧
        (t.run (r.run m).2).2.journal.events.toList = m.journal.events.toList ++ fs ++ es := by
  have sends : Matches .tx m (r.run m).2 (t.run m) (t.run (r.run m).2) :=
    t.inStep (r.without_run m)
  have receives : Matches .rx m (t.run m).2 (r.run m) (r.run (t.run m).2) :=
    r.inStep (t.without_run m)
  have same : (r.run (t.run m).2).2.quiet = (t.run (r.run m).2).2.quiet := by
    refine Scene.quiet_eq_of_without ?_ ?_
    · exact receives.machines.own.trans sends.machines.rest'.symm
    · exact receives.machines.rest'.trans sends.machines.own.symm
  obtain ⟨es, first, second⟩ := sends.machines.entered
  obtain ⟨fs, first', second'⟩ := receives.machines.entered
  refine ⟨sends.answer, receives.answer, same, es, fs, first, first', ?_, ?_⟩
  · rw [second', first]
  · rw [second, first']

/-- An engine is running, and one packet waits.  The transmit job posts it; the adapter sends it and
raises the cause, and the callback submits another one.  During the receive job a frame arrives; it
is held, and the callback detaches its handle. -/
theorem directions_are_independent_busy :
    ∃ (m : Machine) (t : Job .tx) (r : Job .rx),
      (t.run m).2.journal.completed.length = 1 ∧ (r.run m).2.handles.size = 1 ∧
      (r.run (t.run m).2).2.tx.map TxRing.pending = some 1 ∧
      (r.run (t.run m).2).2.rx.map (fun q => q.stats.delivered) = some 1 ∧
      (t.run (r.run m).2).2.adapter.read .irqStatus = 3 ∧
      (t.run (r.run m).2).1 = (t.run m).1 ∧ (r.run (t.run m).2).1 = (r.run m).1 ∧
      (r.run (t.run m).2).2.quiet = (t.run (r.run m).2).2.quiet := by
  let packet : Packet := .single 1 ⟨.ofNat 0x1000, 64⟩
  let m : Machine := (Machine.small.startEngine.2.submit packet).2
  let t : Job .tx :=
    { operation := .serve (fun _ => .drop) [.obey (.submit packet) rfl fun _ => .done]
      plan := [[], [], [.transmit 1, .raise IrqMask.txDone]]
      planned := by unfold Machine.Permitted; decide }
  let r : Job .rx :=
    { operation := .serve (fun _ => .hold) [.obey (.detachFrame 0) rfl fun _ => .done]
      plan := [[.frame, .raise IrqMask.rxDone]]
      planned := by unfold Machine.Permitted; decide }
  obtain ⟨sent, received, same, -⟩ := directions_are_independent m t r
  exact ⟨m, t, r, by decide +kernel, by decide +kernel, by decide +kernel, by decide +kernel,
    by decide +kernel, sent, received, same⟩

/-! ## Any order -/

namespace Job

/-- What a job came to, and the events that it entered. -/
def account (j : Job d) (m : Machine) : Outcome × List Event :=
  ((j.run m).1, (j.run m).2.journal.since m.journal.events.size)

/-- Does jobs of both directions, one after the other, and gives an account of each. -/
def runAll : List (Σ d, Job d) → Machine → List (Direction × Outcome × List Event) × Machine
  | [], m => ([], m)
  | ⟨d, j⟩ :: js, m =>
    let (accounts, k) := runAll js (j.run m).2
    ((d, j.account m) :: accounts, k)

/-- **Among other jobs each direction does what it does alone.** The accounts of its own jobs are
the same, and so is its side of the machine in the end. -/
theorem runAll_alone (js : List (Σ d, Job d)) (d : Direction) {m m' : Machine}
    (same : m'.toScene.without d.other = m.toScene.without d.other) :
    (runAll (js.filter fun j => j.1 == d) m').1 = (runAll js m).1.filter (fun x => x.1 == d) ∧
      (runAll (js.filter fun j => j.1 == d) m').2.toScene.without d.other =
        (runAll js m).2.toScene.without d.other := by
  induction js generalizing m m' with
  | nil => exact ⟨rfl, same⟩
  | cons j js ih =>
    obtain ⟨e, j⟩ := j
    by_cases mine : e = d
    · subst mine
      have both := j.inStep same
      obtain ⟨accounts, sides⟩ := ih both.machines.own
      have account : j.account m' = j.account m := Prod.ext both.answer both.machines.since
      simp only [filter_cons, beq_self_eq_true, if_true, runAll]
      exact ⟨by rw [account, accounts], sides⟩
    · -- the job leaves this side as it was, so the run without it can stay behind
      have foreign : e = d.other := by
        cases d <;> cases e <;> first | rfl | exact absurd rfl mine
      have skip : (e == d) = false := by simpa using mine
      subst foreign
      have stays := ih (same.trans (j.without_run m).symm)
      simp only [filter_cons, skip, Bool.false_eq_true, if_false, runAll]
      exact stays

end Job

/-- **Only the order within each direction counts.** Two schedules that have the same jobs of either
direction in the same order, interleaved in whatever way, give the same account of each job and
leave the machine the same but for the order of the events. -/
theorem schedules_come_to_the_same {js js' : List (Σ d, Job d)}
    (same : ∀ d, (js.filter fun j => j.1 == d) = js'.filter fun j => j.1 == d) (m : Machine) :
    (∀ d, ((Job.runAll js m).1.filter fun x => x.1 == d) =
        (Job.runAll js' m).1.filter fun x => x.1 == d) ∧
      (Job.runAll js m).2.quiet = (Job.runAll js' m).2.quiet := by
  have alone (d : Direction) := Job.runAll_alone js d (m := m) rfl
  have alone' (d : Direction) := Job.runAll_alone js' d (m := m) rfl
  have sides (d : Direction) : (Job.runAll js m).2.toScene.without d.other =
      (Job.runAll js' m).2.toScene.without d.other := by
    rw [← (alone d).2, ← (alone' d).2, same d]
  refine ⟨fun d => ?_, Scene.quiet_eq_of_without (sides .rx) (sides .tx)⟩
  rw [← (alone d).1, ← (alone' d).1, same d]

end DescriptorRings
