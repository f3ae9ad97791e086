import DescriptorRings.Proofs.Engine.Switch
import DescriptorRings.Proofs.Machine.Latches

/-!
# Cancelled rings stay silent

From a cancellation to the next successful start a ring may be served, cancelled again, and started
in vain, and the other parts of the engine may do as they like.  None of that reaches the adapter.  A
cancelled transmit ring posts nothing and hands packets back as ignored only; a cancelled receive
ring posts no buffer and shows no frame; and the direction stays off, at every moment in between
(`Machine.Hushed`).

A cancelled transmit ring is in one of two situations, and it does not matter which.  For a receive
ring it does: either it still holds what it held when it was cancelled, or it was emptied since, and
what it held is free (`RxRest`).  The first service empties it, and so does the first start that is
refused; nothing leads back.

The argument is about calls to one ring.  That it is about engines is `EngineRequest.txCalls` and
`EngineRequest.rxCalls`.
-/

namespace DescriptorRings

open Relation List

variable {permits : Move → Prop} {place : Nat} {starts : Prop} {k m m' : Machine}

/-! ## Silence -/

/-- Whether an event neither writes a descriptor nor rings the doorbell, leaves the transmit
direction off, and hands no packet back but as ignored. -/
def Event.isTxHushed : Event → Bool
  | .wroteTx _ _ | .wrote .txProducer _ => false
  | .wrote .txDmaControl v => v == DmaControl.off
  | .completed p => p.ignored
  | _ => true

/-- From one machine to another only hushed events were entered, and a direction was off at every
moment. -/
structure Machine.Hushed (control : Register) (hushed : Event → Bool) (k m : Machine) : Prop where
  /-- The events are hushed. -/
  events : ∃ es, m.journal.events.toList = k.journal.events.toList ++ es ∧
    ∀ e ∈ es, hushed e = true
  /-- The direction is off. -/
  off : m.adapter.read control = DmaControl.off
  /-- So it was at every moment in between. -/
  moments : ∃ past, m.moments = k.moments.map (past ++ ·) ∧
    ∀ s ∈ past, s.adapter.read control = DmaControl.off

/-- **Silence is heard in the journal**: what is not entered was not written. -/
theorem Machine.Hushed.of_entered {control : Register} {hushed : Event → Bool}
    (complete : k.journal.detail = .complete) (off : k.Reads control DmaControl.off)
    (switch : ∀ v, hushed (.wrote control v) = true → v = DmaControl.off)
    (entered : k.Enters (fun e => hushed e = true) m)
    (latches : Machine.Latches control DmaControl.off k m) : k.Hushed control hushed m := by
  obtain ⟨es, events, all⟩ := entered.events complete
  obtain ⟨es', past, latched⟩ := latches complete off.planned
  obtain rfl : es = es' := append_cancel_left (events.symm.trans latched.events)
  obtain ⟨now, before⟩ := latched.holds (fun w hw => switch w (all _ hw)) off.value
  exact ⟨⟨es, events, all⟩, now, past, latched.moments, before⟩

/-! ## What the calls enter -/

section Latches

variable {v : UInt32}

theorem Machine.Latches.txMeanwhile (spares : ∀ mv, permits mv → mv.Spares .txDmaControl)
    (act : TxMeanwhile permits m m') : Latches .txDmaControl v m m' := by
  cases act with
  | submit p =>
    unfold submit
    split
    · exact refl _ v m
    · exact record (k := m.modifyTx fun r => r.accept p) _ rfl rfl rfl (.inr fun _ => rfl)
  | turn => exact turn m
  | move permitted => exact move (spares _ permitted) m
  | plan permitted =>
    exact of_same rfl rfl (fun _ ms hms mv hmv => spares mv (permitted ms hms mv hmv)) rfl
  | elsewhere apart =>
    refine of_same apart.journal apart.moments ?_ apart.registers.control
    rw [apart.agenda]
    exact id
  | note => exact note m _

theorem Machine.Latches.rxMeanwhile (spares : ∀ mv, permits mv → mv.Spares .rxDmaControl)
    (act : RxMeanwhile permits place m m') : Latches .rxDmaControl v m m' := by
  cases act with
  | holding act =>
    rcases act.cases with run | ⟨o, rfl⟩ | ⟨mv, permitted, rfl⟩
    · exact working (by decide) (fun _ _ none => none.elim) run
    · exact note m _
    · exact move (spares mv permitted) m
  | turn => exact turn m
  | plan permitted =>
    exact of_same rfl rfl (fun _ ms hms mv hmv => spares mv (permitted ms hms mv hmv)) rfl
  | note => exact note m _
  | write v other => exact poke (by decide) m _ v
  | writeTx slot d =>
    exact record (k := m.setAdapter (m.adapter.writeTx slot d)) _ rfl rfl rfl (.inr fun _ => rfl)
  | elsewhere => exact of_same rfl rfl id rfl

/-- **Every call to the transmit ring enters what it writes.** -/
theorem TxCall.latches (spares : ∀ mv, permits mv → mv.Spares .txDmaControl)
    (call : TxCall permits starts m m') : Machine.Latches .txDmaControl v m m' := by
  have idle (k k' : Machine) (h : False) : Machine.Latches .txDmaControl v k k' := h.elim
  cases call with
  | start => exact .working (by decide) idle (Machine.working_startTx m)
  | cancel => exact .working (by decide) idle (Machine.working_cancelTx m)
  | advance abides =>
    exact .working (by decide) (fun _ _ => .txMeanwhile spares)
      (Machine.works_advanceTx m abides).run
  | meanwhile act => exact .txMeanwhile spares act

/-- **Every call to the receive ring enters what it writes.** -/
theorem RxCall.latches (spares : ∀ mv, permits mv → mv.Spares .rxDmaControl)
    (call : RxCall permits place starts m m') : Machine.Latches .rxDmaControl v m m' := by
  have idle (k k' : Machine) (h : False) : Machine.Latches .rxDmaControl v k k' := h.elim
  cases call with
  | start => exact .working (by decide) idle (Machine.working_startRx m)
  | cancel => exact .working (by decide) idle (Machine.working_cancelRx m)
  | advance abides =>
    exact .working (by decide) (fun _ _ => .rxMeanwhile spares)
      (Machine.works_advanceRx m abides).run
  | meanwhile act => exact .rxMeanwhile spares act

end Latches

/-! ## The transmit ring -/

/-- **A call to a cancelled transmit ring is hushed**, unless it starts the ring. -/
theorem TxCall.hushed (call : TxCall permits False m m') {r : TxRing} (tx : m.tx = some r)
    (cancelled : r.phase = .cancelled) :
    m.Enters (fun e => e.isTxHushed = true) m' ∧ ∃ q, m'.tx = some q ∧ q.phase = .cancelled := by
  have sending (e : Event) (h : e.isSending = true) : e.isTxHushed = true := by
    cases e with
    | wrote reg => cases reg <;> first | rfl | exact absurd h Bool.false_ne_true
    | _ => first | rfl | exact absurd h Bool.false_ne_true
  cases call with
  | start refused =>
    rw [Machine.startTx_of_refused refused]
    exact ⟨.refl _ m, r, tx, cancelled⟩
  | cancel =>
    rw [cancelTx_of_cancelled tx cancelled]
    exact ⟨.refl _ m, r, tx, cancelled⟩
  | advance abides =>
    obtain ⟨handed, -, q, tx', -, phase, -⟩ := advanceTx_of_cancelled abides tx cancelled
    refine ⟨handed.mono fun e he => ?_, q, tx', phase⟩
    rcases he with he | ⟨p, rfl⟩
    · exact sending e he
    · rfl
  | meanwhile act =>
    obtain ⟨q, tx', phase⟩ := act.phase_eq tx
    exact ⟨act.enters.mono sending, q, tx', phase.trans cancelled⟩

/-- So is a run of calls. -/
theorem TxCall.hushed_run (run : ReflTransGen (TxCall permits False) m m') {r : TxRing}
    (tx : m.tx = some r) (cancelled : r.phase = .cancelled) :
    m.Enters (fun e => e.isTxHushed = true) m' := by
  have both : m.Enters (fun e => e.isTxHushed = true) m' ∧
      ∃ q, m'.tx = some q ∧ q.phase = .cancelled := by
    induction run with
    | refl => exact ⟨.refl _ m, r, tx, cancelled⟩
    | tail _ call ih =>
      obtain ⟨before, q, tx', cancelled'⟩ := ih
      obtain ⟨entered, rest⟩ := call.hushed tx' cancelled'
      exact ⟨before.trans entered, rest⟩
  exact both.1

/-- **A cancelled transmit ring is silent.** -/
theorem TxGeared.hushed (geared : TxGeared m) (complete : m.journal.detail = .complete)
    (spares : ∀ mv, permits mv → mv.Spares .txDmaControl)
    (run : ReflTransGen (TxCall permits False) m.cancelTx m') :
    m.cancelTx.Hushed .txDmaControl Event.isTxHushed m' := by
  obtain ⟨r, tx, reads⟩ := geared
  obtain ⟨off, q, tx', cancelled⟩ := reads.cancelTx tx
  have complete' : m.cancelTx.journal.detail = .complete :=
    m.enters_cancelTx.detail.trans complete
  refine .of_entered complete' off (fun v hushed => eq_of_beq hushed)
    (TxCall.hushed_run run tx' cancelled.phase) ?_
  generalize m.cancelTx = k at run
  induction run with
  | refl => exact .refl _ _ k
  | tail _ call ih => exact ih.trans (call.latches spares)

/-! ## Giving buffers back -/

namespace Machine

/-- Only the pools and the memory have changed, and no buffer was posted and no frame shown. -/
structure Returns (m m' : Machine) : Prop where
  /-- The rest is as it was. -/
  scene : ∃ mem pools j,
    m'.toScene = { m.toScene with memory := mem, pools := pools, journal := j }
  /-- What was entered is hushed. -/
  entered : m.Enters (fun e => e.isRxHushed = true) m'

namespace Returns

variable {m'' : Machine}

theorem refl (m : Machine) : Returns m m := ⟨⟨_, _, _, rfl⟩, .refl _ m⟩

theorem trans (h : Returns m m') (h' : Returns m' m'') : Returns m m'' := by
  obtain ⟨mem, pools, j, scene⟩ := h.scene
  obtain ⟨mem', pools', j', scene'⟩ := h'.scene
  exact ⟨⟨mem', pools', j', by rw [scene', scene]⟩, h.entered.trans h'.entered⟩

theorem give (m : Machine) (n : Notice) : Returns m (m.give n) := by
  obtain ⟨j, scene⟩ := exists_toScene_give m n
  exact ⟨⟨m.memory, m.pools, j, scene⟩, .give (fun _ => rfl) m n⟩

theorem release (m : Machine) (place : Nat) (h : ReturnHandle) :
    Returns m (m.release place h).2 := by
  unfold Machine.release
  split
  · exact ⟨⟨m.memory, _, m.journal, rfl⟩, .of_journal_eq _ rfl⟩
  · exact refl m

theorem reapPool (m : Machine) (place : Nat) : Returns m (m.reapPool place) := by
  have free (m : Machine) (a : BusAddress) : Returns m (m.free a) :=
    ⟨⟨m.memory.free a, m.pools, _, toScene_record _ _⟩,
      .of_journal_add (journal_record _ _) rfl⟩
  have freeAll (as : List BusAddress) (m : Machine) : Returns m (m.freeAll as) := by
    induction as generalizing m with
    | nil => exact refl m
    | cons a as ih => exact (free m a).trans (ih _)
  unfold Machine.reapPool
  split
  · exact refl m
  · split
    · refine Returns.trans ?_ ((freeAll _ _).trans ⟨⟨_, _, _, rfl⟩, .of_journal_eq _ rfl⟩)
      unfold giveIf
      split
      · exact give m _
      · exact refl m
    · exact refl m

theorem dropFrame (m : Machine) (f : Frame) : Returns m (m.dropFrame f) := by
  have released := release m f.pool f.handle
  unfold Machine.dropFrame
  split
  · next e =>
    rw [e] at released
    exact released.trans (reapPool _ _)
  · next e =>
    rw [e] at released
    exact (released.trans (give _ _)).trans (reapPool _ _)

theorem rx_eq (h : Returns m m') : m'.rx = m.rx := by
  obtain ⟨mem, pools, j, scene⟩ := h.scene
  rw [scene]

theorem held_eq (h : Returns m m') : m'.frames = m.frames ∧ m'.handles = m.handles := by
  obtain ⟨mem, pools, j, scene⟩ := h.scene
  rw [scene]
  exact ⟨rfl, rfl⟩

end Returns

end Machine

/-- What belongs to the upper layer or to other parts has changed: the receive ring has not, no
buffer was posted, no frame shown, and nothing handed out. -/
structure RxSpared (m m' : Machine) : Prop where
  /-- The ring is left alone. -/
  rx : m'.rx = m.rx
  /-- Nothing is handed out. -/
  out : m'.toScene.out ⊆ m.toScene.out
  /-- What was entered is hushed. -/
  entered : m.Enters (fun e => e.isRxHushed = true) m'

theorem RxSpared.of_scene {a : Adapter} {mem : Memory} {j : Journal}
    (scene : m'.toScene = { m.toScene with adapter := a, memory := mem, journal := j })
    (entered : m.Enters (fun e => e.isRxHushed = true) m') : RxSpared m m' := by
  refine ⟨by rw [scene], ?_, entered⟩
  rw [scene]
  exact Subset.refl _

/-- A frame that comes out of its place is not out any more. -/
theorem Machine.out_removeFrame (m : Machine) (i : Nat) :
    (m.removeFrame i).toScene.out ⊆ m.toScene.out := by
  intro h hh
  refine mem_append.mpr ((mem_append.mp hh).imp_left fun shown => ?_)
  obtain ⟨f, hf, rfl⟩ := mem_map.mp shown
  rw [removeFrame, Array.toList_setIfInBounds] at hf
  obtain ⟨f', hf', rfl⟩ := mem_filterMap.mp hf
  rcases mem_or_eq_of_mem_set hf' with here | none
  · exact mem_map_of_mem (mem_filterMap.mpr ⟨_, here, rfl⟩)
  · exact absurd none (Option.some_ne_none f)

/-- **Giving buffers back spares the ring.** -/
theorem Holding.spared (act : Holding permits place m m') : RxSpared m m' := by
  cases act with
  | @drop i f held =>
    have dropped := Machine.Returns.dropFrame (m.removeFrame i) f
    obtain ⟨frames, handles⟩ := dropped.held_eq
    have removed : m.Enters (fun e => e.isRxHushed = true) (m.removeFrame i) := .of_journal_eq _ rfl
    refine ⟨dropped.rx_eq, ?_, removed.trans dropped.entered⟩
    rw [Scene.out_eq frames handles]
    exact m.out_removeFrame i
  | @detach i f held =>
    have reaped := Machine.Returns.reapPool (m.removeFrame i) f.pool
    obtain ⟨frames, handles⟩ := reaped.held_eq
    have removed : m.Enters (fun e => e.isRxHushed = true) (m.removeFrame i) := .of_journal_eq _ rfl
    have pushed : ((m.removeFrame i).reapPool f.pool).Enters (fun e => e.isRxHushed = true)
        ((m.removeFrame i).detachFrame f) := .of_journal_eq _ rfl
    refine ⟨reaped.rx_eq, fun h hh => ?_, (removed.trans reaped.entered).trans pushed⟩
    have mine : f.handle ∈ m.toScene.out :=
      mem_append_left _ (mem_map_of_mem (mem_filterMap.mpr
        ⟨some f, mem_of_getElem? (Machine.getElem?_of_frameAt? held), rfl⟩))
    rw [Machine.detachFrame, Scene.out, Array.toList_push, ← append_assoc] at hh
    rcases mem_append.mp hh with hh | hh
    · rw [frames, handles] at hh
      exact m.out_removeFrame i hh
    · rw [mem_singleton.mp hh]
      exact mine
  | @release i w unused =>
    have released := Machine.Returns.release m place (.ofRaw w)
    obtain ⟨frames, -⟩ := released.held_eq
    refine ⟨released.rx_eq, ?_, released.entered.trans (.of_journal_eq _ rfl)⟩
    intro h hh
    rw [Scene.out, frames, Array.toList_eraseIdxIfInBounds] at hh
    exact mem_append.mpr ((mem_append.mp hh).imp_right (eraseIdx_subset ·))
  | reply o =>
    exact .of_scene (Machine.toScene_record m _) (.of_journal_add (Machine.journal_record _ _) rfl)
  | move permitted => exact .of_scene (Machine.toScene_move m _) (.move (fun _ => rfl) m _)

/-- **So does whatever happens meanwhile.** -/
theorem RxMeanwhile.spared (act : RxMeanwhile permits place m m') : RxSpared m m' := by
  cases act with
  | holding act => exact act.spared
  | turn =>
    obtain ⟨a, mem, j, scene⟩ := m.exists_toScene_turn
    exact .of_scene scene (.turn (fun _ => rfl) m)
  | plan => exact ⟨rfl, Subset.refl _, .of_journal_eq _ rfl⟩
  | @note e note =>
    refine .of_scene (Machine.toScene_record m e) (.of_journal_add (Machine.journal_record _ _) ?_)
    cases e <;> first | rfl | exact absurd note Bool.false_ne_true
  | @write reg v other =>
    refine .of_scene (Machine.toScene_poke m reg v) (.of_journal_add (Machine.journal_record _ _) ?_)
    cases reg <;> first | rfl | exact absurd (by decide) other
  | writeTx slot d =>
    exact .of_scene (Machine.toScene_pokeTx m slot d)
      (.of_journal_add (Machine.journal_record _ _) rfl)
  | elsewhere => exact ⟨rfl, Subset.refl _, .of_journal_eq _ rfl⟩

/-- **So does a run of such things.** -/
theorem RxMeanwhile.spared_run (run : ReflTransGen (RxMeanwhile permits place) m m') :
    RxSpared m m' := by
  induction run with
  | refl => exact ⟨rfl, Subset.refl _, .refl _ m⟩
  | tail _ act ih =>
    have last := act.spared
    exact ⟨last.rx.trans ih.rx, List.Subset.trans last.out ih.out, ih.entered.trans last.entered⟩

/-! ## The receive ring -/

/-- A ring `q` is what is left of a ring `r` that was emptied since. -/
structure RxDrained (r q : RxRing) : Prop where
  /-- No slot holds a buffer. -/
  held : q.held = []
  /-- None is posted. -/
  posted : q.posted = 0
  /-- It does not run. -/
  phase : q.phase ≠ .running
  /-- What it held is counted. -/
  counted : q.stats.discarded = r.stats.discarded + r.held.length

theorem RxDrained.trans {r q q' : RxRing} (h : RxDrained r q) (h' : RxDrained q q') :
    RxDrained r q' := by
  refine ⟨h'.held, h'.posted, h'.phase, h'.counted.trans ?_⟩
  rw [h.held, h.counted]
  rfl

theorem RxDrained.cancelled {r q : RxRing} (h : RxDrained r q) : RxDrained r (q.enter .cancelled) :=
  ⟨h.held, h.posted, nofun, h.counted⟩

/-- A ring `r` was cancelled, and this is what it may be until it is started again. -/
inductive RxRest (r : RxRing) : RxRing → Prop
  /-- It still holds what it held. -/
  | waiting : RxRest r (r.enter .cancelled)
  /-- It was emptied since. -/
  | drained {q : RxRing} (h : RxDrained r q) : RxRest r q

/-- From one machine to another no buffer was posted and no frame shown, and nothing is out that was
not out before. -/
structure RxQuiet (m m' : Machine) (Next : RxRing → Prop) : Prop where
  /-- This is the ring afterwards. -/
  rx : ∃ q, m'.rx = some q ∧ Next q
  /-- Nothing is handed out. -/
  out : m'.toScene.out ⊆ m.toScene.out
  /-- What was entered is hushed. -/
  entered : m.Enters (fun e => e.isRxHushed = true) m'

/-- A service of a receive ring, or a start that is refused. -/
inductive RxServed (permits : Move → Prop) (place : Nat) : Machine → Machine → Prop
  /-- The ring is served. -/
  | advance (m : Machine) {u : Upper} (h : u.Abides (RxMeanwhile permits place)) :
      RxServed permits place m (m.advanceRx u).machine
  /-- A start is refused. -/
  | refused (m : Machine) (h : m.startRx.1 ≠ .ok ()) : RxServed permits place m m.startRx.2

section Receive

variable {size : RingSize} {r q : RxRing} {p : BufferPool} {out : List ReturnHandle}

/-- While the ring works by itself the upper layer has what it had. -/
theorem Machine.out_of_working (run : Working .rx True (fun _ _ => False) m m') :
    m'.toScene.out = m.toScene.out := by
  obtain ⟨frames, handles⟩ := run.held_eq fun _ => trivial
  exact Scene.out_eq frames handles

theorem RxQuiet.of_emptied {phase : Phase} (h : RxEmptied q p out phase m m')
    (idle : phase ≠ .running) (run : Working .rx True (fun _ _ => False) m m') :
    RxQuiet m m' (RxDrained q) := by
  refine ⟨⟨_, h.rx, ?_, ?_, idle, rfl⟩, by rw [Machine.out_of_working run]; exact Subset.refl _,
    h.hushed⟩
  · exact q.held_clear
  · exact q.posted_clear

/-- **The first service empties a cancelled ring, and so does the first start that is refused.** -/
theorem RxServed.quiet (served : RxServed permits place m m') (used : RxInUse permits place size m)
    (rx : m.rx = some q) (idle : q.phase ≠ .running) :
    RxQuiet m m' fun q' => RxDrained q q' ∨ q.phase = .stopped ∧ q' = q := by
  obtain ⟨p, pool⟩ := used.pool
  obtain ⟨here, ledger, -⟩ := used.ledger rx pool
  have weaken (h : RxQuiet m m' (RxDrained q)) :
      RxQuiet m m' fun q' => RxDrained q q' ∨ q.phase = .stopped ∧ q' = q := by
    obtain ⟨q', rx', drained⟩ := h.rx
    exact ⟨⟨q', rx', .inl drained⟩, h.out, h.entered⟩
  cases served with
  | @advance u abides =>
    cases phase : q.phase with
    | running => exact absurd phase idle
    | stopped =>
      have nothing : (m.advanceRx u).machine = m := by
        rw [Machine.advanceRx, rx]
        dsimp only
        rw [phase]
        rfl
      rw [nothing]
      exact ⟨⟨q, rx, .inr ⟨rfl, rfl⟩⟩, Subset.refl _, .refl _ m⟩
    | cancelled =>
      have recycled : (m.advanceRx u).machine = m.recyclePosted := by
        rw [Machine.advanceRx, rx]
        dsimp only
        rw [phase]
        rfl
      have emptied := Machine.emptied_recyclePosted rx (here ▸ pool) ledger
      rw [phase, ← recycled] at emptied
      rw [← phase]
      refine weaken (.of_emptied emptied nofun ?_)
      rw [recycled]
      exact Machine.working_recyclePosted m
  | refused failed =>
    rcases used.start rx pool with ⟨-, -, emptied⟩ | ⟨-, ok, -⟩
    · exact weaken (.of_emptied emptied nofun (Machine.working_startRx m))
    · exact absurd ok failed

/-- Cancelling a receive ring is hushed. -/
theorem Machine.hushed_cancelRx (rx : m.rx = some q) :
    m.Enters (fun e => e.isRxHushed = true) m.cancelRx := by
  by_cases cancelled : q.phase = .cancelled
  · rw [cancelRx_of_cancelled rx cancelled]
    exact .refl _ m
  · rw [cancelRx_of_live rx cancelled]
    have silenced := Enters.write (P := fun e => e.isRxHushed = true) (fun _ => rfl)
      (r := .rxDmaControl) (v := DmaControl.off) rfl m
    have placed : (m.write .rxDmaControl DmaControl.off).Enters (fun e => e.isRxHushed = true)
        ((m.write .rxDmaControl DmaControl.off).setRx (q.enter .cancelled)) :=
      .of_journal_eq _ rfl
    exact silenced.trans (placed.trans (.give (fun _ => rfl) _ _))

/-- **A call to a receive ring that rests is hushed**, unless it starts the ring. -/
theorem RxCall.quiet (call : RxCall permits place False m m') (used : RxInUse permits place size m)
    (rx : m.rx = some q) (idle : q.phase ≠ .running) :
    RxQuiet m m' fun q' => q' = q ∨ q' = q.enter .cancelled ∨ RxDrained q q' := by
  have served (h : RxServed permits place m m') :
      RxQuiet m m' fun q' => q' = q ∨ q' = q.enter .cancelled ∨ RxDrained q q' := by
    obtain ⟨⟨q', rx', next⟩, out, entered⟩ := h.quiet used rx idle
    exact ⟨⟨q', rx', next.elim (.inr ∘ .inr) fun same => .inl same.2⟩, out, entered⟩
  cases call with
  | start refused => exact served (.refused m refused)
  | cancel =>
    refine ⟨?_, by rw [Machine.out_of_working (Machine.working_cancelRx m)]; exact Subset.refl _,
      Machine.hushed_cancelRx rx⟩
    by_cases cancelled : q.phase = .cancelled
    · rw [Machine.cancelRx_of_cancelled rx cancelled]
      exact ⟨q, rx, .inl rfl⟩
    · rw [Machine.cancelRx_of_live rx cancelled]
      exact ⟨_, Machine.rx_give _ _, .inr (.inl rfl)⟩
  | advance abides => exact served (.advance m abides)
  | meanwhile act =>
    obtain ⟨same, out, entered⟩ := act.spared
    exact ⟨⟨q, same.trans rx, .inl rfl⟩, out, entered⟩

theorem RxRest.phase (h : RxRest r q) : q.phase ≠ .running := by
  cases h with
  | waiting => exact nofun
  | drained h => exact h.phase

/-- Being emptied is for good. -/
theorem RxDrained.next {q' : RxRing} (h : RxDrained r q)
    (next : q' = q ∨ q' = q.enter .cancelled ∨ RxDrained q q') : RxDrained r q' := by
  rcases next with rfl | rfl | drained
  · exact h
  · exact h.cancelled
  · exact h.trans drained

theorem RxRest.next {q' : RxRing} (h : RxRest r q)
    (next : q' = q ∨ q' = q.enter .cancelled ∨ RxDrained q q') : RxRest r q' := by
  cases h with
  | drained h => exact .drained (h.next next)
  | waiting =>
    rcases next with rfl | rfl | drained
    · exact .waiting
    · exact .waiting
    · exact .drained ⟨drained.held, drained.posted, drained.phase, drained.counted⟩

/-- **A run of calls to a receive ring that rests is hushed**, and what they lead to rests. -/
theorem RxQuiet.calls {Rest : RxRing → Prop} (idle : ∀ q, Rest q → q.phase ≠ .running)
    (keeps : ∀ q q', Rest q → q' = q ∨ q' = q.enter .cancelled ∨ RxDrained q q' → Rest q')
    (used : RxInUse permits place size m) (rx : ∃ q, m.rx = some q ∧ Rest q)
    (run : ReflTransGen (RxCall permits place False) m m') : RxQuiet m m' Rest := by
  induction run with
  | refl => exact ⟨rx, Subset.refl _, .refl _ m⟩
  | tail before call ih =>
    obtain ⟨q, rx', rest⟩ := ih.rx
    obtain ⟨⟨q', rx'', next⟩, out, entered⟩ := call.quiet (used.calls before) rx' (idle q rest)
    exact ⟨⟨q', rx'', keeps q q' rest next⟩, List.Subset.trans out ih.out,
      ih.entered.trans entered⟩

/-- What a receive ring held at one machine was given back on the way to another one. -/
structure Machine.RxReleased (place : Nat) (k m : Machine) : Prop where
  /-- No buffer is posted, and those that were are counted. -/
  ring : ∃ r q, k.rx = some r ∧ m.rx = some q ∧ q.posted = 0 ∧
    q.stats.discarded = r.stats.discarded + r.posted
  /-- Those that were are free, each of them once. -/
  pool : ∃ p p', k.poolAt? place = some p ∧ m.poolAt? place = some p' ∧ p'.tally.posted = 0 ∧
    ∀ b, p.stateOf? b = some .posted → p'.stateOf? b = some .free ∧ p'.free.count b = 1

theorem RxServed.call (h : RxServed permits place m m') : RxCall permits place False m m' := by
  cases h with
  | advance abides => exact .advance m abides
  | refused failed => exact .start m failed

/-- **A cancelled ring that was served is empty from then on.** -/
theorem RxInUse.drained (used : RxInUse permits place size k) (rx : k.rx = some r)
    (cancelled : r.phase = .cancelled) {m'' : Machine}
    (before : ReflTransGen (RxCall permits place False) k m)
    (served : RxServed permits place m m')
    (after : ReflTransGen (RxCall permits place False) m' m'') : RxQuiet k m'' (RxDrained r) := by
  have rests : RxRest r r := by
    have same : r.enter .cancelled = r := by rw [RxRing.enter, ← cancelled]
    have resting : RxRest r (r.enter .cancelled) := .waiting
    rwa [same] at resting
  -- until the service the ring may still hold what it held, and from then on it does not
  have until_served : RxQuiet k m (RxRest r) :=
    .calls (fun _ rest => rest.phase) (fun _ _ rest => rest.next) used ⟨r, rx, rests⟩ before
  have used' : RxInUse permits place size m := used.calls before
  obtain ⟨q, rx', rest⟩ := until_served.rx
  obtain ⟨⟨q', rx'', next⟩, out, entered⟩ := served.quiet used' rx' rest.phase
  have drained : RxDrained r q' := by
    cases rest with
    | waiting =>
      rcases next with drained | ⟨stopped, -⟩
      · exact ⟨drained.held, drained.posted, drained.phase, drained.counted⟩
      · cases stopped
    | drained h => exact h.next (next.elim (.inr ∘ .inr) fun same => .inl same.2)
  have from_then : RxQuiet m' m'' (RxDrained r) :=
    .calls (fun _ drained => drained.phase) (fun _ _ drained => drained.next)
      (used'.call served.call) ⟨q', rx'', drained⟩ after
  exact ⟨from_then.rx, fun h hh => until_served.out (out (from_then.out hh)),
    (until_served.entered.trans entered).trans from_then.entered⟩

/-- **A cancelled ring that was served has given back what it held.** -/
theorem RxInUse.released (used : RxInUse permits place size k) (rx : k.rx = some r)
    (cancelled : r.phase = .cancelled) {m'' : Machine}
    (before : ReflTransGen (RxCall permits place False) k m)
    (served : RxServed permits place m m')
    (after : ReflTransGen (RxCall permits place False) m' m'') : k.RxReleased place m'' := by
  have quiet := used.drained rx cancelled before served after
  have whole : ReflTransGen (RxCall permits place False) k m'' :=
    before.trans (.head served.call after)
  obtain ⟨last, rx', empty⟩ := quiet.rx
  obtain ⟨p, pool⟩ := used.pool
  obtain ⟨p', pool', kept⟩ := used.kept whole pool
  obtain ⟨-, ledger, posted⟩ := used.ledger rx pool
  obtain ⟨-, ledger', -⟩ := (used.calls whole).ledger rx' pool'
  rw [empty.held] at ledger'
  refine ⟨⟨r, last, rx, rx', empty.posted, by rw [empty.counted, posted]⟩, p, p', pool, pool', ?_, ?_⟩
  · rw [ledger'.tally_eq]
    rfl
  · intro b here
    have inside : b.index < p'.capacity := by
      rw [kept.capacity]
      exact BufferPool.index_lt_of_stateOf? here
    have unheld : b ∉ m''.toScene.out.map ReturnHandle.buffer := by
      intro hb
      obtain ⟨h, hh, rfl⟩ := mem_map.mp hb
      have delivered := (ledger.delivered.mem_iff h.buffer).mp (mem_map_of_mem (quiet.out hh))
      exact nomatch here.symm.trans delivered
    have free := ledger'.free_of_notMem inside unheld
    exact ⟨free, count_eq_one_of_mem ledger'.free.nodup ((ledger'.free.mem_iff b).mpr free)⟩

/-- **A cancelled receive ring is silent.** -/
theorem RxGeared.hushed (geared : RxGeared m) (used : RxInUse permits place size m)
    (spares : ∀ mv, permits mv → mv.Spares .rxDmaControl)
    (run : ReflTransGen (RxCall permits place False) m.cancelRx m') :
    m.cancelRx.Hushed .rxDmaControl Event.isRxHushed m' := by
  obtain ⟨r, rx, reads⟩ := geared
  obtain ⟨off, rx'⟩ := reads.cancelRx rx
  have quiet : RxQuiet m.cancelRx m' (RxRest r) :=
    .calls (fun _ rest => rest.phase) (fun _ _ rest => rest.next) used.cancelRx ⟨_, rx', .waiting⟩ run
  have latches : Machine.Latches .rxDmaControl DmaControl.off m.cancelRx m' := by
    clear quiet
    induction run with
    | refl => exact .refl _ _ _
    | tail _ call ih => exact ih.trans (call.latches spares)
  exact .of_entered used.cancelRx.complete off (fun v hushed => eq_of_beq hushed) quiet.entered latches

end Receive

/-! ## The theorem -/

/-- **Cancelled rings stay silent.**  Neither ring of an engine sees more of its run than calls to
itself and what may happen between them.  However a new ring was used, its direction is on just while
it is running; and from a cancellation on, whatever is asked of it but a start that succeeds, nothing
is posted, the direction stays off, packets come back as ignored only, and no frame is shown.  A
receive ring that was served since, or refused to start, has given back what it held. -/
theorem cancelled_rings_stay_silent
    (spares : ∀ mv, permits mv → mv.SparesSwitches) :
    (∀ startsTx startsRx n m m',
      ReflTransGen (EngineRequest ⟨permits, place, startsTx, startsRx⟩ n) m m' →
        ReflTransGen (TxCall permits startsTx) m m' ∧
          ReflTransGen (RxCall permits place startsRx) m m') ∧
    (∀ slots depth m₀ m, m₀.TxMade slots depth → Machine.Permitted permits m₀.agenda →
      ReflTransGen (TxCall permits True) m₀ m →
        (∃ r, m.tx = some r ∧ m.adapter.read .txDmaControl =
          if r.phase = .running then DmaControl.enable else DmaControl.off) ∧
        ∀ m', ReflTransGen (TxCall permits False) m.cancelTx m' →
          m.cancelTx.Hushed .txDmaControl Event.isTxHushed m') ∧
    ∀ slots m₀ m, m₀.RxMade place slots → Machine.Permitted permits m₀.agenda →
      ReflTransGen (RxCall permits place True) m₀ m →
        (∃ r, m.rx = some r ∧ m.adapter.read .rxDmaControl =
          if r.phase = .running then DmaControl.enable else DmaControl.off) ∧
        ∀ m', ReflTransGen (RxCall permits place False) m.cancelRx m' →
          m.cancelRx.Hushed .rxDmaControl Event.isRxHushed m' ∧
          ∀ k m'', RxServed permits place m' k →
            ReflTransGen (RxCall permits place False) k m'' →
              m.cancelRx.RxReleased place m'' := by
  have control (phase : Phase) :
      phase.control = if phase = .running then DmaControl.enable else DmaControl.off := by
    cases phase <;> rfl
  have spared {agenda : List (List Move)} (planned : Machine.Permitted permits agenda) :
      Machine.Permitted (Move.Spares .txDmaControl) agenda ∧
        Machine.Permitted (Move.Spares .rxDmaControl) agenda :=
    ⟨fun ms hms mv hmv => (spares mv (planned ms hms mv hmv)).1,
      fun ms hms mv hmv => (spares mv (planned ms hms mv hmv)).2⟩
  refine ⟨fun startsTx startsRx n m m' run => ⟨EngineRequest.txCalls run, EngineRequest.rxCalls run⟩,
    ?_, ?_⟩
  · intro slots depth m₀ m made planned run
    obtain ⟨size, -, begun⟩ := TxInUse.of_made made planned
    have geared : TxGeared m :=
      (TxGeared.of_made made (spared planned).1).calls (fun mv ok => (spares mv ok).1) run
    have ⟨r, tx, reads⟩ := geared
    refine ⟨⟨r, tx, reads.value.trans (control _)⟩, fun m' after => ?_⟩
    exact geared.hushed (begun.calls run).kept.complete (fun mv ok => (spares mv ok).1) after
  · intro slots m₀ m made planned run
    obtain ⟨size, -, begun⟩ := RxInUse.of_made made planned
    have used := begun.calls run
    have geared : RxGeared m :=
      (RxGeared.of_made made (spared planned).2).calls (fun mv ok => (spares mv ok).2) begun run
    have ⟨r, rx, reads⟩ := geared
    refine ⟨⟨r, rx, reads.value.trans (control _)⟩, fun m' after => ?_⟩
    refine ⟨geared.hushed used (fun mv ok => (spares mv ok).2) after, fun k m'' served later => ?_⟩
    exact used.cancelRx.released (reads.cancelRx rx).2 rfl after served later

/-- A small engine has posted a packet, and two of its four buffers are out with frames that are
held, when both rings are cancelled.  The packet comes back as ignored.  The receive ring cannot be
started again, and has given back the two buffers that were posted. -/
theorem cancelled_rings_stay_silent_refused :
    ∃ m, ReflTransGen (EngineRequest ⟨Move.SparesSwitches, 0, True, True⟩ 0) .small m ∧
      m.adapter.read .txDmaControl = DmaControl.enable ∧
      m.adapter.read .rxDmaControl = DmaControl.enable ∧
      m.cancelTx.Hushed .txDmaControl Event.isTxHushed (m.cancelTx.advanceTx .silent).machine ∧
      (m.cancelTx.advanceTx .silent).machine.journal.completed.map Packet.ignored = [true] ∧
      m.cancelRx.Hushed .rxDmaControl Event.isRxHushed m.cancelRx.startRx.2 ∧
      m.cancelRx.startRx.1 = .error (.insufficientBuffers 3 2) ∧
      m.cancelRx.RxReleased 0 m.cancelRx.startRx.2 := by
  let p : Packet := .single 1 ⟨.ofNat 0x1000, 64⟩
  let sending : Machine := ((Machine.small.startEngine.2.submit p).2.advanceTx .silent).machine
  let m : Machine := (((sending.move .frame).move .frame).advanceRx .keeping).machine
  have run : ReflTransGen (EngineRequest ⟨Move.SparesSwitches, 0, True, True⟩ 0) .small m :=
    ReflTransGen.refl
      |>.tail (.start _ (fun _ => trivial) fun _ => trivial)
      |>.tail (.call (.submit _ p))
      |>.tail (.call (.advanceTx _ rfl (Upper.abides_silent _)))
      |>.tail (.call (.holding (.move _ Move.sparesSwitches_frame)))
      |>.tail (.call (.holding (.move _ Move.sparesSwitches_frame)))
      |>.tail (.call (.advanceRx _ rfl (Upper.abides_keeping _)))
  have short : m.cancelRx.startRx.1 = .error (.insufficientBuffers 3 2) := by decide +kernel
  have refused : m.cancelRx.startRx.1 ≠ .ok () := fun ok => nomatch short.symm.trans ok
  obtain ⟨tx, rx, -, planned⟩ := Machine.made_createEngine (Machine.unused_blank 4)
    (fun _ spared => spared) Machine.createEngine_small
  obtain ⟨views, forTx, forRx⟩ :=
    @cancelled_rings_stay_silent Move.SparesSwitches 0 fun _ spared => spared
  obtain ⟨sent, received⟩ := views True True 0 _ _ run
  obtain ⟨-, quietTx⟩ := forTx _ _ _ _ tx planned sent
  obtain ⟨-, quietRx⟩ := forRx _ _ _ rx planned received
  obtain ⟨hushed, -⟩ := quietRx _ (.single (.start m.cancelRx refused))
  obtain ⟨-, released⟩ := quietRx _ .refl
  exact ⟨m, run, by decide +kernel, by decide +kernel,
    quietTx _ (.single (.advance m.cancelTx (Upper.abides_silent _))), by decide +kernel, hushed,
    short, released _ _ (.refused m.cancelRx refused) .refl⟩

end DescriptorRings
