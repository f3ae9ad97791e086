import DescriptorRings.Proofs.Engine.Interrupt
import DescriptorRings.Proofs.Engine.TakeDown
import DescriptorRings.Proofs.Receive.Dealings

/-!
# No alarm is raised

A notice of the gravest level is an *alarm*.  The transmit ring and the arbiter have none to give
(`Part.calm`).  The receive ring has several, one for each case in which the pool does not do as it is
told, and none of them is ever the case as long as the guard of the ring holds.

The guard is about a ring.  Frames and handles may outlive it, and they come back to the pool when
there is no ring any more.  What is needed then is less: the pool knows of every buffer that the upper
layer has (`Machine.Lends`).  So there are two states in which the receive side can be in order
(`RxInOrder`).  Either the ring is in use, or it is gone, and in both nothing that anybody does raises
an alarm.

The upper layer acts in the middle of all this.  `RxMild` are its acts, and those of the other parts, one
by one: either something is given back, which is calm because the receive side is in order, or the ring
is left alone, and then the act has to be calm by itself.
-/

namespace DescriptorRings

open Relation List

variable {permits : Move → Prop} {place : Nat} {size : RingSize} {p : Part} {shifts : Prop}
  {m m' m'' : Machine}

/-! ## Calm -/

/-- No alarm is raised between two machines. -/
abbrev Machine.KeepsCalm (m m' : Machine) : Prop := m.Enters (fun e => e.isAlarm = false) m'

/-- **Only the receive ring has alarms to give.** -/
theorem Part.calm {e : Event} (other : p ≠ .rx) (h : p.enters e = true) : e.isAlarm = false := by
  cases e with
  | noticed n =>
    cases p with
    | rx => exact absurd rfl other
    | tx => exact (Bool.not_eq_true' _).mp h
    | irq => exact (Bool.not_eq_true' _).mp h
  | _ => rfl

namespace Machine

theorem keepsCalm_give (m : Machine) {n : Notice} (mild : (n.level == .error) = false) :
    m.KeepsCalm (m.give n) :=
  (RxRests.give (fun _ calm => calm) m mild).tells.enters

theorem keepsCalm_giveIf (m : Machine) (condition : Bool) {n : Notice}
    (mild : (n.level == .error) = false) : m.KeepsCalm (m.giveIf condition n) :=
  (RxRests.giveIf (fun _ calm => calm) m condition mild).tells.enters

theorem keepsCalm_cancelRx (m : Machine) : m.KeepsCalm m.cancelRx := by
  unfold cancelRx
  split
  · exact .refl _ m
  · have off : m.KeepsCalm (m.write .rxDmaControl DmaControl.off) :=
      .write (P := fun e => e.isAlarm = false) (fun _ => rfl) rfl m
    refine Enters.trans (off.trans ?_) (keepsCalm_give _ rfl)
    exact .of_journal_eq _ rfl

/-- A pool that is taken down with posted buffers warns of that, and no more. -/
theorem keepsCalm_reapPool (m : Machine) (place : Nat) : m.KeepsCalm (m.reapPool place) := by
  have freed (k : Machine) (a : BusAddress) : k.KeepsCalm (k.free a) :=
    .of_journal_add (journal_record _ _) rfl
  unfold reapPool
  split
  · exact .refl _ m
  · next e _ =>
    split
    · exact ((m.keepsCalm_giveIf _ rfl).trans (.foldl freed e.pool.addresses _)).trans
        (.of_journal_eq _ rfl)
    · exact .refl _ m

theorem keepsCalm_dropPool (m : Machine) (place : Nat) : m.KeepsCalm (m.dropPool place) := by
  have unlisted : m.KeepsCalm
      { m with pools := m.pools.modify place fun e => { e with listed := false } } :=
    .of_journal_eq _ rfl
  exact unlisted.trans (keepsCalm_reapPool _ place)

theorem keepsCalm_dropRings (m : Machine) : m.KeepsCalm m.dropRings := by
  have gone : m.KeepsCalm { m with engine := none, tx := none, rx := none, arbiter := none } :=
    .of_journal_eq _ rfl
  unfold dropRings
  dsimp only
  split
  · exact gone.trans (keepsCalm_reapPool _ _)
  · exact gone

theorem rx_cancelRx_of_none (none : m.rx = none) : m.cancelRx.rx = Option.none := by
  unfold cancelRx
  split
  · exact none
  · rw [rx_give]
    exact congrArg (Option.map fun r => r.enter .cancelled) ((m.rx_write _ _).trans none)

theorem tx_dropRings (m : Machine) : m.dropRings.tx = none := by
  refine keeps_dropRings (P := fun k => k.tx = none) (fun k n gone => (tx_give k n).trans gone)
    (fun k a gone => ?_) (fun _ _ gone => gone) rfl
  rw [free, toScene_record]
  exact gone

theorem rx_dropRings (m : Machine) : m.dropRings.rx = none := by
  refine keeps_dropRings (P := fun k => k.rx = none) (fun k n gone => (rx_give k n).trans gone)
    (fun k a gone => ?_) (fun _ _ gone => gone) rfl
  rw [free, toScene_record]
  exact gone

end Machine

/-! ## Mild acts -/

/-- Something that happens while the receive ring is not at work, and that raises no alarm as long as
the receive side is in order. -/
inductive RxMild (permits : Move → Prop) (place : Nat) (m m' : Machine) : Prop
  /-- The upper layer gives something back, or the adapter makes a move. -/
  | holding (h : Holding permits place m m')
  /-- Something else happens, and raises no alarm in any case. -/
  | apart (h : RxMeanwhile permits place m m') (calm : m.KeepsCalm m')

namespace RxMild

theorem meanwhile (act : RxMild permits place m m') : RxMeanwhile permits place m m' := by
  cases act with
  | holding h => exact .holding h
  | apart h => exact h

/-- **Mild acts may come at any time**, also in the callbacks of the ring. -/
theorem watch {home : BufferPool} {T : RxTrack} (origin : T.origin.2.poolAt? T.place = some home) :
    RxWatch (fun e => e.isAlarm = false) home T (RxMild T.permits T.place) where
  tame _ calm := calm
  origin := origin
  aside _ _ act := act.meanwhile
  mild g k k' empty h act := by
    cases act with
    | holding act => exact (RxWatch.holding (fun _ calm => calm) origin).mild g k k' empty h act
    | apart _ calm => exact calm

/-- Another part is at work, and the upper layer does what is mild. -/
theorem working {Act : Machine → Machine → Prop} (other : p ≠ .rx)
    (acts : ∀ k k', Act k k' → ReflTransGen (RxMild permits place) k k')
    (run : Working p shifts Act m m') : ReflTransGen (RxMild permits place) m m' :=
  run.keeps (P := ReflTransGen (RxMild permits place) m)
    (fun _ _ stroke h =>
      h.tail (.apart (stroke.rxMeanwhile other) (stroke.entered.mono fun _ => Part.calm other)))
    (fun _ _ act h => h.trans (acts _ _ act)) .refl

end RxMild

/-- **What the upper layer does in its callbacks is mild.** -/
theorem Attending.mild (act : Attending permits place m m') :
    ReflTransGen (RxMild permits place) m m' := by
  cases act with
  | submit packet =>
    unfold Machine.submit
    split
    · exact .refl
    · have entered : RxMild permits place m (m.modifyTx fun r => r.accept packet) :=
        .apart (.elsewhere m _ m.arbiter m.stalled) (.of_journal_eq _ rfl)
      have noted (k : Machine) : k.KeepsCalm (k.record (.accepted packet)) :=
        .of_journal_add (Machine.journal_record _ _) rfl
      exact (ReflTransGen.single entered).tail (.apart (.note _ rfl) (noted _))
  | holding h => exact .single (.holding h)
  | arm d =>
    have armed : Working .irq False (fun _ _ => False) m (m.setArmed d true) :=
      m.working_setArmed d true
    exact RxMild.working (by decide) (fun _ _ none => none.elim) armed

/-- A request to the receive ring, or something mild between two of them. -/
inductive RxHandling (permits : Move → Prop) (place : Nat) : Machine → Machine → Prop
  /-- The ring is started, or that is refused. -/
  | start (m : Machine) : RxHandling permits place m m.startRx.2
  /-- The ring is cancelled. -/
  | cancel (m : Machine) : RxHandling permits place m m.cancelRx
  /-- The ring is served. -/
  | advance (m : Machine) {u : Upper} (h : u.Abides (RxMild permits place)) :
      RxHandling permits place m (m.advanceRx u).machine
  /-- Something mild happens. -/
  | mild {m m' : Machine} (h : RxMild permits place m m') : RxHandling permits place m m'

theorem RxHandling.call (h : RxHandling permits place m m') : RxCall permits place True m m' := by
  cases h with
  | start => exact .start m fun _ => trivial
  | cancel => exact .cancel m
  | advance abides =>
    exact .advance m (abides.mono fun _ _ act => .single act.meanwhile)
  | mild act => exact .meanwhile act.meanwhile

/-! ## A ring in use -/

/-- **A ring in use raises no alarm.** -/
theorem RxInUse.handling (used : RxInUse permits place size m) (h : RxHandling permits place m m') :
    RxInUse permits place size m' ∧ m.KeepsCalm m' := by
  refine ⟨used.call h.call, ?_⟩
  obtain ⟨n, r, q, bs, guard⟩ := used
  have here := guard.here True
  have w := RxMild.watch (T := (RxTerms.over place size permits).track True m) guard.pool
  cases h with
  | start =>
    obtain ⟨ds, course, -⟩ := w.startRx here trivial
    exact course.tells.enters
  | cancel =>
    obtain ⟨ds, course, -⟩ := w.cancelRx here trivial
    exact course.tells.enters
  | advance abides =>
    obtain ⟨ds, course⟩ := w.advanceRx here abides
    exact course.tells.enters
  | mild act => exact w.mild _ m m' ⟨rfl, rfl, rfl⟩ here act

/-! ## Buffers that are out -/

/-- The pool at a place knows of every buffer that the upper layer has, or that is on its way there. -/
structure Machine.Lends (place : Nat) (fresh : List ReturnHandle) (m : Machine) : Prop where
  /-- Nothing is out, or all that is out comes from the pool. -/
  pool : fresh ++ m.toScene.out = [] ∨
    ∃ q posted, m.poolAt? place = some q ∧ q.Ledger [] posted (fresh ++ m.toScene.out)
  /-- The frames that are held belong to it. -/
  frames : ∀ f, some f ∈ m.frames.toList → f.pool = place

namespace Machine.Lends

variable {fresh fresh' : List ReturnHandle} {w : ReturnHandle} {i : Nat} {f : Frame}

/-- Neither the pool nor what is out changes. -/
theorem congr (h : m.Lends place fresh) (pool : m'.poolAt? place = m.poolAt? place)
    (frames : m'.frames = m.frames) (handles : m'.handles = m.handles) : m'.Lends place fresh := by
  have out : m'.toScene.out = m.toScene.out := Scene.out_eq frames handles
  refine ⟨?_, ?_⟩
  · rw [out, pool]
    exact h.pool
  · rw [frames]
    exact h.frames

theorem record (h : m.Lends place fresh) (e : Event) : (m.record e).Lends place fresh :=
  h.congr (m.poolAt?_record e place) (by rw [toScene_record]) (by rw [toScene_record])

theorem give (h : m.Lends place fresh) (n : Notice) : (m.give n).Lends place fresh := by
  unfold Machine.give
  split
  · exact h.record _
  · exact h

theorem free (h : m.Lends place fresh) (a : BusAddress) : (m.free a).Lends place fresh := by
  have freed : Lends place fresh { m with memory := m.memory.free a } := h.congr rfl rfl rfl
  exact freed.record _

theorem turn (h : m.Lends place fresh) : m.turn.Lends place fresh := by
  obtain ⟨a, mem, j, scene⟩ := m.exists_toScene_turn
  exact h.congr (m.poolAt?_turn place) (by rw [scene]) (by rw [scene])

theorem write (h : m.Lends place fresh) (r : Register) (v : UInt32) :
    (m.write r v).Lends place fresh := by
  have written : (m.turn.setAdapter (m.turn.adapter.write r v)).Lends place fresh :=
    h.turn.congr rfl rfl rfl
  exact written.record _

theorem cancelRx (h : m.Lends place fresh) : m.cancelRx.Lends place fresh := by
  unfold Machine.cancelRx
  split
  · exact h
  · have entered : Lends place fresh
        ((m.write .rxDmaControl DmaControl.off).modifyRx fun r => r.enter .cancelled) :=
      (h.write .rxDmaControl DmaControl.off).congr rfl rfl rfl
    exact entered.give _

/-- Only the entries of the pools change. -/
theorem entries (h : m.Lends place fresh) (other : Nat) {f : PoolEntry → PoolEntry}
    (same : ∀ e, (f e).pool = e.pool) :
    Lends place fresh { m with pools := m.pools.modify other f } :=
  h.congr (m.poolAt?_entries same other place) rfl rfl

theorem reapPool (h : m.Lends place fresh) (other : Nat) : (m.reapPool other).Lends place fresh :=
  keeps_reapPool (fun _ n h => h.give n) (fun _ a h => h.free a)
    (fun _ other h => h.entries other fun _ => rfl) h other

theorem dropPool (h : m.Lends place fresh) (other : Nat) : (m.dropPool other).Lends place fresh :=
  keeps_dropPool (fun _ n h => h.give n) (fun _ a h => h.free a)
    (fun _ other h => h.entries other fun _ => rfl) (fun _ other h => h.entries other fun _ => rfl)
    h other

theorem dropRings (h : m.Lends place fresh) : m.dropRings.Lends place fresh :=
  keeps_dropRings (fun _ n h => h.give n) (fun _ a h => h.free a)
    (fun _ other h => h.entries other fun _ => rfl) (h.congr rfl rfl rfl)

/-! ### Frames and handles -/

/-- The same handles are out in another arrangement. -/
theorem regroup (h : m.Lends place fresh) (frames : Array (Option Frame))
    (handles : Array ReturnHandle) (mine : ∀ f, some f ∈ frames.toList → f.pool = place)
    (same : fresh ++ m.toScene.out ~
      fresh' ++ Scene.out { m.toScene with frames := frames, handles := handles }) :
    Lends place fresh' { m with frames := frames, handles := handles } := by
  refine ⟨h.pool.imp (fun none => ?_) ?_, mine⟩
  · rw [none] at same
    exact same.nil_eq.symm
  · rintro ⟨q, posted, pool, ledger⟩
    exact ⟨q, posted, pool, ledger.perm (.refl _) (.refl _) same⟩

/-- **A handle that is on its way is honoured.** -/
theorem release (h : m.Lends place (w :: fresh)) :
    ∃ q, m.release place w = (.ok (), m.setPool place q) ∧ (m.setPool place q).Lends place fresh := by
  obtain ⟨q, posted, pool, ledger⟩ := h.pool.resolve_left (cons_ne_nil _ _)
  refine ⟨_, release_eq pool ledger.honours, ?_, h.frames⟩
  exact .inr ⟨_, posted, poolAt?_setPool pool, ledger.release⟩

/-- A frame that was held comes out of its place. -/
theorem removeFrame (h : m.Lends place fresh) (shown : m.frameAt? i = some f) :
    f.pool = place ∧ (m.removeFrame i).Lends place (f.handle :: fresh) := by
  refine ⟨h.frames f (mem_of_getElem? (getElem?_of_frameAt? shown)),
    h.regroup _ m.handles (fun f' hf' => h.frames f' (mem_frames_removeFrame hf')) ?_⟩
  exact ((perm_out_removeFrame shown).append_left _).trans perm_middle

/-- A handle is used up. -/
theorem eraseHandle (h : m.Lends place fresh) (unused : m.handles[i]? = some w) :
    Lends place (w :: fresh) { m with handles := m.handles.eraseIdxIfInBounds i } := by
  refine h.regroup m.frames _ h.frames ?_
  exact ((perm_out_erase unused).append_left _).trans perm_middle

/-- **A frame can be dropped.** -/
theorem dropFrame (h : m.Lends place (f.handle :: fresh)) (pool : f.pool = place) :
    m.KeepsCalm (m.dropFrame f) ∧ (m.dropFrame f).Lends place fresh := by
  obtain ⟨q, released, h'⟩ := h.release
  have moved : m.KeepsCalm (m.setPool place q) := .of_journal_eq _ rfl
  rw [Machine.dropFrame, pool, released]
  exact ⟨moved.trans (keepsCalm_reapPool _ place), h'.reapPool place⟩

theorem detachFrame (h : m.Lends place (f.handle :: fresh)) :
    m.KeepsCalm (m.detachFrame f) ∧ (m.detachFrame f).Lends place fresh := by
  have h' := h.reapPool f.pool
  unfold Machine.detachFrame
  refine ⟨(m.keepsCalm_reapPool f.pool).trans (.of_journal_eq _ rfl), h'.regroup _ _ h'.frames ?_⟩
  exact perm_middle.symm.trans ((Scene.perm_out_push _ f.handle).append_left _)

theorem releaseHandle (h : m.Lends place fresh) (unused : m.handles[i]? = some w) :
    ∃ q, m.release place w = (.ok (), m.setPool place q) ∧
      Lends place fresh
        { m.setPool place q with handles := m.handles.eraseIdxIfInBounds i } := by
  have given := h.eraseHandle unused
  obtain ⟨q, posted, pool, ledger⟩ := given.pool.resolve_left (cons_ne_nil _ _)
  refine ⟨_, release_eq (m := m) pool ledger.honours, ?_, h.frames⟩
  exact .inr ⟨_, posted, poolAt?_setPool pool, ledger.release⟩

/-! ### Whatever happens -/

/-- **The upper layer gives back what it has**, and no alarm is raised. -/
theorem holding (h : m.Lends place fresh) (act : Holding permits place m m') :
    m.KeepsCalm m' ∧ m'.Lends place fresh := by
  cases act with
  | @drop i f shown =>
    have taken : m.KeepsCalm (m.removeFrame i) := .of_journal_eq _ rfl
    obtain ⟨pool, h'⟩ := h.removeFrame shown
    obtain ⟨calm, h''⟩ := h'.dropFrame pool
    exact ⟨taken.trans calm, h''⟩
  | @detach i f shown =>
    have taken : m.KeepsCalm (m.removeFrame i) := .of_journal_eq _ rfl
    obtain ⟨calm, h''⟩ := (h.removeFrame shown).2.detachFrame
    exact ⟨taken.trans calm, h''⟩
  | release unused =>
    obtain ⟨q, released, h'⟩ := h.releaseHandle unused
    rw [released]
    exact ⟨.of_journal_eq _ rfl, h'⟩
  | reply o => exact ⟨.of_journal_add (journal_record _ _) rfl, h.record _⟩
  | move =>
    have moved (mv : Move) : Lends place fresh
        { m with memory := m.adapter.store mv m.memory, adapter := m.adapter.move mv } :=
      h.congr rfl rfl rfl
    exact ⟨.move (fun _ => rfl) m _, (moved _).record _⟩

theorem meanwhile (h : m.Lends place fresh) (act : RxMeanwhile permits place m m') :
    m'.Lends place fresh := by
  cases act with
  | holding act => exact (h.holding act).2
  | turn => exact h.turn
  | plan => exact h.congr rfl rfl rfl
  | note => exact h.record _
  | write v _ =>
    have written (reg : Register) : Lends place fresh (m.setAdapter (m.adapter.write reg v)) :=
      h.congr rfl rfl rfl
    exact (written _).record _
  | writeTx slot d =>
    have written : Lends place fresh (m.setAdapter (m.adapter.writeTx slot d)) := h.congr rfl rfl rfl
    exact written.record _
  | elsewhere => exact h.congr rfl rfl rfl

end Machine.Lends

theorem RxInUse.lends (used : RxInUse permits place size m) : m.Lends place [] := by
  obtain ⟨n, r, q, bs, guard⟩ := used
  exact ⟨.inr ⟨q, r.held, guard.pool, guard.between⟩, guard.frames⟩

/-! ## The receive side in order -/

/-- The receive side is in order: the ring is in use, or there is none, and what is out can come
back. -/
inductive RxInOrder (permits : Move → Prop) (place : Nat) (m : Machine) : Prop
  /-- The ring is in use. -/
  | used {size : RingSize} (h : RxInUse permits place size m)
  /-- There is no ring. -/
  | gone (none : m.rx = none) (h : m.Lends place [])

namespace RxInOrder

theorem lends (h : RxInOrder permits place m) : m.Lends place [] := by
  cases h with
  | used used => exact used.lends
  | gone _ h => exact h

/-- **Whatever is done to the receive side, it stays in order, and no alarm is raised.** -/
theorem handling (h : RxInOrder permits place m) (act : RxHandling permits place m m') :
    RxInOrder permits place m' ∧ m.KeepsCalm m' := by
  cases h with
  | used used =>
    obtain ⟨used', calm⟩ := used.handling act
    exact ⟨.used used', calm⟩
  | gone none lends =>
    cases act with
    | start =>
      have idle : m.startRx = (.ok (), m) := by
        unfold Machine.startRx
        rw [none]
        rfl
      rw [idle]
      exact ⟨.gone none lends, .refl _ m⟩
    | cancel => exact ⟨.gone (Machine.rx_cancelRx_of_none none) lends.cancelRx, m.keepsCalm_cancelRx⟩
    | advance =>
      have idle (u : Upper) : (m.advanceRx u).machine = m := by
        unfold Machine.advanceRx
        rw [none]
        rfl
      rw [idle]
      exact ⟨.gone none lends, .refl _ m⟩
    | mild act =>
      cases act with
      | holding act =>
        obtain ⟨calm, lends'⟩ := lends.holding act
        exact ⟨.gone (act.spared.rx.trans none) lends', calm⟩
      | apart act calm => exact ⟨.gone (act.spared.rx.trans none) (lends.meanwhile act), calm⟩

/-- So it is with any number of acts. -/
theorem run (h : RxInOrder permits place m)
    (acts : ReflTransGen (RxHandling permits place) m m') :
    RxInOrder permits place m' ∧ m.KeepsCalm m' := by
  induction acts with
  | refl => exact ⟨h, .refl _ m⟩
  | tail _ act ih =>
    obtain ⟨inOrder, calm⟩ := ih.1.handling act
    exact ⟨inOrder, ih.2.trans calm⟩

/-- Another part is at work, and the upper layer does what it may do in callbacks. -/
theorem working (h : RxInOrder permits place m) (other : p ≠ .rx)
    (run : Working p shifts (Attending permits place) m m') :
    RxInOrder permits place m' ∧ m.KeepsCalm m' :=
  h.run ((RxMild.working other (fun _ _ act => act.mild) run).lift id fun _ _ => .mild)

theorem dropPool (h : RxInOrder permits place m) (other : Nat) :
    RxInOrder permits place (m.dropPool other) := by
  cases h with
  | used used => exact .used (used.dropPool other)
  | gone none lends =>
    have act : Leaving permits place m (m.dropPool other) := .dropPool m other
    exact .gone (act.rx_eq.trans none) (lends.dropPool other)

/-- **The ring may go at any time.** -/
theorem dropRings (h : RxInOrder permits place m) : RxInOrder permits place m.dropRings :=
  .gone m.rx_dropRings h.lends.dropRings

end RxInOrder

end DescriptorRings
