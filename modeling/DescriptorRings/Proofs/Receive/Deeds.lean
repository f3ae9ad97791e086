import DescriptorRings.Proofs.Engine.Intake

/-!
# What is done to a receive ring

A receive ring changes in few ways: a buffer is posted, the oldest slot is passed and its completion
shown or dropped, what is posted is taken back, the ring is put where the adapter stands.  Such a
change is a *deed* (`RxDeed`).  A deed says what becomes of the ring, of the buffers that it holds and
of the pool, and which events it enters that concern the ring (`Event.isRxOwn`).

Whatever happens to a machine is a list of deeds, with other things in between that leave the ring
alone (`RxCourse`).  The accounts of the ring are sums over that list (`RxAccounts`): each entry in
them is made by one kind of deed.  So to know what a request does to the accounts it is enough to know
its deeds, and those are in `Proofs.Receive.Dealings`.
-/

namespace DescriptorRings

open Relation List

/-! ## Events -/

namespace Event

/-- Whether an event concerns the receive ring: a buffer is posted, a completion read, a frame shown,
the doorbell rung, or the direction switched on. -/
def isRxOwn (e : Event) : Bool := e.isIntake || !e.isRxHushed

/-- Whether a notice of the gravest level was given. -/
def isAlarm : Event → Bool
  | .noticed n => n.level == .error
  | _ => false

/-- Whether a buffer was posted. -/
def isRxPost : Event → Bool
  | .wroteRx _ _ _ => true
  | _ => false

theorem frame?_of_not_own {e : Event} (h : e.isRxOwn = false) : e.frame? = none := by
  cases e <;> first | rfl | exact absurd h.symm Bool.false_ne_true

theorem taken?_of_not_own {e : Event} (h : e.isRxOwn = false) : e.taken? = none := by
  cases e <;> first | rfl | exact absurd h.symm Bool.false_ne_true

theorem isRxPost_of_not_own {e : Event} (h : e.isRxOwn = false) : e.isRxPost = false := by
  cases e <;> first | rfl | exact absurd h.symm Bool.false_ne_true

end Event

/-- Between two machines some events were entered, all of a kind; those that concern the receive ring
are `own`. -/
structure Machine.Tells (Q : Event → Prop) (own : List Event) (m m' : Machine) : Prop where
  /-- The level of detail stays. -/
  detail : m'.journal.detail = m.journal.detail
  /-- What came at the end. -/
  events : m.journal.detail = .complete →
    ∃ es, m'.journal.events.toList = m.journal.events.toList ++ es ∧ (∀ e ∈ es, Q e) ∧
      es.filter Event.isRxOwn = own

namespace Machine.Tells

variable {Q : Event → Prop} {own own' : List Event} {m m' m'' : Machine}

theorem refl (Q : Event → Prop) (m : Machine) : Tells Q [] m m :=
  ⟨rfl, fun _ => ⟨[], (append_nil _).symm, fun _ he => absurd he not_mem_nil, rfl⟩⟩

theorem trans (h : Tells Q own m m') (h' : Tells Q own' m' m'') :
    Tells Q (own ++ own') m m'' := by
  refine ⟨h'.detail.trans h.detail, fun complete => ?_⟩
  obtain ⟨es, hes, first, mine⟩ := h.events complete
  obtain ⟨es', hes', second, mine'⟩ := h'.events (h.detail.trans complete)
  refine ⟨es ++ es', by rw [hes', hes, append_assoc], fun e he => ?_, ?_⟩
  · exact (mem_append.mp he).elim (first e) (second e)
  · rw [filter_append, mine, mine']

/-- Something else was entered. -/
theorem of_enters (h : m.Enters (fun e => Q e ∧ e.isRxOwn = false) m') : Tells Q [] m m' := by
  refine ⟨h.detail, fun complete => ?_⟩
  obtain ⟨es, hes, all⟩ := h.events complete
  refine ⟨es, hes, fun e he => (all e he).1, filter_eq_nil_iff.mpr fun e he => ?_⟩
  rw [(all e he).2]
  exact Bool.false_ne_true

theorem of_journal_eq (Q : Event → Prop) (h : m'.journal = m.journal) : Tells Q [] m m' :=
  of_enters (.of_journal_eq _ h)

/-- One event was entered. -/
theorem of_journal_add {e : Event} (h : m'.journal = m.journal.add e) (he : Q e) :
    Tells Q ([e].filter Event.isRxOwn) m m' := by
  refine ⟨by rw [h, Journal.detail_add], fun complete => ⟨[e], ?_, fun e' he' => ?_, rfl⟩⟩
  · rw [h, Journal.toList_events_add complete]
  · rw [mem_singleton.mp he']
    exact he

theorem enters (h : Tells Q own m m') : m.Enters Q m' := by
  refine ⟨h.detail, fun complete => ?_⟩
  obtain ⟨es, hes, all, -⟩ := h.events complete
  exact ⟨es, hes, all⟩

/-- A change that enters nothing may come after. -/
theorem quiet (h : Tells Q own m m') (same : m''.journal = m'.journal) : Tells Q own m m'' := by
  have both := h.trans (of_journal_eq Q same)
  rwa [append_nil] at both

/-- It may also come before. -/
theorem after (h : Tells Q own m' m'') (same : m'.journal = m.journal) : Tells Q own m m'' :=
  (of_journal_eq Q same).trans h

/-- **What is looked for among the events of the ring** is found in the list of them. -/
theorem filterMap_eq {α : Type} {f : Event → Option α}
    (unseen : ∀ e, e.isRxOwn = false → f e = none) (es : List Event) :
    es.filterMap f = (es.filter Event.isRxOwn).filterMap f := by
  rw [filterMap_filter]
  refine filterMap_congr fun e _ => ?_
  cases here : e.isRxOwn with
  | true => rfl
  | false => exact unseen e here

theorem countP_eq {f : Event → Bool} (unseen : ∀ e, e.isRxOwn = false → f e = false)
    (es : List Event) : es.countP f = (es.filter Event.isRxOwn).countP f := by
  rw [countP_filter]
  refine countP_congr fun e _ => ?_
  cases here : e.isRxOwn with
  | true => simp
  | false => simp [unseen e here]

end Machine.Tells

/-! ## Deeds -/

/-- What is done to a receive ring at once. -/
inductive RxDeed where
  /-- A buffer is posted. -/
  | post (slot : Nat) (b : BufferId) (address : BusAddress) (capacity : UInt32)
  /-- A slot is passed, and its completion is no frame. -/
  | lose (slot : Nat) (b : BufferId) (c : Completion)
  /-- A slot is passed, and its frame is shown. -/
  | deliver (slot : Nat) (b : BufferId) (c : Completion) (f : Frame) (bytes : List UInt8)
  /-- So many posted buffers are taken back. -/
  | clear (count : Nat)
  /-- The empty ring is put where the adapter stands. -/
  | resync (c : Counter)
  /-- The ring enters a phase. -/
  | enter (phase : Phase)
  /-- A reading is not believed. -/
  | doubt (c : Counter)
  /-- There is no buffer to post. -/
  | defer
  /-- The doorbell is rung. -/
  | ring (c : Counter)
  /-- The direction is switched on. -/
  | enable

namespace RxDeed

/-- What becomes of the ring. -/
def apply (r : RxRing) : RxDeed → RxRing
  | .post _ b _ _ => r.post b
  | .lose _ _ _ => r.pass.noteFramingError
  | .deliver _ _ _ f _ => r.pass.noteDelivery f.length
  | .clear _ => r.clear
  | .resync c => r.resync c
  | .enter phase => r.enter phase
  | .doubt c => r.noteReading c
  | .defer => r.noteDeferral
  | .ring _ | .enable => r

/-- What becomes of the buffers that it holds. -/
def left (bs : List BufferId) : RxDeed → List BufferId
  | .post _ b _ _ => bs ++ [b]
  | .lose _ _ _ | .deliver _ _ _ _ _ => bs.tail
  | .clear _ => []
  | _ => bs

/-- The events of the ring. -/
def events : RxDeed → List Event
  | .post slot _ address capacity => [.wroteRx slot address capacity]
  | .lose slot _ c => [.readCompletion slot c]
  | .deliver slot _ c f bytes => [.readCompletion slot c, .delivered f bytes]
  | .ring c => [.wrote .rxProducer c.toUInt32]
  | .enable => [.wrote .rxDmaControl DmaControl.enable]
  | _ => []

/-- Whether a buffer is posted. -/
def isPost : RxDeed → Bool
  | .post _ _ _ _ => true
  | _ => false

/-- Whether a slot is passed, and its completion dropped. -/
def isLoss : RxDeed → Bool
  | .lose _ _ _ => true
  | _ => false

/-- Whether the ring is put somewhere else. -/
def isResync : RxDeed → Bool
  | .resync _ => true
  | _ => false

/-- Whether a reading is not believed. -/
def isDoubt : RxDeed → Bool
  | .doubt _ => true
  | _ => false

/-- The frame that is shown. -/
def frame? : RxDeed → Option Frame
  | .deliver _ _ _ f _ => some f
  | _ => none

/-- How many buffers are taken back. -/
def cleared : RxDeed → Nat
  | .clear count => count
  | _ => 0

/-- Whether it is done to fill the ring up. -/
def fills : RxDeed → Bool
  | .post _ _ _ _ | .defer => true
  | _ => false

/-- Whether it is done in a service, before the doorbell is rung. -/
def serves : RxDeed → Bool
  | .post _ _ _ _ | .lose _ _ _ | .deliver _ _ _ _ _ | .doubt _ | .defer => true
  | _ => false

theorem serves_of_fills {d : RxDeed} (h : d.fills = true) : d.serves = true := by
  cases d <;> first | rfl | exact absurd h Bool.false_ne_true

/-- **What a deed takes**, of a ring that holds `bs` over a pool, and what becomes of the pool. -/
inductive Fits (r : RxRing) (bs : List BufferId) (p : BufferPool) : RxDeed → BufferPool → Prop
  /-- There is room for an acquired buffer.  All of it is offered to the adapter. -/
  | post {b : BufferId} (room : bs.length < r.capacity) :
      Fits r bs p (.post r.tailSlot b (p.base b) (UInt32.ofNat p.bufferSize)) (p.move b .posted)
  /-- The oldest buffer goes back to the pool. -/
  | lose {b : BufferId} {rest : List BufferId} {c : Completion} (oldest : bs = b :: rest)
      (posted : p.stateOf? b = some .posted) (lost : r.deliverable p.bufferSize c = false) :
      Fits r bs p (.lose r.headSlot b c) (p.move b .free)
  /-- The oldest buffer is shown. -/
  | deliver {b : BufferId} {rest : List BufferId} {c : Completion} {f : Frame} (oldest : bs = b :: rest)
      (whole : r.deliverable p.bufferSize c = true) (shows : f.Shows r p b c) (bytes : List UInt8) :
      Fits r bs p (.deliver r.headSlot b c f bytes) (p.deliver b)
  /-- All buffers go back to the pool. -/
  | clear (p' : BufferPool) : Fits r bs p (.clear bs.length) p'
  /-- The ring is empty. -/
  | resync (c : Counter) (none : bs = []) : Fits r bs p (.resync c) p
  /-- Any phase may be entered. -/
  | enter (phase : Phase) : Fits r bs p (.enter phase) p
  /-- The reading lies outside the window. -/
  | doubt {c : Counter} (outside : r.believes c = false) : Fits r bs p (.doubt c) p
  /-- No buffer is free. -/
  | defer (none : p.free = []) : Fits r bs p .defer p
  /-- The doorbell says how far the ring is filled. -/
  | ring : Fits r bs p (.ring r.producer) p
  /-- The ring is running. -/
  | enable : Fits r bs p .enable p

variable {r : RxRing} {bs : List BufferId} {p p' : BufferPool} {d : RxDeed}

/-- A deed leaves a ring that holds what is left. -/
theorem Fits.holds (fits : d.Fits r bs p p') (holds : r.Holds bs) :
    (d.apply r).Holds (d.left bs) := by
  have passed {b : BufferId} {rest : List BufferId} (oldest : bs = b :: rest) :
      r.pass.Holds bs.tail := by
    subst oldest
    exact holds.pass
  cases fits with
  | post room => exact holds.post room _
  | lose oldest => exact (passed oldest).congr rfl rfl rfl rfl
  | deliver oldest => exact (passed oldest).congr rfl rfl rfl rfl
  | clear => exact holds.clear
  | resync c none =>
    subst none
    exact holds.resync c
  | enter | defer => exact holds.congr rfl rfl rfl rfl
  | doubt =>
    show (r.noteReading _).Holds bs
    unfold RxRing.noteReading
    split
    · exact holds
    · exact holds.congr rfl rfl rfl rfl
  | ring | enable => exact holds

/-- What no deed changes. -/
theorem apply_fixed (d : RxDeed) (r : RxRing) :
    (d.apply r).pool = r.pool ∧ (d.apply r).size = r.size ∧ (d.apply r).pad = r.pad := by
  cases d with
  | doubt =>
    show (r.noteReading _).pool = _ ∧ (r.noteReading _).size = _ ∧ (r.noteReading _).pad = _
    unfold RxRing.noteReading
    split <;> exact ⟨rfl, rfl, rfl⟩
  | _ => exact ⟨rfl, rfl, rfl⟩

end RxDeed

/-! ## Accounts -/

/-- **How the accounts of a ring grow** by some deeds, from a ring `r` with `n` posted buffers to a ring
`r'` with `n'` of them. -/
structure RxAccounts (ds : List RxDeed) (r : RxRing) (n : Nat) (r' : RxRing) (n' : Nat) : Prop where
  /-- Each frame that is shown is counted. -/
  delivered : r'.stats.delivered = r.stats.delivered + (ds.filterMap RxDeed.frame?).length
  /-- So are its bytes. -/
  bytes : r'.stats.bytes = r.stats.bytes + ((ds.filterMap RxDeed.frame?).map Frame.length).sum
  /-- Each completion that is dropped is counted. -/
  framingErrors : r'.stats.framingErrors = r.stats.framingErrors + ds.countP RxDeed.isLoss
  /-- Each buffer that is taken back without a completion is counted. -/
  discarded : r'.stats.discarded = r.stats.discarded + (ds.map RxDeed.cleared).sum
  /-- Each reading that is not believed is counted. -/
  badConsumer : r'.stats.badConsumer = r.stats.badConsumer + ds.countP RxDeed.isDoubt
  /-- **A buffer that was posted is posted still**, or it was shown, dropped or taken back. -/
  posted : n' + (ds.filterMap RxDeed.frame?).length + ds.countP RxDeed.isLoss +
    (ds.map RxDeed.cleared).sum = n + ds.countP RxDeed.isPost
  /-- The consumer counter moves on by one for each completion, unless the ring is put elsewhere. -/
  consumer : ds.countP RxDeed.isResync = 0 → r'.consumer =
    r.consumer.advance ((ds.filterMap RxDeed.frame?).length + ds.countP RxDeed.isLoss)

namespace RxAccounts

variable {ds ds' : List RxDeed} {r r' r'' : RxRing} {n n' n'' : Nat} {bs : List BufferId}
  {p p' : BufferPool} {d : RxDeed}

theorem nil (r : RxRing) (n : Nat) : RxAccounts [] r n r n :=
  ⟨rfl, rfl, rfl, rfl, rfl, rfl, fun _ => (Counter.advance_zero _).symm⟩

theorem trans (h : RxAccounts ds r n r' n') (h' : RxAccounts ds' r' n' r'' n'') :
    RxAccounts (ds ++ ds') r n r'' n'' := by
  have posted := h.posted
  have posted' := h'.posted
  constructor
  · rw [h'.delivered, h.delivered, filterMap_append, length_append, Nat.add_assoc]
  · rw [h'.bytes, h.bytes, filterMap_append, map_append, sum_append, Nat.add_assoc]
  · rw [h'.framingErrors, h.framingErrors, countP_append, Nat.add_assoc]
  · rw [h'.discarded, h.discarded, map_append, sum_append, Nat.add_assoc]
  · rw [h'.badConsumer, h.badConsumer, countP_append, Nat.add_assoc]
  · rw [filterMap_append, length_append, countP_append, countP_append, map_append, sum_append]
    omega
  · intro put
    rw [countP_append] at put
    rw [h'.consumer (by omega), h.consumer (by omega), Counter.advance_advance, filterMap_append,
      length_append, countP_append]
    exact congrArg _ (by omega)

/-- **One deed is in one account**, and in no other. -/
theorem deed (holds : r.Holds bs) (fits : d.Fits r bs p p') :
    RxAccounts [d] r bs.length (d.apply r) (d.left bs).length := by
  have still (r : RxRing) : r.consumer = r.consumer.advance 0 := (Counter.advance_zero _).symm
  cases fits with
  | post => exact ⟨rfl, rfl, rfl, rfl, rfl, length_append, fun _ => still r⟩
  | lose oldest | deliver oldest =>
    subst oldest
    exact ⟨rfl, rfl, rfl, rfl, rfl, rfl, fun _ => rfl⟩
  | clear =>
    have held : r.held.length = bs.length := holds.held.length_eq
    refine ⟨rfl, rfl, rfl, congrArg (r.stats.discarded + ·) held, rfl, ?_, fun _ => still r⟩
    exact Nat.zero_add bs.length
  | doubt outside =>
    have noted : r.noteReading _ = _ := if_neg (Bool.eq_false_iff.mp outside)
    show RxAccounts _ r bs.length (r.noteReading _) bs.length
    rw [noted]
    exact ⟨rfl, rfl, rfl, rfl, rfl, rfl, fun _ => still r⟩
  | resync => exact ⟨rfl, rfl, rfl, rfl, rfl, rfl, fun put => absurd put Nat.one_ne_zero⟩
  | enter | defer | ring | enable =>
    exact ⟨rfl, rfl, rfl, rfl, rfl, rfl, fun _ => still r⟩

end RxAccounts

/-! ## Courses -/

section

variable (Q : Event → Prop) (home : BufferPool) (place : Nat)

/-- A deed is done to the receive ring of a machine.  Its pool is still what `home` was, but for the
states of the buffers. -/
structure RxDone (d : RxDeed) (m m' : Machine) : Prop where
  /-- It was possible. -/
  done : ∃ r bs p p', m.rx = some r ∧ r.Holds bs ∧ m.poolAt? place = some p ∧ home.Kept p ∧
    d.Fits r bs p p' ∧ m'.rx = some (d.apply r) ∧ m'.poolAt? place = some p'
  /-- These are its events. -/
  tells : m.Tells Q d.events m'

/-- Something happens that leaves the receive ring alone. -/
structure RxRests (m m' : Machine) : Prop where
  /-- The ring is left alone. -/
  rx : m'.rx = m.rx
  /-- There is no event of the ring. -/
  tells : m.Tells Q [] m'

/-- **What happens to a receive ring**: some deeds, one after the other, and other things in between.
-/
inductive RxCourse : List RxDeed → Machine → Machine → Prop
  /-- Nothing at all. -/
  | refl (m : Machine) : RxCourse [] m m
  /-- Something that leaves the ring alone. -/
  | rest {ds : List RxDeed} {m k m' : Machine} (before : RxCourse ds m k) (rests : RxRests Q k m') :
      RxCourse ds m m'
  /-- A deed. -/
  | deed {ds : List RxDeed} {d : RxDeed} {m k m' : Machine} (before : RxCourse ds m k)
      (done : RxDone Q home place d k m') : RxCourse (ds ++ [d]) m m'

end

variable {Q : Event → Prop} {home : BufferPool} {place : Nat} {m m' m'' : Machine} {d : RxDeed}
  {ds ds' : List RxDeed}

namespace RxRests

theorem of_enters (rx : m'.rx = m.rx) (entered : m.Enters (fun e => Q e ∧ e.isRxOwn = false) m') :
    RxRests Q m m' := ⟨rx, .of_enters entered⟩

theorem of_journal_eq (rx : m'.rx = m.rx) (journal : m'.journal = m.journal) : RxRests Q m m' :=
  ⟨rx, .of_journal_eq Q journal⟩

theorem refl (m : Machine) : RxRests Q m m := of_journal_eq rfl rfl

theorem trans (h : RxRests Q m m') (h' : RxRests Q m' m'') : RxRests Q m m'' :=
  ⟨h'.rx.trans h.rx, h.tells.trans h'.tells⟩

end RxRests

namespace RxCourse

theorem of_rests (rests : RxRests Q m m') : RxCourse Q home place [] m m' := (refl m).rest rests

theorem of_done (done : RxDone Q home place d m m') : RxCourse Q home place [d] m m' :=
  (refl m).deed done

theorem trans (h : RxCourse Q home place ds m m') (h' : RxCourse Q home place ds' m' m'') :
    RxCourse Q home place (ds ++ ds') m m'' := by
  induction h' with
  | refl => rwa [append_nil]
  | rest _ rests ih => exact (ih h).rest rests
  | deed _ done ih =>
    rw [← append_assoc]
    exact (ih h).deed done

/-- **The accounts are kept.** -/
theorem accounts (h : RxCourse Q home place ds m m') {r : RxRing} {bs : List BufferId}
    (rx : m.rx = some r) (holds : r.Holds bs) :
    ∃ r' bs', m'.rx = some r' ∧ r'.Holds bs' ∧ RxAccounts ds r bs.length r' bs'.length ∧
      r'.pool = r.pool ∧ r'.size = r.size ∧ r'.pad = r.pad := by
  induction h with
  | refl => exact ⟨r, bs, rx, holds, .nil r _, rfl, rfl, rfl⟩
  | rest _ rests ih =>
    obtain ⟨r', bs', rx', rest⟩ := ih rx
    exact ⟨r', bs', rests.rx.trans rx', rest⟩
  | @deed _ d _ _ _ _ done ih =>
    obtain ⟨r₁, bs₁, rx₁, holds₁, accounts, pool, size, pad⟩ := ih rx
    obtain ⟨q, bs', p, p', rx', holds', -, -, fits, rx₂, -⟩ := done.done
    obtain rfl : q = r₁ := Option.some.inj (rx'.symm.trans rx₁)
    have same : bs'.length = bs₁.length := by rw [← holds'.posted_eq, holds₁.posted_eq]
    obtain ⟨pool', size', pad'⟩ := d.apply_fixed q
    refine ⟨_, _, rx₂, fits.holds holds', accounts.trans ?_, pool'.trans pool, size'.trans size,
      pad'.trans pad⟩
    rw [← same]
    exact .deed holds' fits

/-- **The events of the ring are those of its deeds.** -/
theorem tells (h : RxCourse Q home place ds m m') : m.Tells Q (ds.flatMap RxDeed.events) m' := by
  induction h with
  | refl => exact .refl Q _
  | rest _ rests ih =>
    have both := ih.trans rests.tells
    rwa [append_nil] at both
  | deed _ done ih =>
    rw [flatMap_append, flatMap_singleton]
    exact ih.trans done.tells

/-- What holds of every deed that can be done holds of all. -/
theorem forall_mem (h : RxCourse Q home place ds m m') {P : RxDeed → Prop}
    (each : ∀ d r bs p p', home.Kept p → d.Fits r bs p p' → P d) : ∀ d ∈ ds, P d := by
  induction h with
  | refl => exact fun d hd => absurd hd not_mem_nil
  | rest _ _ ih => exact ih
  | deed _ done ih =>
    obtain ⟨r, bs, p, p', -, -, -, kept, fits, -⟩ := done.done
    intro d hd
    rcases mem_append.mp hd with hd | hd
    · exact ih d hd
    · rw [mem_singleton.mp hd]
      exact each _ r bs p p' kept fits

end RxCourse

/-! ## What is found among the events -/

/-- The frames that are shown are those of the deeds. -/
theorem RxDeed.filterMap_frame? (ds : List RxDeed) :
    (ds.flatMap events).filterMap Event.frame? = ds.filterMap frame? := by
  induction ds with
  | nil => rfl
  | cons d ds ih =>
    rw [flatMap_cons, filterMap_append, ih]
    cases d <;> rfl

/-- Each completion that is read comes to a frame or to a loss. -/
theorem RxDeed.length_taken? (ds : List RxDeed) :
    ((ds.flatMap events).filterMap Event.taken?).length =
      (ds.filterMap frame?).length + ds.countP isLoss := by
  induction ds with
  | nil => rfl
  | cons d ds ih =>
    have first : (d.events.filterMap Event.taken?).length =
        ([d].filterMap frame?).length + [d].countP isLoss := by
      cases d <;> rfl
    show ((d.events ++ ds.flatMap events).filterMap Event.taken?).length =
      (([d] ++ ds).filterMap frame?).length + ([d] ++ ds).countP isLoss
    rw [filterMap_append, length_append, ih, first, filterMap_append, length_append, countP_append]
    omega

/-- The buffers that are posted are those of the deeds. -/
theorem RxDeed.countP_isRxPost (ds : List RxDeed) :
    (ds.flatMap events).countP Event.isRxPost = ds.countP isPost := by
  induction ds with
  | nil => rfl
  | cons d ds ih =>
    rw [flatMap_cons, countP_append, ih, countP_cons, Nat.add_comm]
    cases d <;> rfl

end DescriptorRings
