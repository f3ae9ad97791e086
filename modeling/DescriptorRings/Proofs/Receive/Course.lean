import DescriptorRings.Proofs.Receive.Guard

/-!
# The course of a receive request

A request to a receive ring is a run of small steps, and `RxChange` lists all that a step can be.
The adapter makes a move; software reads or writes a register or a descriptor; the window of the
ring loses a buffer in front or gains one at the end; a completion is taken in.  Whatever software
does besides concerns neither the adapter nor the window, and is one kind of step (`RxAside`).

The taking in of a completion is the one part in which the order matters:

    nothing ─pass─▶ passed ─take─▶ read ─deliver─▶ shown ─settle, hold─▶ nothing
                                     └──reject─────────────────────────────▲

The adapter may have its turn after each of these.  Between `read` and `shown` nobody but the driver
has the buffer, and there is nothing that tells it apart from one that is free to be overwritten but
the ledger of the pool.  So a step is taken from one machine that keeps the guard to another one
that does (`RxStep`), and a fact about what a step can do to the buffers may use both guards.

`RxAt` is the guard of a machine along with the run that led to it.  The lemmas about the actions of
the driver are about `RxAt`; so a request that was shown to keep the guard was at the same time cut
into steps, and what each step keeps, the request keeps.  What is claimed of every moment is the
first thing to be got in this way (`RxStep.past`).
-/

namespace DescriptorRings

open Relation List

/-! ## What a step can be -/

/-- Whether an event only says what was read, what is thought about it, or what other parts do. -/
def Event.isNote : Event → Bool
  | .read _ _ | .noticed _ | .accepted _ | .posting _ | .completed _ | .armed _ _ _ | .notified _ =>
    true
  | _ => false

theorem Event.ne_replied_of_isNote {e : Event} (h : e.isNote = true) (o : Outcome) :
    e ≠ .replied o := by
  rintro rfl
  exact Bool.false_ne_true h

/-- Two rings differ in their counts and their phase at most. -/
structure RxRing.Alike (r r' : RxRing) : Prop where
  /-- They draw from the same pool. -/
  pool : r'.pool = r.pool
  /-- They have the same size. -/
  size : r'.size = r.size
  /-- They leave the same space in front of a frame. -/
  pad : r'.pad = r.pad
  /-- They hold the same buffers. -/
  slots : r'.slots = r.slots
  /-- Their windows begin at the same counter. -/
  consumer : r'.consumer = r.consumer
  /-- They end at the same counter. -/
  producer : r'.producer = r.producer

theorem RxRing.Alike.refl (r : RxRing) : r.Alike r := ⟨rfl, rfl, rfl, rfl, rfl, rfl⟩

theorem Machine.getElem?_of_frameAt? {m : Machine} {i : Nat} {f : Frame}
    (held : m.frameAt? i = some f) : m.frames.toList[i]? = some (some f) := by
  rw [Array.getElem?_toList]
  rw [frameAt?, Array.getD_eq_getD_getElem?] at held
  cases hi : m.frames[i]? with
  | none => rw [hi] at held; exact absurd held.symm (Option.some_ne_none f)
  | some f' => rw [hi] at held; exact congrArg some held

/-- Software does something that concerns neither the adapter nor the window. -/
structure RxAside (place : Nat) (m : Machine) (r : RxRing) (p : BufferPool) (m' : Machine) :
    Prop where
  /-- The adapter is left alone. -/
  adapter : m'.adapter = m.adapter
  /-- So is the memory. -/
  memory : m'.memory = m.memory
  /-- There is no event. -/
  journal : m'.journal = m.journal
  /-- There is no moment to remember. -/
  moments : m'.moments = m.moments
  /-- The ring holds what it held. -/
  rx : ∃ r', m'.rx = some r' ∧ r.Alike r'
  /-- The buffers stay where they are, whoever has them. -/
  pool : ∃ p', m'.poolAt? place = some p' ∧ p.Kept p'
  /-- There are as many places for frames. -/
  places : m'.frames.size = m.frames.size
  /-- No frame is held that was not held before. -/
  frames : ∀ i f, m'.frameAt? i = some f → m.frameAt? i = some f

/-- A frame shows what arrived in a buffer. -/
structure Frame.Shows (f : Frame) (r : RxRing) (p : BufferPool) (b : BufferId) (c : Completion) :
    Prop where
  /-- Its handle gives the right to the buffer. -/
  buffer : f.handle.buffer = b
  /-- It lies in the buffer. -/
  address : f.address = p.base b
  /-- It begins behind the space that is left in front. -/
  pad : f.pad = r.pad
  /-- It ends where the adapter says. -/
  length : f.length = c.length.toNat - r.pad

/-- **What a step can be**, for a ring `r` over a pool `p`, whose slots hold `bs`.  Without
`switches` the direction is not switched on or off. -/
inductive RxChange (T : RxTerms) (switches : Prop) (g : Hands) (m : Machine) (r : RxRing)
    (p : BufferPool) (bs : List BufferId) : Taking → Taking → Machine → Prop
  /-- The adapter makes a move. -/
  | move (t : Taking) {mv : Move} (permitted : T.permits mv) :
      RxChange T switches g m r p bs t t (m.move mv)
  /-- Something is noted. -/
  | note (t : Taking) {e : Event} (note : e.isNote = true) :
      RxChange T switches g m r p bs t t (m.record e)
  /-- A request of the upper layer ends, and each buffer has one owner. -/
  | reply (t : Taking) (o : Outcome)
      (owner : Scene.RingOver (m.record (.replied o)).toScene T.place T.size.slots
        (OneOwner (m.record (.replied o)).toScene)) :
      RxChange T switches g m r p bs t t (m.record (.replied o))
  /-- A register is written that is none of this direction. -/
  | write (t : Taking) {reg : Register} (v : UInt32)
      (other : reg ∉ [Lane.rx.producer, Lane.rx.consumer, Lane.rx.control]) :
      RxChange T switches g m r p bs t t (m.poke reg v)
  /-- A transmit descriptor is written. -/
  | writeTx (t : Taking) (slot : Nat) (d : TxDescriptor) :
      RxChange T switches g m r p bs t t (m.pokeTx slot d)
  /-- The doorbell is rung. -/
  | ring (t : Taking) (v : UInt32) : RxChange T switches g m r p bs t t (m.poke .rxProducer v)
  /-- The direction is switched on or off. -/
  | switch (t : Taking) (v : UInt32) (allowed : switches) :
      RxChange T switches g m r p bs t t (m.poke .rxDmaControl v)
  /-- A buffer is written into the slot behind the window. -/
  | describe (b : BufferId) (capacity : UInt32) :
      RxChange T switches g m r p bs .nothing .nothing (m.pokeRx r.tailSlot (p.base b) capacity)
  /-- It joins the window. -/
  | post {b : BufferId} {p' : BufferPool} (kept : p.Kept p') (fits : bs.length < r.capacity) :
      RxChange T switches g m r p bs .nothing .nothing ((m.setPool T.place p').setRx (r.post b))
  /-- All buffers leave the window at once. -/
  | clear {p' : BufferPool} (kept : p.Kept p') (off : T.lawful → m.adapter.on .rx = false) :
      RxChange T switches g m r p bs .nothing .nothing ((m.setPool T.place p').setRx r.clear)
  /-- An empty window is put somewhere else. -/
  | resync (c : Counter) (off : T.lawful → m.adapter.on .rx = false) :
      RxChange T switches g m r p bs .nothing .nothing (m.setRx (r.resync c))
  /-- The oldest buffer leaves the window. -/
  | pass {b : BufferId} {rest : List BufferId} (oldest : bs = b :: rest) (due : 0 < g.due) :
      RxChange T switches g m r p bs .nothing (.passed r.headSlot b) (m.setRx r.pass)
  /-- Its completion is read. -/
  | take (slot : Nat) (b : BufferId) :
      RxChange T switches g m r p bs (.passed slot b) (.read b (m.adapter.completionAt slot))
        (m.record (.readCompletion slot (m.adapter.completionAt slot)))
  /-- It is no frame. -/
  | reject {b : BufferId} {c : Completion} (lost : r.deliverable p.bufferSize c = false) :
      RxChange T switches g m r p bs (.read b c) .nothing m
  /-- It is a frame, and is shown. -/
  | deliver {b : BufferId} {c : Completion} {f : Frame}
      (whole : r.deliverable p.bufferSize c = true) (shows : f.Shows r p b c)
      (inside : b.index < p.capacity) (apart : b ∉ bs) :
      RxChange T switches g m r p bs (.read b c) (.shown f)
        (m.record (.delivered f (f.bytes m.memory)))
  /-- The frame is not held. -/
  | settle (f : Frame) : RxChange T switches g m r p bs (.shown f) .nothing m
  /-- The frame is held. -/
  | hold (f : Frame) :
      RxChange T switches g m r p bs (.shown f) .nothing
        { m with frames := m.frames.push (some f) }
  /-- Something else happens. -/
  | aside (t : Taking) {m' : Machine} (aside : RxAside T.place m r p m') :
      RxChange T switches g m r p bs t t m'

/-- A step from one machine that keeps the guard to another one that does. -/
inductive RxStep (T : RxTerms) (switches : Prop) : Taking × Machine → Taking × Machine → Prop
  /-- The guard holds before and after a change. -/
  | intro {x x' : RxStage} {g g' : Hands} {m m' : Machine} {r r' : RxRing} {p p' : BufferPool}
      {bs bs' : List BufferId} {t t' : Taking} (source : RxGuard T x g m r p bs)
      (target : RxGuard T x' g' m' r' p' bs') (change : RxChange T switches g m r p bs t t' m') :
      RxStep T switches (t, m) (t', m')

/-- What a development is about, and the runs that it considers. -/
structure RxTrack extends RxTerms where
  /-- Whether the direction may be switched on and off. -/
  switches : Prop
  /-- Where the runs begin. -/
  origin : Taking × Machine

/-- The runs that begin at a machine, between two requests. -/
def RxTerms.track (T : RxTerms) (switches : Prop) (m : Machine) : RxTrack :=
  ⟨T, switches, (.nothing, m)⟩

/-- The guard of a machine, and the run that led to it. -/
structure RxAt (T : RxTrack) (x : RxStage) (g : Hands) (m : Machine) : Prop where
  /-- The guard holds. -/
  guarded : ∃ r p bs, RxGuard T.toRxTerms x g m r p bs
  /-- The machine is reached by steps. -/
  run : ReflTransGen (RxStep T.toRxTerms T.switches) T.origin (g.taking, m)

section

variable {T : RxTrack} {x y : RxStage} {g g' : Hands} {m m' : Machine} {r r' : RxRing}
  {p p' : BufferPool} {bs bs' : List BufferId}

/-- No step at all. -/
theorem RxGuard.here {T : RxTerms} {n : Nat} (h : RxGuard T x { filled := n } m r p bs)
    (switches : Prop) : RxAt (T.track switches m) x { filled := n } m :=
  ⟨⟨r, p, bs, h⟩, .refl⟩

/-- One step more. -/
theorem RxAt.reach (run : ReflTransGen (RxStep T.toRxTerms T.switches) T.origin (g.taking, m))
    (source : RxGuard T.toRxTerms x g m r p bs) (target : RxGuard T.toRxTerms y g' m' r' p' bs')
    (change : RxChange T.toRxTerms T.switches g m r p bs g.taking g'.taking m') :
    RxAt T y g' m' :=
  ⟨⟨r', p', bs', target⟩, run.tail (.intro source target change)⟩

end

section

variable {T : RxTerms} {x : RxStage} {g : Hands} {m m' : Machine} {r r' : RxRing}
  {p p' : BufferPool} {bs : List BufferId}

namespace RxGuard

/-- How far the taking in of a completion has got is of no concern to the guard. -/
theorem taking (h : RxGuard T x g m r p bs) (t : Taking) :
    RxGuard T x { g with taking := t } m r p bs where
  rx := h.rx
  pool := h.pool
  place := h.place
  size := h.size
  complete := h.complete
  planned := h.planned
  holds := h.holds
  filled := h.filled
  ledger := h.ledger
  frames := h.frames
  due := h.due
  table := h.table
  knows := h.knows
  window lawful on := by
    have window := h.window lawful on
    exact ⟨window.running, window.producer, window.within⟩

/-! ## Steps aside -/

theorem aside_ring (h : RxGuard T x g m r p bs) (alike : r.Alike r') :
    RxAside T.place m r p (m.setRx r') :=
  ⟨rfl, rfl, rfl, rfl, ⟨r', rfl, alike⟩, ⟨p, h.pool, .refl p⟩, rfl, fun _ _ held => held⟩

theorem aside_pool (h : RxGuard T x g m r p bs) (kept : p.Kept p') :
    RxAside T.place m r p (m.setPool T.place p') :=
  ⟨rfl, rfl, rfl, rfl, ⟨r, h.rx, .refl r⟩, ⟨p', Machine.poolAt?_setPool h.pool, kept⟩, rfl,
    fun _ _ held => held⟩

theorem aside_handles (h : RxGuard T x g m r p bs) (handles : Array ReturnHandle) :
    RxAside T.place m r p { m with handles := handles } :=
  ⟨rfl, rfl, rfl, rfl, ⟨r, h.rx, .refl r⟩, ⟨p, h.pool, .refl p⟩, rfl, fun _ _ held => held⟩

theorem aside_plan (h : RxGuard T x g m r p bs) (agenda : List (List Move)) :
    RxAside T.place m r p { m with agenda := agenda } :=
  ⟨rfl, rfl, rfl, rfl, ⟨r, h.rx, .refl r⟩, ⟨p, h.pool, .refl p⟩, rfl, fun _ _ held => held⟩

theorem aside_parts (h : RxGuard T x g m r p bs) (tx : Option TxRing) (arbiter : Option Arbiter)
    (stalled : Option Direction) :
    RxAside T.place m r p { m with tx := tx, arbiter := arbiter, stalled := stalled } :=
  ⟨rfl, rfl, rfl, rfl, ⟨r, h.rx, .refl r⟩, ⟨p, h.pool, .refl p⟩, rfl, fun _ _ held => held⟩

theorem aside_removeFrame (h : RxGuard T x g m r p bs) (i : Nat) :
    RxAside T.place m r p (m.removeFrame i) := by
  refine ⟨rfl, rfl, rfl, rfl, ⟨r, h.rx, .refl r⟩, ⟨p, h.pool, .refl p⟩,
    Array.size_setIfInBounds, fun j f held => ?_⟩
  have held : (m.frames.setIfInBounds i none).getD j none = some f := held
  show m.frames.getD j none = some f
  rw [Array.getD_eq_getD_getElem?, Array.getElem?_setIfInBounds] at held
  rw [Array.getD_eq_getD_getElem?]
  by_cases same : i = j
  · rw [if_pos same] at held
    split at held
    · exact absurd held (by simp)
    · exact absurd held (by simp)
  · rwa [if_neg same] at held

end RxGuard

/-! ## What is claimed of the moments -/

/-- A step has at most one event, and that at its end. -/
theorem RxStep.remembers {switches : Prop} {c c' : Taking × Machine}
    (step : RxStep T switches c c') : Machine.Remembers c.2 c'.2 := by
  obtain ⟨-, -, change⟩ := step
  cases change with
  | move => exact Machine.remembers_move _ _
  | note | reply | take | deliver => exact Machine.remembers_record _ _
  | write | writeTx | ring | switch | describe => exact .inr (Machine.moments_record _ _)
  | post | clear | resync | pass | reject | settle | hold => exact .inl rfl
  | aside _ aside => exact .inl aside.moments

/-- An event that is not the end of a request makes a sound moment. -/
theorem RxPast.record {k : Machine} {e : Event} (h : RxPast T m)
    (target : RxGuard T x g (k.record e) r p bs) (moments : k.moments = m.moments)
    (rx : k.rx = m.rx) (complete : k.journal.detail = .complete) (other : ∀ o, e ≠ .replied o) :
    RxPast T (k.record e) := by
  refine h.moment ?_ ?_ (target.sound ?_)
  · rw [Machine.moments_record, moments]
  · rw [Machine.toScene_record]
    exact rx
  · rw [Machine.journal_record]
    exact Journal.not_replied_add complete other

/-- **A step keeps what is claimed of the moments.** -/
theorem RxStep.past {switches : Prop} {c c' : Taking × Machine} (step : RxStep T switches c c')
    (h : RxPast T c.2) : RxPast T c'.2 := by
  obtain ⟨source, target, change⟩ := step
  cases change with
  | move => exact h.record target rfl rfl source.complete fun _ => Event.noConfusion
  | note _ note => exact h.record target rfl rfl source.complete (Event.ne_replied_of_isNote note)
  | reply _ o owner =>
    refine h.moment (Machine.moments_record _ _) (by rw [Machine.toScene_record]) ⟨?_, ?_⟩
    · intro lawful on
      exact target.ringOver (target.safe lawful on)
    · intro _
      exact owner
  | write => exact h.record target rfl rfl source.complete fun _ => Event.noConfusion
  | writeTx => exact h.record target rfl rfl source.complete fun _ => Event.noConfusion
  | ring => exact h.record target rfl rfl source.complete fun _ => Event.noConfusion
  | switch => exact h.record target rfl rfl source.complete fun _ => Event.noConfusion
  | describe => exact h.record target rfl rfl source.complete fun _ => Event.noConfusion
  | @post b _ _ fits =>
    exact h.quiet rfl rfl (source.leavesInPlace rfl rfl (source.holds.post fits b) (Nat.zero_le _)
      (Counter.advance_zero _).symm (prefix_append _ [b]))
  | clear _ off => exact h.quiet rfl rfl fun lawful => Scene.leavesInPlace_of_off (off lawful)
  | resync _ off => exact h.quiet rfl rfl fun lawful => Scene.leavesInPlace_of_off (off lawful)
  | @pass b rest oldest due =>
    subst oldest
    exact h.quiet rfl rfl
      (source.leavesInPlace rfl rfl source.holds.pass due rfl (prefix_refl rest))
  | take => exact h.record target rfl rfl source.complete fun _ => Event.noConfusion
  | reject => exact h
  | deliver => exact h.record target rfl rfl source.complete fun _ => Event.noConfusion
  | settle => exact h
  | hold => exact h.aside rfl rfl rfl
  | aside _ aside =>
    obtain ⟨r', rx, alike⟩ := aside.rx
    have holds := source.holds.congr alike.size alike.slots alike.consumer alike.producer
    exact h.quiet aside.moments aside.adapter (source.leavesInPlace aside.adapter rx holds
      (Nat.zero_le _) (alike.consumer.trans (Counter.advance_zero _).symm) (prefix_refl _))

end

end DescriptorRings
