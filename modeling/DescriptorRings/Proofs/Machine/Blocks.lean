import DescriptorRings.Proofs.Machine.Strokes

/-!
# The blocks that are out

Whoever wants to know which blocks a run holds need not ask the allocator.  Every block granted and
every block given back is an event, so the list of the blocks that are out can be read off the
journal (`blocksOut`).  Nothing is assumed about the allocator: where it grants one address twice, the
address is out twice, and has to be given back twice.

The allocator is asked for blocks when a pool is made, and gets them back when the last reference to a
pool has gone.  Everything else that a machine does leaves the blocks alone, and also everything that
decides whether a pool is still referred to: which pool a ring draws from, which frames are held,
where the buffers of the pools lie (`Scene.SameEstate`).  This is a property of the strokes of all
parts (`Stroke.undisturbed`), with the exception of a receive ring that is being served, since the
frames that it shows may be held, and may be the last that refer to a pool.
-/

namespace DescriptorRings

open Relation

/-! ## Events of the allocator -/

namespace Event

/-- Whether a block is asked for or given back. -/
def isOfAllocator : Event → Bool
  | .allocated _ _ | .freed _ => true
  | _ => false

/-- The block that was given back. -/
def freed? : Event → Option BusAddress
  | .freed a => some a
  | _ => none

/-- The blocks that are out after an event. -/
def settle (out : List BusAddress) : Event → List BusAddress
  | .allocated _ (some a) => a :: out
  | .freed a => out.erase a
  | _ => out

theorem settle_of_not {e : Event} (other : e.isOfAllocator = false) (out : List BusAddress) :
    settle out e = out := by
  cases e <;> first | rfl | exact absurd other (by simp [isOfAllocator])

end Event

/-- The blocks that are out after some events, each as often as it was granted and not given back. -/
def blocksOut (es : List Event) : List BusAddress := es.foldl Event.settle []

/-- Only blocks that are out are given back. -/
def GivesBackOut (es : List Event) : Prop :=
  ∀ before a later, es = before ++ .freed a :: later → a ∈ blocksOut before

@[simp] theorem blocksOut_concat (es : List Event) (e : Event) :
    blocksOut (es ++ [e]) = e.settle (blocksOut es) := by
  simp [blocksOut]

theorem givesBackOut_nil : GivesBackOut [] := by
  intro before a later h
  simp at h

theorem GivesBackOut.concat {es : List Event} (h : GivesBackOut es) {e : Event}
    (out : ∀ a, e = .freed a → a ∈ blocksOut es) : GivesBackOut (es ++ [e]) := by
  intro before a later split
  rcases List.eq_nil_or_concat later with rfl | ⟨shorter, e', rfl⟩
  · obtain ⟨rfl, last⟩ := List.append_inj' split rfl
    exact out a (List.singleton_inj.mp last)
  · rw [List.concat_eq_append, ← List.cons_append, ← List.append_assoc] at split
    exact h before a shorter (List.append_inj' split rfl).1

/-- A journal that keeps every event tells that these blocks are out, and that only blocks that were
out have been given back. -/
structure Journal.Accounts (j : Journal) (out : List BusAddress) : Prop where
  /-- Every event is kept. -/
  complete : j.detail = .complete
  /-- These blocks are out. -/
  out_eq : blocksOut j.events.toList = out
  /-- No other block was ever given back. -/
  honest : GivesBackOut j.events.toList

namespace Journal.Accounts

variable {j : Journal} {out : List BusAddress}

theorem add (h : j.Accounts out) {e : Event} (mine : ∀ a, e = .freed a → a ∈ out) :
    (j.add e).Accounts (e.settle out) := by
  refine ⟨?_, ?_, ?_⟩
  · rw [detail_add]
    exact h.complete
  · rw [toList_events_add h.complete, blocksOut_concat, h.out_eq]
  · rw [toList_events_add h.complete]
    exact h.honest.concat fun a freed => h.out_eq ▸ mine a freed

theorem add_other (h : j.Accounts out) {e : Event} (other : e.isOfAllocator = false) :
    (j.add e).Accounts out := by
  have added := h.add (e := e) fun a freed => by simp [freed, Event.isOfAllocator] at other
  rwa [Event.settle_of_not other] at added

end Journal.Accounts

/-! ## The estate of a scene -/

/-- A block is being given back just now. -/
def Scene.Frees (s : Scene) (a : BusAddress) : Prop :=
  s.journal.events.back?.bind Event.freed? = some a

instance (s : Scene) (a : BusAddress) : Decidable (s.Frees a) :=
  inferInstanceAs (Decidable (_ = _))

/-- In two scenes the same blocks are out, and the same pools are referred to by the same. -/
structure Scene.SameEstate (s s' : Scene) : Prop where
  /-- The same blocks are out. -/
  account : ∀ out, s.journal.Accounts out → s'.journal.Accounts out
  /-- The pools have the same blocks, and their makers refer to the same of them. -/
  pools : s'.pools.map PoolEntry.estate = s.pools.map PoolEntry.estate
  /-- The receive ring draws from the same pool. -/
  rx : s'.rx.map RxRing.pool = s.rx.map RxRing.pool
  /-- There is the same engine. -/
  engine : s'.engine = s.engine
  /-- The same frames are held. -/
  frames : s'.frames = s.frames
  /-- The same things wait aside. -/
  aside : s'.aside = s.aside

theorem Scene.SameEstate.refl (s : Scene) : s.SameEstate s := ⟨fun _ => id, rfl, rfl, rfl, rfl, rfl⟩

theorem Scene.SameEstate.trans {s s' s'' : Scene} (h : s.SameEstate s') (h' : s'.SameEstate s'') :
    s.SameEstate s'' :=
  ⟨fun out account => h'.account out (h.account out account), h'.pools.trans h.pools,
    h'.rx.trans h.rx, h'.engine.trans h.engine, h'.frames.trans h.frames, h'.aside.trans h.aside⟩

namespace Machine

/-- From one machine to another nothing has happened that concerns the allocator, or the references to
pools. -/
structure Undisturbed (m m' : Machine) : Prop where
  /-- The estate is the same. -/
  scene : m.toScene.SameEstate m'.toScene
  /-- The level of detail stays. -/
  detail : m'.journal.detail = m.journal.detail
  /-- So it was at every moment in between, and none of them gave a block back. -/
  moments : m.journal.detail = .complete →
    m.Spans (fun s => m.toScene.SameEstate s ∧ ∀ a, ¬s.Frees a) m'

namespace Undisturbed

variable {m m' m'' : Machine}

theorem trans (h : Undisturbed m m') (h' : Undisturbed m' m'') : Undisturbed m m'' := by
  refine ⟨h.scene.trans h'.scene, h'.detail.trans h.detail, fun complete => ?_⟩
  exact (h.moments complete).trans ((h'.moments (h.detail.trans complete)).mono
    fun s hs => ⟨h.scene.trans hs.1, hs.2⟩)

/-- There is no event. -/
theorem of_scene (scene : m.toScene.SameEstate m'.toScene) (journal : m'.journal = m.journal)
    (moments : m'.moments = m.moments) : Undisturbed m m' :=
  ⟨scene, by rw [journal], fun _ => .of_moments_eq _ moments⟩

theorem refl (m : Machine) : Undisturbed m m := of_scene (.refl _) rfl rfl

/-- Something else changes, and that is entered. -/
theorem record {k : Machine} {e : Event} (other : e.isOfAllocator = false)
    (scene : m.toScene.SameEstate k.toScene) (journal : k.journal = m.journal)
    (moments : k.moments = m.moments) : Undisturbed m (k.record e) := by
  have same : m.toScene.SameEstate (k.record e).toScene := by
    rw [toScene_record]
    exact ⟨fun out account => (scene.account out account).add_other other, scene.pools, scene.rx,
      scene.engine, scene.frames, scene.aside⟩
  refine ⟨same, ?_, fun complete => .record moments ⟨same, fun a frees => ?_⟩⟩
  · rw [journal_record, Journal.detail_add, journal]
  · rw [Scene.Frees, journal_record, journal, Journal.events_add_of_complete complete,
      Array.back?_push, Option.bind_some] at frees
    cases e <;> simp_all [Event.freed?, Event.isOfAllocator]

theorem note (m : Machine) {e : Event} (other : e.isOfAllocator = false) :
    Undisturbed m (m.record e) :=
  record other (.refl _) rfl rfl

theorem give (m : Machine) (n : Notice) : Undisturbed m (m.give n) := by
  unfold Machine.give
  split
  · exact note m rfl
  · exact refl m

/-- Something that holds no reference to a pool has changed. -/
theorem elsewhere {adapter : Adapter} {memory : Memory} {tx : Option TxRing}
    {arbiter : Option Arbiter} {handles : Array ReturnHandle} {stalled : Option Direction}
    {agenda : List (List Move)} :
    Undisturbed m { m with
      adapter := adapter
      memory := memory
      tx := tx
      arbiter := arbiter
      handles := handles
      stalled := stalled
      agenda := agenda } :=
  of_scene ⟨fun _ => id, rfl, rfl, rfl, rfl, rfl⟩ rfl rfl

theorem move (m : Machine) (mv : Move) : Undisturbed m (m.move mv) :=
  record (k := { m with memory := m.adapter.store mv m.memory, adapter := m.adapter.move mv }) rfl
    ⟨fun _ => id, rfl, rfl, rfl, rfl, rfl⟩ rfl rfl

theorem turn (m : Machine) : Undisturbed m m.turn := by
  refine keeps_turn (fun later _ => ?_) (fun k mv h => h.trans (move k mv)) (refl m)
  exact of_scene ⟨fun _ => id, rfl, rfl, rfl, rfl, rfl⟩ rfl rfl

end Undisturbed

end Machine

/-! ## Strokes -/

section Strokes

variable {p : Part} {shifts : Prop} {Act : Machine → Machine → Prop} {m m' : Machine}

/-- **No part disturbs the blocks**, unless a receive ring is being served. -/
theorem Stroke.undisturbed (h : Stroke p shifts m m') (idle : p = .rx → shifts) :
    m.Undisturbed m' := by
  -- an access changes the adapter, and then is entered
  have access (a : Adapter) {e : Event} (other : e.isOfAllocator = false) :
      m.Undisturbed ((m.setAdapter a).record e) :=
    .record other ⟨fun _ => id, rfl, rfl, rfl, rfl, rfl⟩ rfl rfl
  cases h with
  | turn => exact .turn m
  | look => exact .note m rfl
  | @tell e h =>
    refine .note m ?_
    cases p <;> cases e <;> first | rfl | exact absurd h Bool.false_ne_true
  | write | switch => exact access (m.adapter.write _ _) rfl
  | describeTx _ slot d => exact access (m.adapter.writeTx slot d) rfl
  | describeRx _ slot address capacity => exact access (m.adapter.writeRx slot address capacity) rfl
  | changeTx | changeArbiter => exact .elsewhere
  | changeRx _ rx pools _ draws estates =>
    exact .of_scene ⟨fun _ => id, estates, draws, rfl, rfl, rfl⟩ rfl rfl
  | free rx _ serving | bury rx _ serving | changeHeld rx _ _ serving =>
    exact absurd (idle rx) serving

/-- So neither does what is done while nobody else acts. -/
theorem Working.undisturbed (run : Working p shifts (fun _ _ => False) m m')
    (idle : p = .rx → shifts) : m.Undisturbed m' :=
  run.keeps (P := m.Undisturbed) (fun _ _ stroke h => h.trans (stroke.undisturbed idle))
    (fun _ _ none => none.elim) (.refl m)

/-- Nor does a receive ring that is not being served. -/
theorem Working.quiet (run : Working .rx True (fun _ _ => False) m m') : m.Undisturbed m' :=
  run.undisturbed fun _ => trivial

end Strokes

/-! ## An engine that is dropped -/

/-- An engine that is dropped, as far as its parts have not gone. -/
def Machine.switchedOff (m : Machine) : Machine :=
  ((m.write .irqEnable 0).cancelTx.cancelRx.advanceRx .silent).machine

theorem Machine.dropEngine_eq (m : Machine) :
    m.dropEngine = (m.switchedOff.giveIf
      ((m.switchedOff.tx.map TxRing.outstanding).getD 0 != 0)
      (.engineLostPackets ((m.switchedOff.tx.map TxRing.outstanding).getD 0))).dropRings :=
  rfl

/-- Serving a receive ring that was cancelled empties it, and that is all. -/
theorem Machine.advanceRx_cancelRx (m : Machine) (u : Upper) :
    (m.cancelRx.advanceRx u).machine = m.cancelRx.recyclePosted := by
  have cancelled : ∀ r, m.cancelRx.rx = some r → r.phase = .cancelled := by
    intro r rx
    unfold Machine.cancelRx at rx
    split at rx
    · next already =>
      rw [rx] at already
      simpa [RxRing.isCancelled] using already
    · rw [Machine.rx_give] at rx
      obtain ⟨r', -, rfl⟩ := Option.map_eq_some_iff.mp rx
      rfl
  unfold Machine.advanceRx
  cases rx : m.cancelRx.rx with
  | none => simp [Machine.recyclePosted, rx, Served.start]
  | some r => simp [cancelled r rx, Served.start]

/-- Everything that an engine does at first when it is dropped, its parts do. -/
theorem Machine.undisturbed_switchedOff (m : Machine) : m.Undisturbed m.switchedOff := by
  have written : Working .irq True (fun _ _ => False) m (m.write .irqEnable 0) := .write m rfl 0
  have quiet := ((written.undisturbed fun _ => trivial).trans
    ((m.write .irqEnable 0).working_cancelTx.undisturbed fun _ => trivial)).trans
    ((m.write .irqEnable 0).cancelTx.working_cancelRx.undisturbed fun _ => trivial)
  rw [Machine.switchedOff, Machine.advanceRx_cancelRx]
  exact quiet.trans ((Machine.working_recyclePosted _).undisturbed fun _ => trivial)

end DescriptorRings
