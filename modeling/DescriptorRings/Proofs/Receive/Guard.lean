import DescriptorRings.Proofs.Machine.History
import DescriptorRings.Proofs.Machine.Pools
import DescriptorRings.Proofs.Receive.Safety

/-!
# The guard of a receive ring

In the middle of a request a buffer can be in the hands of the driver, on its way from one place to
another.  `Hands` keeps account of what is there, and of how far the request has got.

The guard (`RxGuard`) is what holds between any two actions of the driver.  The buffers in the slots
are those of the window of the ring; the ledger of the pool agrees with the slots, the hands and the
handles; and the address that was last written into each slot of the window is that of the buffer in
it.  No adapter can disturb that much.

For an adapter that keeps the law of its direction there is more (`RxWindow`).  While the direction
is on, the adapter is inside the window: behind it are the completions that are still to be taken
in, and before it are the buffers that the doorbell does not cover yet.

* `oneOwner`: with empty hands, each buffer has one owner;
* `safe`: what a lawful adapter may still fill is in the window, and so it is posted;
* `leavesInPlace`: the window moves on at both ends only, so nothing is taken from the adapter.

A guard of this form serves any adapter and a lawful one alike, since the same requests have to keep
it for both.  `RxTerms` says which is meant, along with the place of the pool, the size of the ring,
and the moves that the adapter may make.
-/

namespace DescriptorRings

open List

/-! ## The hands of the driver -/

/-- How far the taking in of a completion has got. -/
inductive Taking where
  /-- No completion is being taken in. -/
  | nothing
  /-- The slot of a buffer was passed. -/
  | passed (slot : Nat) (b : BufferId)
  /-- The completion of the buffer was read. -/
  | read (b : BufferId) (c : Completion)
  /-- A frame was shown to the upper layer, which has not said yet what becomes of it. -/
  | shown (f : Frame)

/-- What a request has in its hands, and how far it has got. -/
structure Hands where
  /-- Buffers that are going to be posted. -/
  batch : List BufferId := []
  /-- Buffers whose slots were passed, and whose completions are being taken in. -/
  transit : List BufferId := []
  /-- Handles that are just being handed over. -/
  fresh : List ReturnHandle := []
  /-- How many slots are filled. -/
  filled : Nat := 0
  /-- How many completions are still to be taken in. -/
  due : Nat := 0
  /-- How many posted buffers the doorbell does not cover. -/
  unrung : Nat := 0
  /-- The completion that is being taken in. -/
  taking : Taking := .nothing

/-- Where a request stands that switches the direction off and on. -/
inductive RxStage where
  /-- Anything may be the case. -/
  | plain
  /-- The direction is off. -/
  | silenced
  /-- The ring begins where the adapter stands. -/
  | aligned
  /-- The ring is running. -/
  | armed
  /-- The doorbell covers what is posted. -/
  | rung

/-- What is known at a stage. -/
def RxStage.Knows (a : Adapter) (r : RxRing) : RxStage → Prop
  | .plain => True
  | .silenced => a.on .rx = false
  | .aligned => a.on .rx = false ∧ a.counter .rxConsumer = r.consumer
  | .armed => a.on .rx = false ∧ a.counter .rxConsumer = r.consumer ∧ r.phase = .running
  | .rung =>
    a.on .rx = false ∧ a.counter .rxConsumer = r.consumer ∧ r.phase = .running ∧
      a.counter .rxProducer = r.producer

/-! ## The guard -/

/-- What a development is about. -/
structure RxTerms where
  /-- The place of the pool. -/
  place : Nat
  /-- The size of the ring. -/
  size : RingSize
  /-- The moves that the adapter may make. -/
  permits : Move → Prop
  /-- Whether it keeps the law of its direction. -/
  lawful : Prop
  /-- Then all of its moves do. -/
  law : lawful → ∀ mv, permits mv → mv.Lawful .rx

/-- An adapter that is switched on is inside the window. -/
structure RxWindow (g : Hands) (a : Adapter) (r : RxRing) : Prop where
  /-- The ring is running. -/
  running : r.phase = .running
  /-- The doorbell covers what it was rung for. -/
  producer : r.producer = (a.counter .rxProducer).advance g.unrung
  /-- The completions to be taken in are there, and the adapter is no farther. -/
  within : a.ahead .rx + g.unrung + g.due ≤ g.filled

variable (T : RxTerms)

/-- The guard: a ring whose slots hold `bs`, over a pool, in the middle of a request. -/
structure RxGuard (x : RxStage) (g : Hands) (m : Machine) (r : RxRing) (p : BufferPool)
    (bs : List BufferId) : Prop where
  /-- The ring in question. -/
  rx : m.rx = some r
  /-- The pool in question. -/
  pool : m.poolAt? T.place = some p
  /-- The ring draws from the pool. -/
  place : r.pool = T.place
  /-- The ring has the size in question. -/
  size : r.size = T.size
  /-- Every event is kept. -/
  complete : m.journal.detail = .complete
  /-- The adapter's plans are permitted. -/
  planned : Machine.Permitted T.permits m.agenda
  /-- The slots hold the buffers. -/
  holds : r.Holds bs
  /-- There are as many as the request has counted. -/
  filled : bs.length = g.filled
  /-- The pool agrees. -/
  ledger : p.Ledger g.batch (bs ++ g.transit) (g.fresh ++ m.toScene.out)
  /-- The frames that are held belong to the pool. -/
  frames : ∀ f, some f ∈ m.frames.toList → f.pool = T.place
  /-- No more completions are expected than there are buffers. -/
  due : g.due ≤ g.filled
  /-- The addresses of the buffers are written in their slots. -/
  table : Counter.Spread r.size m.adapter.rxAddress? r.consumer (bs.map p.base)
  /-- The stage is reached in order. -/
  knows : T.lawful → x.Knows m.adapter r
  /-- The adapter is inside the window. -/
  window : T.lawful → m.adapter.on .rx = true → RxWindow g m.adapter r

/-- What is claimed of a moment. -/
structure RxSound (s : Scene) : Prop where
  /-- A lawful adapter that is switched on fills posted buffers only. -/
  safe : T.lawful → s.adapter.isOn .rxDmaControl = true →
    s.RingOver T.place T.size.slots fun r p => ∃ live, RxSafe s r p live
  /-- After a request of the upper layer each buffer has one owner. -/
  owner : s.journal.Replied → s.RingOver T.place T.size.slots (OneOwner s)

/-- What has been claimed of the moments so far, of each and of each two that follow one another. -/
def RxPast (m : Machine) : Prop :=
  ∃ past, m.moments = some past ∧ (∀ s ∈ past, RxSound T s) ∧
    past.IsChain (fun s' s => T.lawful → s.LeavesInPlace s') ∧
    ∀ last ∈ past.head?, last.adapter = m.adapter ∧ (T.lawful → last.LeavesInPlace m.toScene)

/-- The guard of a machine, and what has been claimed of its past. -/
def RxInv (x : RxStage) (g : Hands) (m : Machine) : Prop :=
  (∃ r p bs, RxGuard T x g m r p bs) ∧ RxPast T m

variable {T} {n : Nat} {x : RxStage} {g : Hands} {m m' : Machine} {r r' : RxRing} {p : BufferPool}
  {bs : List BufferId}

/-! ## One moment after another -/

namespace RxPast

/-- The machine changes in between two moments. -/
theorem quiet (h : RxPast T m) (moments : m'.moments = m.moments) (adapter : m'.adapter = m.adapter)
    (leaves : T.lawful → m.toScene.LeavesInPlace m'.toScene) : RxPast T m' := by
  obtain ⟨past, hpast, sound, chain, latest⟩ := h
  refine ⟨past, moments.trans hpast, sound, chain, fun last hlast => ?_⟩
  obtain ⟨same, left⟩ := latest last hlast
  refine ⟨same.trans adapter.symm, fun lawful c b awaits _ => .inl ?_⟩
  exact (leaves lawful).awaits adapter ((left lawful).awaits same.symm awaits)

/-- Neither the adapter nor the ring changes. -/
theorem aside (h : RxPast T m) (moments : m'.moments = m.moments) (adapter : m'.adapter = m.adapter)
    (rx : m'.rx = m.rx) : RxPast T m' :=
  h.quiet moments adapter fun _ => Scene.leavesInPlace_of_rx_eq rx

/-- A moment is remembered.  The ring has not changed by the event itself. -/
theorem moment (h : RxPast T m) (moments : m'.moments = m.moments.map (m'.toScene :: ·))
    (rx : m'.rx = m.rx) (now : RxSound T m'.toScene) : RxPast T m' := by
  obtain ⟨past, hpast, sound, chain, latest⟩ := h
  refine ⟨m'.toScene :: past, ?_, ?_, ?_, ?_⟩
  · rw [moments, hpast, Option.map_some]
  · intro s hs
    rcases mem_cons.mp hs with rfl | hs
    · exact now
    · exact sound s hs
  · refine chain.cons fun last hlast lawful c b awaits on => ?_
    obtain ⟨same, left⟩ := latest last hlast
    rw [same]
    exact ((left lawful).awaits same.symm awaits).moved rx on
  · intro last hlast
    obtain rfl := Option.some.inj hlast
    exact ⟨rfl, fun _ => .refl _⟩

end RxPast

namespace RxGuard

/-! ## What the guard comes to -/

theorem ringOver (h : RxGuard T x g m r p bs) {P : RxRing → BufferPool → Prop} (holds : P r p) :
    m.toScene.RingOver T.place T.size.slots P :=
  ⟨r, p, h.rx, congrArg RingSize.slots h.size, h.pool, holds⟩

/-- Between two requests the posted buffers are those in the slots. -/
theorem between (h : RxGuard T x { filled := n } m r p bs) :
    p.Ledger [] r.held m.toScene.out := by
  have ledger : p.Ledger [] (bs ++ []) ([] ++ m.toScene.out) := h.ledger
  rw [append_nil, nil_append] at ledger
  exact ledger.perm (.refl _) h.holds.held.symm (.refl _)

/-- With empty hands each buffer has one owner. -/
theorem oneOwner (h : RxGuard T x g m r p bs) (batch : g.batch = []) (transit : g.transit = [])
    (fresh : g.fresh = []) : OneOwner m.toScene r p := by
  have ledger := h.ledger
  rw [batch, transit, fresh, append_nil, nil_append] at ledger
  have posted : p.Lists .posted r.held := ledger.posted.perm h.holds.held.symm
  refine ⟨fun n hn => ?_, posted, fun b hb => ?_, ledger.delivered, fun k hk slot hslot => ?_, ?_,
    ?_, ?_⟩
  · rw [h.holds.past_eq]
    constructor
    · intro some
      by_contra outside
      rw [h.holds.empty n (Nat.le_of_not_lt outside) hn] at some
      exact Bool.false_ne_true some
    · intro inside
      rw [h.holds.filled n bs[n] (getElem?_eq_getElem inside)]
      rfl
  · exact not_mem_nil ((ledger.acquired.mem_iff b).mpr hb)
  · have delivered := (ledger.delivered.mem_iff k.buffer).mp (mem_map_of_mem hk)
    have posted := (posted.mem_iff k.buffer).mp (RxRing.mem_held_of_bufferAt? hslot)
    exact BufferState.noConfusion (Option.some.inj (delivered.symm.trans posted))
  · rw [h.holds.posted_eq, h.holds.held.length_eq]
  · exact (ledger.posted.number_tally ledger.named).trans h.holds.held.length_eq.symm
  · rw [h.holds.held.length_eq]
    exact h.holds.fits

/-- **Where the adapter stands** while it is switched on: what it may still fill, and what the
doorbell does not cover yet, are the last of the slots. -/
theorem stands (h : RxGuard T x g m r p bs) (lawful : T.lawful) (on : m.adapter.on .rx = true) :
    m.adapter.counter .rxConsumer =
      r.consumer.advance (bs.length - (m.adapter.ahead .rx + g.unrung)) := by
  have window := h.window lawful on
  have within := window.within
  have filled := h.filled
  refine Counter.eq_advance_sub (h.holds.producer.symm.trans ?_) (by omega)
  rw [window.producer, ← Counter.advance_advance]
  exact congrArg (Counter.advance · _) (Counter.advance_past _ _).symm

/-- **A reading of the counter is taken at its word** when it is believed, and announces nothing
otherwise.  Either way no more completions are due than an adapter inside the window has made. -/
theorem announce (h : RxGuard T .plain { filled := n } m r p bs) :
    RxGuard T .plain { filled := n, due := r.ready (m.adapter.counter .rxConsumer) } m r p bs := by
  have filled : bs.length = n := h.filled
  have few : r.ready (m.adapter.counter .rxConsumer) ≤ n := by
    rw [RxRing.ready, RxRing.believes, h.holds.posted_eq, filled]
    split
    · exact of_decide_eq_true ‹_›
    · exact Nat.zero_le n
  refine { h with due := few, window := fun lawful on => ?_ }
  have window := h.window lawful on
  have within : m.adapter.ahead .rx + 0 + 0 ≤ n := window.within
  have behind : r.ready (m.adapter.counter .rxConsumer) ≤ n - m.adapter.ahead .rx := by
    have announced : r.announced (m.adapter.counter .rxConsumer) = n - m.adapter.ahead .rx := by
      have short := h.holds.length_lt_span
      rw [RxRing.announced, h.stands lawful on, filled]
      exact Counter.past_advance _ (by omega)
    rw [RxRing.ready, announced]
    split
    · exact Nat.le_refl _
    · exact Nat.zero_le _
  refine ⟨window.running, window.producer, ?_⟩
  show m.adapter.ahead .rx + 0 + r.ready (m.adapter.counter .rxConsumer) ≤ n
  omega

/-- Inside the window the adapter finds posted buffers only. -/
theorem safe (h : RxGuard T x g m r p bs) (lawful : T.lawful) (on : m.adapter.on .rx = true) :
    ∃ live, RxSafe m.toScene r p live := by
  have within := (h.window lawful on).within
  have fits := h.holds.fits
  have filled := h.filled
  have stands := h.stands lawful on
  set behind := bs.length - (m.adapter.ahead .rx + g.unrung) with hbehind
  have nodup := (nodup_append.mp h.ledger.posted.nodup).1
  have sub : ((bs.drop behind).take (m.adapter.ahead .rx)) <+ bs :=
    (take_sublist _ _).trans (drop_sublist _ _)
  have length : ((bs.drop behind).take (m.adapter.ahead .rx)).length = m.adapter.ahead .rx := by
    rw [length_take, length_drop]
    omega
  have slot (k : Nat) : ((m.adapter.counter .rxConsumer).advance k).slot r.size.slots =
      (r.consumer.advance (behind + k)).slot r.size.slots := by
    rw [stands, Counter.advance_advance]
  have found {k : Nat} {b : BufferId}
      (hk : ((bs.drop behind).take (m.adapter.ahead .rx))[k]? = some b) :
      bs[behind + k]? = some b := by
    have inside : k < m.adapter.ahead .rx := length ▸ (List.getElem?_eq_some_iff.mp hk).1
    rw [getElem?_take_of_lt inside, getElem?_drop] at hk
    exact hk
  refine ⟨(bs.drop behind).take (m.adapter.ahead .rx), length, ?_, nodup.sublist sub,
    fun b hb => ?_, fun slot b hslot => ?_, fun k b hk => ?_, fun k b hk => ?_⟩
  · exact sub.length_le.trans fits
  · exact (h.ledger.posted.mem_iff b).mp (mem_append_left _ (sub.subset hb))
  · have held := h.holds.held.mem_iff.mp (RxRing.mem_held_of_bufferAt? hslot)
    exact (h.ledger.posted.mem_iff b).mp (mem_append_left _ held)
  · rw [Scene.bufferFor?, h.rx, Option.bind_some, slot]
    exact h.holds.filled _ b (found hk)
  · have posted := (h.ledger.posted.mem_iff b).mp (mem_append_left _ (mem_of_getElem? (found hk)))
    refine ⟨p.base b, BufferPool.addressOf?_eq_base posted, ?_⟩
    show m.adapter.rxAddress? (((m.adapter.counter .rxConsumer).advance k).slot r.size.slots) = _
    rw [slot]
    refine h.table (behind + k) (p.base b) ?_
    rw [getElem?_map, found hk]
    rfl

/-- **The window moves on behind the adapter's back**: buffers leave it at the front, as far as
completions are due, and come to it at the end.  Those between are left in place. -/
theorem leavesInPlace (h : RxGuard T x g m r p bs) (adapter : m'.adapter = m.adapter)
    (rx : m'.rx = some r') {d : Nat} {bs' : List BufferId} (holds : r'.Holds bs')
    (passed : d ≤ g.due) (consumer : r'.consumer = r.consumer.advance d)
    (front : bs.drop d <+: bs') (lawful : T.lawful) : m.toScene.LeavesInPlace m'.toScene := by
  rintro c b ⟨on, ⟨q, hq, k, hk, rfl⟩, held⟩ on'
  obtain rfl : q = r := Option.some.inj (hq.symm.trans h.rx)
  have within := (h.window lawful on).within
  have filled := h.filled
  have stands := h.stands lawful on
  set behind := bs.length - (m.adapter.ahead .rx + g.unrung) with hbehind
  have short := h.holds.length_lt_span
  have short' := holds.length_lt_span
  obtain ⟨later, rfl⟩ := front
  rw [length_append, length_drop] at short'
  rw [stands, h.holds.producer, Counter.past_advance_advance _ (by omega) (by omega)] at hk
  -- the place of the buffer in the window before and after
  obtain ⟨n, hn⟩ : ∃ n, behind + k = d + n := ⟨behind + k - d, by omega⟩
  have inside : d + n < bs.length := by omega
  have place : (m.adapter.counter .rxConsumer).advance k = r'.consumer.advance n := by
    rw [stands, Counter.advance_advance, hn, consumer, Counter.advance_advance]
  refine .inl ⟨on', ⟨r', rx, k, ?_, ?_⟩, ?_⟩
  · rw [adapter, stands, holds.producer, consumer, Counter.advance_advance,
      Counter.past_advance_advance _ (by rw [length_append, length_drop]; omega)
        (by rw [length_append, length_drop]; omega), length_append, length_drop]
    omega
  · rw [adapter]
  · rw [Scene.bufferFor?, h.rx, Option.bind_some, stands, Counter.advance_advance, hn,
      h.holds.filled (d + n) _ (getElem?_eq_getElem inside)] at held
    rw [place, Scene.bufferFor?, rx, Option.bind_some]
    refine holds.filled n b ?_
    rw [getElem?_append_left (by rw [length_drop]; omega), getElem?_drop,
      getElem?_eq_getElem inside]
    exact held

/-- What is claimed of a moment that is not the end of a request. -/
theorem sound (h : RxGuard T x g m r p bs) (under : ¬ m.journal.Replied) :
    RxSound T m.toScene where
  safe lawful on := h.ringOver (h.safe lawful on)
  owner replied := absurd replied under

end RxGuard

end DescriptorRings
