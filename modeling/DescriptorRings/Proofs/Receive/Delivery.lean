import DescriptorRings.Proofs.Receive.Frames
import DescriptorRings.Proofs.Receive.Ownership
import Mathlib.Data.List.DropRight

/-!
# From the adapter to the upper layer

A new ring over a new pool is used in any way, and then it is started.  From there to the next start
or cancellation, what was shown to the upper layer, followed by what has arrived and was not passed
yet, is all that has arrived: nothing is lost, nothing comes twice, and nothing is out of order.
Besides, however the ring is used, a frame that the upper layer holds stays as it was delivered.
Both are `frames_are_delivered_in_order`.

## Before the direction was ever off

Nothing is said of where an adapter stands when the ring is made.  Its direction may be on, and then
it fills buffers that nobody knows of.  Until the ring is started or cancelled for the first time no
frame can be held, so there is nothing that this could spoil (`RxFresh`).  Both switch the direction
off before they do anything else; from then on the adapter is inside the window whenever the
direction is on (`RxTamed`), and the lemmas of `Proofs.Receive.Flow` and `Proofs.Receive.Frames`
apply.
-/

namespace DescriptorRings

open Relation List

/-! ## What the upper layer has seen -/

/-- Whenever a frame was held it showed what it was delivered with, and from one moment to the next
it stayed as it was. -/
structure RxSeen (m : Machine) : Prop where
  /-- Each moment by itself. -/
  shows : m.Throughout Scene.ShowsDelivered
  /-- One moment after another. -/
  keeps : m.Successive Scene.KeepsFrames

namespace RxSeen

variable {m m' : Machine}

theorem step (h : RxSeen m) (remembers : Machine.Remembers m m')
    (keeps : m.toScene.KeepsFrames m'.toScene) (shows : m'.toScene.ShowsDelivered) : RxSeen m' :=
  ⟨h.shows.of_remembers remembers shows,
    h.keeps.of_remembers remembers keeps .refl fun _ _ _ => .trans⟩

/-- Where no frame is held, an event cannot concern one. -/
theorem record (h : RxSeen m) (empty : m.frames = #[]) {k : Machine} (e : Event)
    (moments : k.moments = m.moments) (frames : k.frames = m.frames) : RxSeen (k.record e) := by
  have empty' : (k.record e).frames = #[] := by rw [Machine.toScene_record, frames, empty]
  refine h.step (.inr ?_) (Scene.keepsFrames_of_empty empty) (Scene.showsDelivered_of_empty empty')
  rw [Machine.moments_record, moments]

/-- So the adapter may have its turn. -/
theorem turn (h : RxSeen m) (empty : m.frames = #[]) : RxSeen m.turn := by
  have kept : RxSeen m.turn ∧ m.turn.frames = #[] := by
    refine Machine.keeps_turn (P := fun k => RxSeen k ∧ k.frames = #[])
      (fun _ _ => ⟨⟨h.shows, h.keeps⟩, empty⟩) ?_ ⟨h, empty⟩
    rintro k mv ⟨hk, empty⟩
    exact ⟨hk.record empty _ rfl rfl, by rw [Machine.toScene_move, empty]⟩
  exact kept.1

end RxSeen

/-! ## A direction that has been off -/

section

variable {T : RxTerms} {x y : RxStage} {m m' : Machine} {n : Nat}

/-- The direction has been off since the ring was made. -/
structure RxTamed (T : RxTerms) (x : RxStage) (m : Machine) : Prop where
  /-- The guard holds. -/
  guarded : ∃ n r p bs, RxGuard T x { filled := n } m r p bs
  /-- So does what never changes. -/
  ground : RxGround T (.nothing, m)
  /-- The upper layer has what was delivered to it. -/
  showing : RxShowing T (.nothing, m)
  /-- It always had. -/
  seen : RxSeen m

theorem RxShowing.showsDelivered {c : Taking × Machine} (h : RxShowing T c)
    (ground : RxGround T c) : c.2.toScene.ShowsDelivered := by
  obtain ⟨-, p, pool, -⟩ := ground
  exact fun i f held => (h.held p pool i f held).delivered

theorem rxShowing_of_empty (empty : m.frames = #[]) : RxShowing T (.nothing, m) := by
  refine ⟨fun _ _ i f held => ?_, fun _ _ _ _ _ => Taking.noConfusion⟩
  have held : m.frames.getD i none = some f := held
  rw [empty] at held
  exact absurd held (Option.some_ne_none f).symm

/-- **Whatever keeps the guard keeps the frames.** -/
theorem RxTamed.follow (h : RxTamed T x m) (lawful : T.lawful)
    (next : RxAt (T.track True m) y { filled := n } m') : RxTamed T y m' := by
  obtain ⟨⟨r, p, bs, guard⟩, run⟩ := next
  let Inv (c : Taking × Machine) : Prop := RxGround T c ∧ RxShowing T c ∧ RxSeen c.2
  have keeps (c c' : Taking × Machine) (step : RxStep T True c c') (inv : Inv c) : Inv c' := by
    obtain ⟨ground, showing, seen⟩ := inv
    obtain ⟨kept, showing'⟩ := step.shows lawful ground showing
    have ground' := step.ground ground
    exact ⟨ground', showing',
      seen.step step.remembers kept (showing'.showsDelivered ground')⟩
  obtain ⟨ground, showing, seen⟩ :=
    Machine.inv_of_steps Inv keeps run ⟨h.ground, h.showing, h.seen⟩
  exact ⟨⟨n, r, p, bs, guard⟩, ground, showing, seen⟩

/-! ## A new ring -/

/-- The same development, with nothing said of the window. -/
def RxTerms.lax (T : RxTerms) : RxTerms := { T with lawful := False, law := False.elim }

/-- The window has no part in what never changes. -/
theorem RxGround.lax {c : Taking × Machine} (h : RxGround T c) : RxGround T.lax c :=
  ⟨h.goes, h.apart⟩

theorem RxGround.of_lax {c : Taking × Machine} (h : RxGround T.lax c) : RxGround T c :=
  ⟨h.goes, h.apart⟩

/-- The adapter cannot be outside the window while the direction is off. -/
theorem RxGuard.harden {g : Hands} {r : RxRing} {p : BufferPool} {bs : List BufferId}
    (h : RxGuard T.lax x g m r p bs) (off : m.adapter.on .rx = false)
    (knows : T.lawful → y.Knows m.adapter r) : RxGuard T y g m r p bs where
  rx := h.rx
  pool := h.pool
  place := h.place
  size := h.size
  complete := h.complete
  planned := h.planned
  holds := h.holds
  filled := h.filled
  ledger := h.ledger
  frames := h.frames
  due := h.due
  table := h.table
  knows := knows
  window _ on := absurd (off.symm.trans on) Bool.false_ne_true

/-- A ring that was neither started nor cancelled since it was made. -/
structure RxFresh (T : RxTerms) (m : Machine) : Prop where
  /-- The guard holds, but for the window. -/
  guarded : ∃ n r p bs, RxGuard T.lax .plain { filled := n } m r p bs
  /-- What never changes holds as well. -/
  ground : RxGround T (.nothing, m)
  /-- The ring does nothing when it is served. -/
  stopped : ∀ r, m.rx = some r → r.phase = .stopped
  /-- No frame is held. -/
  frames : m.frames = #[]
  /-- No handle is out. -/
  handles : m.handles = #[]
  /-- No frame ever was. -/
  seen : RxSeen m

namespace RxFresh

/-- Nothing happens to the ring or to what the upper layer has. -/
theorem follow (h : RxFresh T m)
    (next : RxAt (T.lax.track True m) .plain { filled := n } m') (rx : m'.rx = m.rx)
    (frames : m'.frames = m.frames) (handles : m'.handles = m.handles) (seen : RxSeen m') :
    RxFresh T m' := by
  obtain ⟨r, p, bs, guard⟩ := next.guarded
  have ground : RxGround T (.nothing, m') := (next.ground h.ground.lax).of_lax
  refine ⟨⟨n, r, p, bs, guard⟩, ground, ?_, frames.trans h.frames, handles.trans h.handles, seen⟩
  rw [rx]
  exact h.stopped

/-- A ring that is not running has nothing to be held or used. -/
theorem holding (h : RxFresh T m) (act : Holding T.permits T.place m m') : RxFresh T m' := by
  obtain ⟨n, r, p, bs, guard⟩ := h.guarded
  have next : RxAt (T.lax.track True m) .plain { filled := n } m' :=
    act.keeps (guard.here True) ⟨rfl, rfl, rfl⟩
  have none {i : Nat} {f : Frame} (held : m.frameAt? i = some f) : False := by
    rw [Machine.frameAt?, h.frames] at held
    exact Option.some_ne_none f held.symm
  cases act with
  | drop held => exact (none held).elim
  | detach held => exact (none held).elim
  | release unused =>
    rw [h.handles] at unused
    exact absurd unused (Option.some_ne_none _).symm
  | reply o =>
    have scene := m.toScene_record (.replied o)
    exact h.follow next (by rw [scene]) (by rw [scene]) (by rw [scene])
      (h.seen.record h.frames _ rfl rfl)
  | @move mv permitted =>
    have scene := m.toScene_move mv
    exact h.follow next (by rw [scene]) (by rw [scene]) (by rw [scene])
      (h.seen.record h.frames _ rfl rfl)

theorem plan (h : RxFresh T m) {agenda : List (List Move)}
    (permitted : Machine.Permitted T.permits agenda) : RxFresh T { m with agenda := agenda } := by
  obtain ⟨n, r, p, bs, guard⟩ := h.guarded
  exact h.follow ((guard.here True).plan permitted) rfl rfl rfl ⟨h.seen.shows, h.seen.keeps⟩

theorem advanceRx_eq (h : RxFresh T m) (u : Upper) : (m.advanceRx u).machine = m := by
  obtain ⟨n, r, p, bs, guard⟩ := h.guarded
  rw [Machine.advanceRx, guard.rx]
  dsimp only
  rw [h.stopped r guard.rx]
  rfl

/-- **The direction is switched off for the first time.** -/
theorem silence (h : RxFresh T m) :
    RxTamed T .silenced (m.write .rxDmaControl DmaControl.off) := by
  obtain ⟨n, r, p, bs, guard⟩ := h.guarded
  have next := (guard.here True).switchOff trivial
  obtain ⟨r', p', bs', guard'⟩ := next.guarded
  have ground : RxGround T (.nothing, m.write .rxDmaControl DmaControl.off) :=
    (next.ground h.ground.lax).of_lax
  have off : (m.write .rxDmaControl DmaControl.off).adapter.on .rx = false := by
    rw [Machine.write, Machine.toScene_record]
    exact Adapter.isOn_write_off _ _
  have turned : m.turn.frames = #[] := by
    obtain ⟨a, mem, j, scene⟩ := m.exists_toScene_turn
    rw [scene]
    exact h.frames
  have frames : (m.write .rxDmaControl DmaControl.off).frames = #[] := by
    rw [Machine.write, Machine.toScene_record]
    exact turned
  exact ⟨⟨n, r', p', bs', guard'.harden off fun _ => off⟩, ground,
    rxShowing_of_empty frames, (h.seen.turn h.frames).record turned _ rfl rfl⟩

end RxFresh

/-! ## Runs -/

/-- Between two requests. -/
inductive RxBetween (T : RxTerms) (m : Machine) : Prop
  /-- The direction was never switched off. -/
  | fresh (h : RxFresh T m)
  /-- It was. -/
  | tamed (h : RxTamed T .plain m)

namespace RxTamed

/-- The ring is started. -/
theorem start (h : RxTamed T .silenced (m.write .rxDmaControl DmaControl.off))
    (lawful : T.lawful) :
    RxTamed T .plain m.startRx.2 ∧ (m.startRx.1 = .ok () → m.startRx.2.toScene.Begins) := by
  obtain ⟨n, r, p, bs, guard⟩ := h.guarded
  obtain ⟨⟨n', started, -⟩, begins⟩ := (guard.here True).restart trivial
  exact ⟨h.follow lawful started, begins lawful⟩

/-- What happens between two starts. -/
theorem use (h : RxTamed T .plain m) (lawful : T.lawful) (act : RxUse T.permits T.place m m') :
    RxTamed T .plain m' := by
  obtain ⟨n, r, p, bs, guard⟩ := h.guarded
  obtain ⟨n', next⟩ := act.course (T := T.track True m) (guard.here True)
  exact h.follow lawful next

theorem run (h : RxTamed T .plain m) (lawful : T.lawful)
    (run : ReflTransGen (RxUse T.permits T.place) m m') : RxTamed T .plain m' := by
  induction run with
  | refl => exact h
  | tail _ act ih => exact ih.use lawful act

end RxTamed

namespace RxBetween

theorem seen (h : RxBetween T m) : RxSeen m := by
  cases h with
  | fresh h => exact h.seen
  | tamed h => exact h.seen

/-- **Either way the direction can be switched off.** -/
theorem silence (h : RxBetween T m) (lawful : T.lawful) :
    RxTamed T .silenced (m.write .rxDmaControl DmaControl.off) := by
  cases h with
  | fresh h => exact h.silence
  | tamed h =>
    obtain ⟨n, r, p, bs, guard⟩ := h.guarded
    exact h.follow lawful ((guard.here True).switchOff trivial)

theorem use (h : RxBetween T m) (lawful : T.lawful) (act : RxUse T.permits T.place m m') :
    RxBetween T m' := by
  cases h with
  | tamed h => exact .tamed (h.use lawful act)
  | fresh h =>
    cases act with
    | advance => rw [h.advanceRx_eq]; exact .fresh h
    | holding act => exact .fresh (h.holding act)
    | plan permitted => exact .fresh (h.plan permitted)

/-- The ring is cancelled. -/
theorem cancel (h : RxBetween T m) (lawful : T.lawful) : RxBetween T m.cancelRx := by
  cases first : m.rx.any RxRing.isCancelled with
  | true =>
    rw [Machine.cancelRx, if_pos first]
    exact h
  | false =>
    have silenced := h.silence lawful
    obtain ⟨n, r, p, bs, guard⟩ := silenced.guarded
    exact .tamed (silenced.follow lawful ((guard.here True).recancel first))

theorem request (h : RxBetween T m) (lawful : T.lawful) (act : RxRequest T.permits T.place m m') :
    RxBetween T m' := by
  cases act with
  | start => exact .tamed ((h.silence lawful).start lawful).1
  | cancel => exact h.cancel lawful
  | advance abides => exact h.use lawful (.advance m abides)
  | holding act => exact h.use lawful (.holding act)
  | plan permitted => exact h.use lawful (.plan m permitted)

theorem run (h : RxBetween T m) (lawful : T.lawful)
    (run : ReflTransGen (RxRequest T.permits T.place) m m') : RxBetween T m' := by
  induction run with
  | refl => exact h
  | tail _ act ih => exact ih.request lawful act

end RxBetween

/-- A new ring over a new pool is where a run begins. -/
theorem Machine.NewRx.fresh (new : m.NewRx T.place T.size.slots)
    (planned : Machine.Permitted T.permits m.agenda) (goes : m.adapter.rxSlots = T.size.slots)
    (apart : ∀ p, m.poolAt? T.place = some p → p.Apart m.memory) : RxFresh T m := by
  obtain ⟨n, ⟨r, p, bs, guard⟩, -⟩ :=
    Machine.NewRx.idle (T := T.lax) new planned fun lawful => lawful.elim
  refine ⟨⟨n, r, p, bs, guard⟩, ⟨goes, p, guard.pool, apart p guard.pool⟩, fun q rx => ?_,
    new.frames, new.handles, ?_, ?_⟩
  · obtain ⟨_, _, r', made, rx'⟩ := new.made
    obtain rfl := Option.some.inj (rx.symm.trans rx')
    exact RxRing.phase_create made
  · refine ⟨[], new.moments, fun s hs => ?_⟩
    rw [mem_singleton.mp hs]
    exact Scene.showsDelivered_of_empty new.frames
  · exact ⟨[], new.moments, .singleton _⟩

end

/-! ## In order, and complete -/

/-- **Frames come in order and none is missing**: what was shown since a moment, followed by what
has arrived and was not passed yet, is all that has arrived since.  At that moment there were `n`
events, and the hardware was `start`. -/
structure Scene.InOrder (s : Scene) (start : Hardware) (n : Nat) (r : RxRing) (p : BufferPool) :
    Prop where
  /-- The events since then account for what has become of the hardware. -/
  replayed : start.afterAll (s.journal.since n) = s.hardware
  /-- What was not passed yet has arrived since then. -/
  since : (s.adapter.counter .rxConsumer).past r.consumer ≤
    (start.arrivals (s.journal.since n)).length
  /-- Only frames that are to be shown matter, and of those the payloads. -/
  payloads : s.journal.shownSince n ++
      ((start.arrivals (s.journal.since n)).rtake
        ((s.adapter.counter .rxConsumer).past r.consumer)).filterMap
          (Arrival.payload? r.pad p.bufferSize) =
    (start.arrivals (s.journal.since n)).filterMap (Arrival.payload? r.pad p.bufferSize)

section

variable {T : RxTerms} {m m' : Machine} {n k : Nat} {start : Hardware}

/-- Just after a start there is nothing on its way. -/
theorem rxFlowing_of_begins (h : RxTamed T .plain m) (begins : m.toScene.Begins) :
    RxFlowing T m.toScene.hardware m.journal.events.size (.nothing, m) := by
  obtain ⟨-, p, pool, -⟩ := h.ground
  obtain ⟨on, r, rx, counter⟩ := begins
  refine ⟨r, p, [], [], [], rx, pool, .now m, on, ?_, fun k arrival hk => ?_, rfl⟩
  · show 0 = (m.adapter.counter .rxConsumer).past r.consumer
    rw [counter, Counter.past_self]
  · exact absurd hk.symm (Option.some_ne_none arrival)

/-- **Until the direction is switched the frames keep their order.** -/
theorem RxFlowing.run (h : RxFlowing T start k (.nothing, m)) (lawful : T.lawful)
    (tamed : RxTamed T .plain m) (run : ReflTransGen (RxUse T.permits T.place) m m') :
    RxFlowing T start k (.nothing, m') := by
  induction run with
  | refl => exact h
  | @tail m₁ m₂ before act flowing =>
    have tamed₁ := tamed.run lawful before
    obtain ⟨n, r, p, bs, guard⟩ := tamed₁.guarded
    obtain ⟨n', -, run⟩ := act.course (T := T.track False m₁) (guard.here False)
    let Inv (c : Taking × Machine) : Prop := RxGround T c ∧ RxFlowing T start k c
    have keeps (c c' : Taking × Machine) (step : RxStep T False c c') (inv : Inv c) : Inv c' :=
      ⟨step.ground inv.1, step.flows lawful inv.1 inv.2⟩
    exact (Machine.inv_of_steps Inv keeps run ⟨tamed₁.ground, flowing⟩).2

/-- With nothing in hand, what waits is what was not passed yet. -/
theorem RxFlowing.inOrder (h : RxFlowing T start k (.nothing, m)) (tamed : RxTamed T .plain m) :
    m.toScene.RingOver T.place T.size.slots (m.toScene.InOrder start k) := by
  obtain ⟨n, r, p, bs, guard⟩ := tamed.guarded
  obtain ⟨q, o, past, hand, waiting, rx, pool, since, flow⟩ := h
  obtain rfl := Option.some.inj (guard.rx.symm.trans rx)
  obtain rfl := Option.some.inj (guard.pool.symm.trans pool)
  obtain rfl : hand = [] := flow.taking
  have length : (m.adapter.counter .rxConsumer).past r.consumer = waiting.length :=
    flow.length.symm
  have arrived : start.arrivals (m.journal.since k) = past ++ waiting := by
    rw [since.arrived, append_nil]
  refine guard.ringOver ⟨since.hardware, ?_, ?_⟩
  · rw [length, arrived, length_append]
    exact Nat.le_add_left _ _
  · have unread : (past ++ waiting).rtake waiting.length = waiting := by
      rw [rtake, length_append, Nat.add_sub_cancel, drop_left]
    rw [length, arrived, unread, since.shown, filterMap_append]

end

/-- **Frames are delivered in order.**  A new ring over a new pool is used in any way, with an
adapter that goes round the ring and keeps the law of the receive direction, and no two buffers of
the pool lie in one block.  Then at every moment each frame that the upper layer holds shows what it
was delivered with, and stays as it is until it goes.  If the ring is then started with success,
frames are delivered in the order of their arrival, and all of them, until it is started or
cancelled again. -/
theorem frames_are_delivered_in_order {place slots : Nat} {m₀ m : Machine}
    (new : m₀.NewRx place slots) (goes : m₀.adapter.rxSlots = slots)
    (apart : ∀ p, m₀.poolAt? place = some p → p.Apart m₀.memory)
    (planned : Machine.Permitted (Move.Lawful .rx) m₀.agenda)
    (run : ReflTransGen (RxRequest (Move.Lawful .rx) place) m₀ m) :
    m.Throughout Scene.ShowsDelivered ∧ m.Successive Scene.KeepsFrames ∧
      (m.startRx.1 = .ok () → ∀ m', ReflTransGen (RxUse (Move.Lawful .rx) place) m.startRx.2 m' →
        m'.toScene.RingOver place slots (m'.toScene.InOrder m.startRx.2.toScene.hardware
          m.startRx.2.journal.events.size)) := by
  obtain ⟨_, _, r, made, -⟩ := new.made
  obtain ⟨-, -, rfl⟩ := RxRing.holds_create made
  let T : RxTerms := ⟨place, r.size, Move.Lawful .rx, True, fun _ _ lawful => lawful⟩
  have fresh : RxFresh T m₀ := Machine.NewRx.fresh (T := T) new planned goes apart
  have between : RxBetween T m := (RxBetween.fresh fresh).run trivial run
  obtain ⟨shows, keeps⟩ := between.seen
  refine ⟨shows, keeps, fun ok m' uses => ?_⟩
  obtain ⟨started, begins⟩ := (between.silence trivial).start trivial
  have flowing := (rxFlowing_of_begins started (begins ok)).run (T := T) trivial started uses
  exact flowing.inOrder (started.run (T := T) trivial uses)

/-- A machine with a new receive ring over a new pool, whose blocks have been granted. -/
def Machine.withBuffers (size : RingSize) (buffers : Nat) : Machine :=
  { Machine.withRx size buffers with
    memory := Memory.grantAll {} ⟨Config.defaultBufferSize, Config.defaultBufferAlign⟩
      ((range buffers).map fun k => .ofNat (Config.defaultBufferSize * k)) }

theorem Machine.newRx_withBuffers (size : RingSize) {buffers : Nat}
    (named : buffers ≤ Config.maxBuffers) :
    (Machine.withBuffers size buffers).NewRx 0 size.slots := by
  obtain ⟨made, pool, frames, handles, complete, moments⟩ := Machine.newRx_withRx size named
  exact ⟨made, pool, frames, handles, complete, moments⟩

theorem Machine.apart_withBuffers (size : RingSize) {buffers : Nat}
    (named : buffers ≤ Config.maxBuffers) (p : BufferPool)
    (pool : (Machine.withBuffers size buffers).poolAt? 0 = some p) :
    p.Apart (Machine.withBuffers size buffers).memory := by
  obtain rfl := Option.some.inj pool
  refine BufferPool.apart_ofAddresses 1 _ (Memory.names_grantAll _ ?_)
  refine nodup_range.map_on fun i hi j hj same => ?_
  have few : buffers ≤ 65535 := named
  have small (k : Nat) (hk : k ∈ range buffers) : Config.defaultBufferSize * k < UInt64.size := by
    have := mem_range.mp hk
    unfold Config.defaultBufferSize UInt64.size
    omega
  have words := congrArg (fun a : BusAddress => a.value.toNat) same
  dsimp only [BusAddress.ofNat] at words
  rw [UInt64.toNat_ofNat_of_lt' (small i hi), UInt64.toNat_ofNat_of_lt' (small j hj)] at words
  exact Nat.eq_of_mul_eq_mul_left (by decide) words

/-- One frame is held, and the ring is cancelled and started again.  Then one frame is broken, one
is shown, and one has arrived in the meantime. -/
theorem frames_are_delivered_in_order_restarted :
    ∃ m m', ReflTransGen (RxRequest (Move.Lawful .rx) 0) (.withBuffers ⟨4, by decide⟩ 4) m ∧
      m.frames.size = 1 ∧ m.startRx.1 = .ok () ∧
      ReflTransGen (RxUse (Move.Lawful .rx) 0) m.startRx.2 m' ∧
      (m.startRx.2.toScene.hardware.arrivals
        (m'.journal.since m.startRx.2.journal.events.size)).length = 3 ∧
      m'.journal.shownSince m.startRx.2.journal.events.size = [[4, 5, 6]] ∧
      m.Throughout Scene.ShowsDelivered ∧ m.Successive Scene.KeepsFrames ∧
        m'.toScene.RingOver 0 4 (m'.toScene.InOrder m.startRx.2.toScene.hardware
          m.startRx.2.journal.events.size) := by
  let fill (data : List UInt8) (status : UInt32) : Move := .fill ⟨data, 2, 5, status⟩
  have lawful (data : List UInt8) (status : UInt32) : (fill data status).Lawful .rx :=
    Move.lawful_fill _
  have planned : Machine.Permitted (Move.Lawful .rx) [[], [fill [7, 8, 9] RxStatus.wholeFrame]] := by
    intro moves h mv hmv
    rcases mem_pair.mp h with rfl | rfl
    · exact absurd hmv not_mem_nil
    · rw [mem_singleton.mp hmv]
      exact lawful _ _
  let held : Machine := ((Machine.withBuffers ⟨4, by decide⟩ 4).startRx.2.move
    (fill [1, 2, 3] RxStatus.wholeFrame)).advanceRx { disposal := fun _ => .hold } |>.machine
  have run : ReflTransGen (RxRequest (Move.Lawful .rx) 0) (.withBuffers ⟨4, by decide⟩ 4)
      held.cancelRx :=
    ReflTransGen.refl
      |>.tail (.start _)
      |>.tail (.holding (.move _ (lawful [1, 2, 3] RxStatus.wholeFrame)))
      |>.tail (.advance _ fun _ h => absurd h not_mem_nil)
      |>.tail (.cancel _)
  have started : held.cancelRx.startRx.1 = .ok () := by decide +kernel
  have uses : ReflTransGen (RxUse (Move.Lawful .rx) 0) held.cancelRx.startRx.2 _ :=
    ReflTransGen.refl
      |>.tail (.holding (.move _ (lawful [0, 0, 0] RxStatus.crcError)))
      |>.tail (.holding (.move _ (lawful [4, 5, 6] RxStatus.wholeFrame)))
      |>.tail (.plan _ planned)
      |>.tail (.advance _ (Upper.abides_silent _))
  have claim := frames_are_delivered_in_order
    (Machine.newRx_withBuffers ⟨4, by decide⟩ (by decide)) rfl
    (Machine.apart_withBuffers ⟨4, by decide⟩ (by decide)) (fun _ h => absurd h not_mem_nil) run
  exact ⟨_, _, run, by decide +kernel, started, uses, by decide +kernel, by decide +kernel,
    claim.1, claim.2.1, claim.2.2 started _ uses⟩

end DescriptorRings
