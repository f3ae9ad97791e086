import DescriptorRings.Proofs.Receive.Flow
import DescriptorRings.Proofs.Receive.Hands

/-!
# Frames in the hands of the upper layer

A frame that the upper layer holds is shown in the buffer that it arrived in, and nobody has copied
it.  What keeps it as it is, is the ledger of the pool: as long as the handle of the frame is out,
the buffer is delivered, so it is in no slot of the window, and an adapter inside the window does
not write to it.

Of two moments that follow one another this is `Scene.KeepsFrames`; of one moment by itself it is
that a held frame shows the bytes with which it was delivered (`Scene.ShowsDelivered`).
-/

namespace DescriptorRings

open List

/-! ## Held frames -/

namespace Scene

/-- The frame held at a place. -/
def frameAt? (s : Scene) (i : Nat) : Option Frame := s.frames.getD i none

/-- **A held frame stays as it is** until it is dropped or detached, and then its place stays empty.
-/
structure KeepsFrames (s s' : Scene) : Prop where
  /-- Places are not taken away. -/
  places : s.frames.size ≤ s'.frames.size
  /-- An empty place stays empty. -/
  vacant : ∀ i < s.frames.size, s.frameAt? i = none → s'.frameAt? i = none
  /-- A frame goes, or shows the same bytes. -/
  held : ∀ i f, s.frameAt? i = some f →
    s'.frameAt? i = none ∨ s'.frameAt? i = some f ∧ f.bytes s'.memory = f.bytes s.memory

/-- Each frame that is held shows the bytes with which it was delivered. -/
def ShowsDelivered (s : Scene) : Prop :=
  ∀ i f, s.frameAt? i = some f → .delivered f (f.bytes s.memory) ∈ s.journal.events.toList

theorem lt_of_frameAt? {s : Scene} {i : Nat} {f : Frame} (held : s.frameAt? i = some f) :
    i < s.frames.size := by
  by_contra outside
  rw [frameAt?, Array.getD_eq_getD_getElem?, Array.getElem?_eq_none (Nat.le_of_not_lt outside)]
    at held
  exact Option.some_ne_none f held.symm

theorem KeepsFrames.refl (s : Scene) : s.KeepsFrames s :=
  ⟨Nat.le_refl _, fun _ _ vacant => vacant, fun _ _ held => .inr ⟨held, rfl⟩⟩

theorem KeepsFrames.trans {s s' s'' : Scene} (h : s.KeepsFrames s') (h' : s'.KeepsFrames s'') :
    s.KeepsFrames s'' := by
  refine ⟨h.places.trans h'.places, fun i hi vacant => ?_, fun i f held => ?_⟩
  · exact h'.vacant i (hi.trans_le h.places) (h.vacant i hi vacant)
  · rcases h.held i f held with gone | ⟨held', same⟩
    · exact .inl (h'.vacant i ((lt_of_frameAt? held).trans_le h.places) gone)
    · rcases h'.held i f held' with gone | ⟨held'', same'⟩
      · exact .inl gone
      · exact .inr ⟨held'', same'.trans same⟩

/-- The frames are left alone, and so are the bytes that they show. -/
theorem KeepsFrames.of_frames_eq {s s' : Scene} (frames : s'.frames = s.frames)
    (bytes : ∀ i f, s.frameAt? i = some f → f.bytes s'.memory = f.bytes s.memory) :
    s.KeepsFrames s' := by
  have same (i : Nat) : s'.frameAt? i = s.frameAt? i := by rw [frameAt?, frames, frameAt?]
  refine ⟨by rw [frames], fun i _ vacant => ?_, fun i f held => .inr ⟨?_, bytes i f held⟩⟩
  · rw [same, vacant]
  · rw [same, held]

/-- Where no frame is held there is nothing to be kept. -/
theorem keepsFrames_of_empty {s s' : Scene} (empty : s.frames = #[]) : s.KeepsFrames s' := by
  refine ⟨by simp [empty], fun i hi => ?_, fun i f held => ?_⟩
  · rw [empty] at hi
    exact absurd hi (Nat.not_lt_zero i)
  · rw [frameAt?, empty] at held
    exact absurd held (Option.some_ne_none f).symm

theorem showsDelivered_of_empty {s : Scene} (empty : s.frames = #[]) : s.ShowsDelivered := by
  intro i f held
  rw [frameAt?, empty] at held
  exact absurd held (Option.some_ne_none f).symm

end Scene

/-! ## Why they stay as they are -/

/-- A frame that is out: it lies in a buffer of the pool, and shows what it was delivered with. -/
structure Frame.Out (f : Frame) (p : BufferPool) (m : Machine) : Prop where
  /-- It lies in the buffer of its handle. -/
  address : f.address = p.base f.handle.buffer
  /-- The buffer belongs to the pool. -/
  inside : f.handle.buffer.index < p.capacity
  /-- Its bytes are those of the delivery. -/
  delivered : .delivered f (f.bytes m.memory) ∈ m.journal.events.toList

/-- The frames that the upper layer has, and the one that it is shown just now. -/
structure RxShowing (T : RxTerms) (c : Taking × Machine) : Prop where
  /-- The frames that it holds. -/
  held : ∀ p, c.2.poolAt? T.place = some p → ∀ i f, c.2.frameAt? i = some f → f.Out p c.2
  /-- The frame that it is shown, which does not lie in a buffer of the window. -/
  shown : ∀ r p f, c.2.rx = some r → c.2.poolAt? T.place = some p → c.1 = .shown f →
    f.Out p c.2 ∧ f.handle.buffer ∉ r.held

section

variable {T : RxTerms} {x : RxStage} {g : Hands} {m m' : Machine} {r r' : RxRing}
  {p p' : BufferPool} {bs : List BufferId} {t t' : Taking} {f : Frame}

/-- The frame is out in another pool and after other events. -/
theorem Frame.Out.later (h : f.Out p m) (kept : p.Kept p')
    (bytes : f.bytes m'.memory = f.bytes m.memory)
    (events : ∀ e ∈ m.journal.events.toList, e ∈ m'.journal.events.toList) : f.Out p' m' := by
  refine ⟨h.address.trans (kept.base _).symm, ?_, ?_⟩
  · rw [kept.capacity]
    exact h.inside
  · rw [bytes]
    exact events _ h.delivered

theorem RxGuard.notMem_of_frameAt? (h : RxGuard T x g m r p bs) {i : Nat}
    (held : m.frameAt? i = some f) : f.handle.buffer ∉ bs := by
  have mem : some f ∈ m.frames.toList := mem_of_getElem? (Machine.getElem?_of_frameAt? held)
  refine h.notMem_of_out (mem_append_right _ (mem_append_left _ (mem_map_of_mem ?_)))
  exact mem_filterMap.mpr ⟨some f, mem, rfl⟩

/-- **A move of the adapter is not seen in a buffer outside the window.** -/
theorem RxGuard.bytes_move (h : RxGuard T x g m r p bs) (lawful : T.lawful)
    (goes : m.adapter.rxSlots = r.size.slots) (apart : p.Apart m.memory) {mv : Move}
    (permitted : T.permits mv) (out : f.Out p m) (absent : f.handle.buffer ∉ bs) :
    f.bytes (m.adapter.store mv m.memory) = f.bytes m.memory := by
  cases filled : m.adapter.filled? mv with
  | none => rw [(Adapter.move_of_filled?_eq_none filled).2]
  | some frame =>
    have fillable := (T.law lawful mv permitted).fillable filled
    obtain ⟨b, d, next⟩ := h.receiving lawful goes fillable
    have ne : f.handle.buffer ≠ b := fun same => absent (same ▸ mem_of_getElem? next.place)
    rw [(Adapter.move_of_filled? filled).2, Frame.bytes, Frame.bytes, out.address,
      next.load_storeFrame h apart out.inside ne frame]

/-- A step with an event that leaves the bytes of all frames alone. -/
theorem RxShowing.record (h : RxShowing T (t, m)) (guard : RxGuard T x g m r p bs) {k : Machine}
    {e : Event} {a : Adapter} {mem : Memory}
    (same : k.toScene = { m.toScene with adapter := a, memory := mem })
    (bytes : ∀ f : Frame, f.Out p m → f.handle.buffer ∉ bs → f.bytes mem = f.bytes m.memory)
    (shown : ∀ f, t' = .shown f → t = .shown f) :
    m.toScene.KeepsFrames (k.record e).toScene ∧ RxShowing T (t', k.record e) := by
  have scene : (k.record e).toScene =
      { m.toScene with adapter := a, memory := mem, journal := m.journal.add e } := by
    rw [Machine.toScene_record, same]
  have memory : (k.record e).memory = mem := by rw [scene]
  have events (e' : Event) (he' : e' ∈ m.journal.events.toList) :
      e' ∈ (k.record e).journal.events.toList := by
    have journal : (k.record e).journal = m.journal.add e := by rw [scene]
    rw [journal, Journal.toList_events_add guard.complete]
    exact mem_append_left _ he'
  have frameAt (i : Nat) : (k.record e).frameAt? i = m.frameAt? i := by
    have frames : (k.record e).frames = m.frames := by rw [scene]
    rw [Machine.frameAt?, frames, Machine.frameAt?]
  have kept (i : Nat) (f : Frame) (held : m.frameAt? i = some f) :
      f.bytes (k.record e).memory = f.bytes m.memory := by
    rw [memory]
    exact bytes f (h.held p guard.pool i f held) (guard.notMem_of_frameAt? held)
  have pool (q : BufferPool) (hq : (k.record e).poolAt? T.place = some q) : q = p := by
    have pools : (k.record e).pools = m.pools := by rw [scene]
    rw [Machine.poolAt?, pools] at hq
    exact Option.some.inj (hq.symm.trans guard.pool)
  have rx (q : RxRing) (hq : (k.record e).rx = some q) : q = r := by
    rw [scene] at hq
    exact Option.some.inj (hq.symm.trans guard.rx)
  refine ⟨.of_frames_eq (by rw [scene]) kept, fun q hq i f held => ?_, fun q o f hq ho ht => ?_⟩
  · obtain rfl := pool q hq
    have held : m.frameAt? i = some f := (frameAt i).symm.trans held
    exact (h.held q guard.pool i f held).later (.refl q) (kept i f held) events
  · obtain rfl := rx q hq
    obtain rfl := pool o ho
    obtain ⟨out, absent⟩ := h.shown q o f guard.rx guard.pool (shown f ht)
    refine ⟨out.later (.refl o) ?_ events, absent⟩
    rw [memory]
    exact bytes f out fun here => absent (guard.holds.held.mem_iff.mpr here)

/-- A step without an event that leaves the memory alone. -/
theorem RxShowing.still (h : RxShowing T (t, m)) (guard : RxGuard T x g m r p bs)
    (memory : m'.memory = m.memory) (journal : m'.journal = m.journal)
    (pool : m'.poolAt? T.place = some p') (kept : p.Kept p') (rx : m'.rx = some r')
    (places : m'.frames.size = m.frames.size)
    (frames : ∀ i f, m'.frameAt? i = some f → m.frameAt? i = some f)
    (shown : ∀ f, t' = .shown f → t = .shown f ∧ r'.held = r.held) :
    m.toScene.KeepsFrames m'.toScene ∧ RxShowing T (t', m') := by
  have later (f : Frame) (out : f.Out p m) : f.Out p' m' :=
    out.later kept (by rw [memory]) fun _ he => by rwa [journal]
  refine ⟨⟨places.ge, fun i _ vacant => ?_, fun i f held => ?_⟩, fun q hq i f held => ?_,
    fun q o f hq ho ht => ?_⟩
  · have vacant : m.frameAt? i = none := vacant
    show m'.frameAt? i = none
    cases now : m'.frameAt? i with
    | none => rfl
    | some f => exact absurd (vacant.symm.trans (frames i f now)) (Option.some_ne_none f).symm
  · have held : m.frameAt? i = some f := held
    show m'.frameAt? i = none ∨ m'.frameAt? i = some f ∧ _
    cases now : m'.frameAt? i with
    | none => exact .inl rfl
    | some f' =>
      obtain rfl := Option.some.inj (held.symm.trans (frames i f' now))
      exact .inr ⟨rfl, by rw [memory]⟩
  · obtain rfl := Option.some.inj (hq.symm.trans pool)
    exact later f (h.held p guard.pool i f (frames i f held))
  · obtain rfl := Option.some.inj (hq.symm.trans rx)
    obtain rfl := Option.some.inj (ho.symm.trans pool)
    obtain ⟨was, held⟩ := shown f ht
    obtain ⟨out, absent⟩ := h.shown r p f guard.rx guard.pool was
    exact ⟨later f out, by rwa [held]⟩

/-- The frame that is shown is held. -/
theorem RxShowing.hold (h : RxShowing T (.shown f, m)) (rx : m.rx = some r)
    (pool : m.poolAt? T.place = some p) :
    m.toScene.KeepsFrames (Machine.toScene { m with frames := m.frames.push (some f) }) ∧
      RxShowing T (.nothing, { m with frames := m.frames.push (some f) }) := by
  obtain ⟨out, -⟩ := h.shown r p f rx pool rfl
  set m' : Machine := { m with frames := m.frames.push (some f) }
  have places : m'.frames.size = m.frames.size + 1 := Array.size_push (some f)
  have old {i : Nat} (hi : i < m.frames.size) : m'.frameAt? i = m.frameAt? i := by
    show (m.frames.push (some f)).getD i none = m.frames.getD i none
    rw [Array.getD_eq_getD_getElem?, Array.getElem?_push_lt hi, Array.getD_eq_getD_getElem?,
      Array.getElem?_eq_getElem hi]
  have new : m'.frameAt? m.frames.size = some f := by
    show (m.frames.push (some f)).getD m.frames.size none = some f
    rw [Array.getD_eq_getD_getElem?, Array.getElem?_push_size]
    rfl
  have later {f' : Frame} (out : f'.Out p m) : f'.Out p m' :=
    out.later (.refl p) rfl fun _ he => he
  refine ⟨⟨?_, fun i hi vacant => ?_, fun i f' held => .inr ⟨?_, rfl⟩⟩,
    fun q hq i f' held => ?_, fun _ _ _ _ _ => Taking.noConfusion⟩
  · exact places ▸ Nat.le_succ _
  · exact (old hi).trans vacant
  · exact (old (Scene.lt_of_frameAt? held)).trans held
  · obtain rfl := Option.some.inj (hq.symm.trans pool)
    have inside : i < m.frames.size + 1 := places ▸ Scene.lt_of_frameAt? held
    rcases Nat.lt_succ_iff_lt_or_eq.mp inside with hi | rfl
    · exact later (h.held q pool i f' ((old hi).symm.trans held))
    · obtain rfl := Option.some.inj (held.symm.trans new)
      exact later out

end

/-! ## Steps -/

/-- **Every step keeps the frames that the upper layer has.** -/
theorem RxStep.shows {T : RxTerms} {switches : Prop} (lawful : T.lawful) {c c' : Taking × Machine}
    (step : RxStep T switches c c') (ground : RxGround T c) (h : RxShowing T c) :
    c.2.toScene.KeepsFrames c'.2.toScene ∧ RxShowing T c' := by
  obtain @⟨x, x', g, g', m, m', r, r', p, p', bs, bs', t, t', source, target, change⟩ := step
  obtain ⟨goes, o, pool, apart⟩ := ground
  obtain rfl := Option.some.inj (source.pool.symm.trans pool)
  rw [← source.size] at goes
  have rx := source.rx
  cases change with
  | move _ permitted =>
    exact h.record source rfl
      (fun f out absent => source.bytes_move lawful goes apart permitted out absent) fun _ => id
  | note => exact h.record source rfl (fun _ _ _ => rfl) fun _ => id
  | reply => exact h.record source rfl (fun _ _ _ => rfl) fun _ => id
  | write => exact h.record source rfl (fun _ _ _ => rfl) fun _ => id
  | writeTx => exact h.record source rfl (fun _ _ _ => rfl) fun _ => id
  | ring => exact h.record source rfl (fun _ _ _ => rfl) fun _ => id
  | switch => exact h.record source rfl (fun _ _ _ => rfl) fun _ => id
  | describe => exact h.record source rfl (fun _ _ _ => rfl) fun _ => id
  | post kept =>
    exact h.still source rfl rfl (Machine.poolAt?_setPool pool) kept rfl rfl (fun _ _ => id)
      fun _ => Taking.noConfusion
  | clear kept =>
    exact h.still source rfl rfl (Machine.poolAt?_setPool pool) kept rfl rfl (fun _ _ => id)
      fun _ => Taking.noConfusion
  | resync =>
    exact h.still source rfl rfl pool (.refl _) rfl rfl (fun _ _ => id) fun _ => Taking.noConfusion
  | pass =>
    exact h.still source rfl rfl pool (.refl _) rfl rfl (fun _ _ => id) fun _ => Taking.noConfusion
  | take => exact h.record source rfl (fun _ _ _ => rfl) fun _ => Taking.noConfusion
  | reject =>
    exact h.still source rfl rfl pool (.refl _) rx rfl (fun _ _ => id) fun _ => Taking.noConfusion
  | @deliver b c f whole shows inside absent =>
    obtain ⟨keeps, showing⟩ : _ ∧ RxShowing T (.nothing, m.record _) :=
      h.record source (k := m) (e := .delivered f (f.bytes m.memory)) rfl (fun _ _ _ => rfl)
        fun _ => Taking.noConfusion
    refine ⟨keeps, showing.held, fun q o f' hq ho ht => ?_⟩
    obtain rfl := Taking.shown.inj ht
    obtain rfl := Option.some.inj (hq.symm.trans ((congrArg Scene.rx (m.toScene_record _)).trans rx))
    obtain rfl := Option.some.inj (ho.symm.trans ((m.poolAt?_record _ _).trans pool))
    refine ⟨⟨?_, ?_, ?_⟩, fun here => absent ?_⟩
    · rw [shows.address, shows.buffer]
    · rw [shows.buffer]
      exact inside
    · rw [Machine.toScene_record, Journal.toList_events_add source.complete]
      exact mem_append_right _ mem_cons_self
    · rw [shows.buffer] at here
      exact source.holds.held.mem_iff.mp here
  | settle =>
    exact h.still source rfl rfl pool (.refl _) rx rfl (fun _ _ => id) fun _ => Taking.noConfusion
  | hold f => exact h.hold rx pool
  | aside _ aside =>
    obtain ⟨r', rx', alike⟩ := aside.rx
    obtain ⟨p', pool', kept⟩ := aside.pool
    refine h.still source aside.memory aside.journal pool' kept rx' aside.places aside.frames
      fun f ht => ⟨ht, ?_⟩
    rw [RxRing.held, alike.slots, RxRing.held]

end DescriptorRings
