import DescriptorRings.Proofs.Receive.Steps

/-!
# Buffers on their way

A buffer is acquired, posted, passed, and then delivered or taken back; a delivered one comes back
when its frame is dropped or its handle is used.  Each of these takes a buffer from one place to
another, and there is one lemma here for each.  It says that the action succeeds, which is never in
question as long as the guard holds, and what the driver has in its hands afterwards.

An action on the pool has no event, so the guard passes from one machine to the next without a
moment in between.  Posting is the exception: the descriptor is written first, and the buffer joins
the window afterwards.  At the moment of the write the slot behind the window has the address
already, but the window, and the doorbell, are still what they were.
-/

namespace DescriptorRings

open List

section

variable {T : RxTerms} {x : RxStage} {g : Hands} {m : Machine} {r : RxRing} {p p' : BufferPool}
  {bs : List BufferId} {b : BufferId} {batch transit : List BufferId} {fresh : List ReturnHandle}

namespace RxGuard

/-! ## Edges of the pool -/

/-- Another pool takes the place of the pool: some buffers have changed hands. -/
theorem trade (h : RxGuard T x g m r p bs) (kept : p.Kept p')
    (ledger : p'.Ledger batch (bs ++ transit) (fresh ++ m.toScene.out)) :
    RxGuard T x { g with batch := batch, transit := transit, fresh := fresh }
      (m.setPool T.place p') r p' bs where
  rx := h.rx
  pool := Machine.poolAt?_setPool h.pool
  place := h.place
  size := h.size
  complete := h.complete
  planned := h.planned
  holds := h.holds
  filled := h.filled
  ledger := ledger
  frames := h.frames
  due := h.due
  table := by
    have same : bs.map p'.base = bs.map p.base := map_congr_left fun b _ => kept.base b
    rw [same]
    exact h.table
  knows := h.knows
  window lawful on := by
    have window := h.window lawful on
    exact ⟨window.running, window.producer, window.within⟩

/-! ## Slots -/

/-- The oldest buffer leaves the window, if its completion was due. -/
theorem pass {due : Nat} (h : RxGuard T .plain { g with due := due + 1 } m r p (b :: bs))
    (t : Taking) :
    RxGuard T .plain
      { g with filled := g.filled - 1, due := due, transit := b :: g.transit, taking := t }
      (m.setRx r.pass) r.pass p bs := by
  have filled : bs.length + 1 = g.filled := h.filled
  have enough : due + 1 ≤ g.filled := h.due
  refine ⟨rfl, h.pool, h.place, h.size, h.complete, h.planned, h.holds.pass, ?_, ?_, h.frames, ?_,
    ?_, fun _ => trivial, fun lawful on => ?_⟩
  · show bs.length = g.filled - 1
    omega
  · exact h.ledger.perm (.refl _) perm_middle.symm (.refl _)
  · show due ≤ g.filled - 1
    omega
  · have table : Counter.Spread r.size m.adapter.rxAddress? r.consumer
        ([p.base b] ++ bs.map p.base) := h.table
    exact table.drop
  · have window := h.window lawful on
    have within : m.adapter.ahead .rx + g.unrung + (due + 1) ≤ g.filled := window.within
    refine ⟨window.running, window.producer, ?_⟩
    show m.adapter.ahead .rx + g.unrung + due ≤ g.filled - 1
    omega

/-- The address of a buffer is written into the slot behind the window. -/
theorem pokeRx (h : RxGuard T x g m r p bs) (b : BufferId) (capacity : UInt32) :
    RxGuard T x g (m.pokeRx r.tailSlot (p.base b) capacity) r p bs ∧
      Counter.Spread r.size (m.adapter.writeRx r.tailSlot (p.base b) capacity).rxAddress? r.consumer
        ((bs ++ [b]).map p.base) := by
  have tail : (r.consumer.advance (bs.map p.base).length).slot r.size.slots = r.tailSlot := by
    rw [length_map, ← h.holds.producer, RxRing.tailSlot]
  have table : Counter.Spread r.size
      (m.adapter.writeRx r.tailSlot (p.base b) capacity).rxAddress? r.consumer
      (bs.map p.base ++ [p.base b]) := by
    refine h.table.concat ?_ ?_ fun s hs => ?_
    · rw [length_map]
      exact h.holds.length_lt
    · rw [tail]
      exact Adapter.rxAddress?_writeRx_self _ _ _ _
    · rw [tail] at hs
      exact Adapter.rxAddress?_writeRx_of_ne _ hs _ _
  refine ⟨?_, ?_⟩
  · refine h.rewire (Machine.toScene_pokeRx m _ _ _) ?_ ?_ table.take h.due ?_ ?_
    · rw [Journal.detail_add]
      exact h.complete
    · rw [Machine.pokeRx, Machine.agenda_record]
      exact h.planned
    · exact h.knows
    · intro lawful on
      have window := h.window lawful on
      exact ⟨window.running, window.producer, window.within⟩
  · rw [map_append]
    exact table

/-- Then the ring counts the buffer as posted, and the doorbell is one behind. -/
theorem post (h : RxGuard T x { g with batch := b :: batch } m r p bs)
    (fits : bs.length < r.capacity)
    (table : Counter.Spread r.size m.adapter.rxAddress? r.consumer ((bs ++ [b]).map p.base))
    (stays : x.Knows m.adapter r → x.Knows m.adapter (r.post b)) :
    RxGuard T x { g with batch := batch, filled := g.filled + 1, unrung := g.unrung + 1 }
      ((m.setPool T.place (p.move b .posted)).setRx (r.post b)) (r.post b) (p.move b .posted)
      (bs ++ [b]) := by
  have traded := h.trade (p.kept_move b .posted)
    (h.ledger.post.perm (.refl _) perm_middle.symm (.refl _))
  refine ⟨rfl, traded.pool, traded.place, traded.size, traded.complete, traded.planned,
    traded.holds.post fits b, ?_, ?_, traded.frames, ?_, ?_, fun lawful => ?_, fun lawful on => ?_⟩
  · have filled : bs.length = g.filled := h.filled
    rw [length_append, filled]
    rfl
  · refine traded.ledger.perm (.refl _) ?_ (.refl _)
    rw [append_assoc]
    rfl
  · exact Nat.le_succ_of_le traded.due
  · have same : (bs ++ [b]).map (p.move b .posted).base = (bs ++ [b]).map p.base :=
      map_congr_left fun c _ => (p.kept_move b .posted).base c
    rw [same]
    exact table
  · exact stays (h.knows lawful)
  · have window := traded.window lawful on
    have within : m.adapter.ahead .rx + g.unrung + g.due ≤ g.filled := window.within
    refine ⟨window.running, ?_, ?_⟩
    · show r.producer.advance 1 = _
      rw [window.producer, Counter.advance_advance]
      rfl
    · show m.adapter.ahead .rx + (g.unrung + 1) + g.due ≤ g.filled + 1
      omega

/-! ## Frames and handles -/

/-- The upper layer takes over what the driver had in its hands, or the other way round. -/
theorem regroup (h : RxGuard T x g m r p bs) (frames : Array (Option Frame))
    (handles : Array ReturnHandle) (mine : ∀ f, some f ∈ frames.toList → f.pool = T.place)
    (same : g.fresh ++ m.toScene.out ~
      fresh ++ Scene.out { m.toScene with frames := frames, handles := handles }) :
    RxGuard T x { g with fresh := fresh } { m with frames := frames, handles := handles } r p bs := by
  refine ⟨h.rx, h.pool, h.place, h.size, h.complete, h.planned, h.holds, h.filled,
    h.ledger.perm (.refl _) (.refl _) same, mine, h.due, h.table, h.knows, fun lawful on => ?_⟩
  have window := h.window lawful on
  exact ⟨window.running, window.producer, window.within⟩

/-- A buffer that is out under a handle, or just on its way there, is not in the window. -/
theorem notMem_of_out (h : RxGuard T x g m r p bs) {k : ReturnHandle}
    (out : k ∈ g.fresh ++ m.toScene.out) : k.buffer ∉ bs := by
  intro here
  have posted := (h.ledger.posted.mem_iff _).mp (mem_append_left _ here)
  have delivered := (h.ledger.delivered.mem_iff _).mp (mem_map_of_mem out)
  exact BufferState.noConfusion (Option.some.inj (delivered.symm.trans posted))

theorem index_lt_of_out (h : RxGuard T x g m r p bs) {k : ReturnHandle}
    (out : k ∈ g.fresh ++ m.toScene.out) : k.buffer.index < p.capacity :=
  BufferPool.index_lt_of_stateOf? ((h.ledger.delivered.mem_iff _).mp (mem_map_of_mem out))

end RxGuard

/-- One of the first entries may as well be one of the last. -/
theorem perm_hand_over {α : Type} (a : α) (xs ys zs : List α) :
    a :: xs ++ (ys ++ zs) ~ xs ++ (ys ++ a :: zs) := by
  rw [cons_append, ← append_assoc, ← append_assoc]
  exact perm_middle.symm

end

/-! ## What the upper layer has -/

section Out

variable {m : Machine}

/-- A frame that comes out of its place is not out any more. -/
theorem Machine.perm_out_removeFrame {i : Nat} {f : Frame} (held : m.frameAt? i = some f) :
    m.toScene.out ~ f.handle :: (m.removeFrame i).toScene.out := by
  have taken : (m.frames.toList.filterMap id).map Frame.handle ~
      f.handle :: ((m.frames.setIfInBounds i none).toList.filterMap id).map Frame.handle := by
    rw [Array.toList_setIfInBounds]
    exact (perm_set_none (Machine.getElem?_of_frameAt? held)).map Frame.handle
  exact taken.append_right _

/-- The other frames are the ones that were there. -/
theorem Machine.mem_frames_removeFrame {i : Nat} {f : Frame}
    (h : some f ∈ (m.removeFrame i).frames.toList) : some f ∈ m.frames.toList := by
  rw [removeFrame, Array.toList_setIfInBounds] at h
  rcases mem_or_eq_of_mem_set h with h | h
  · exact h
  · exact absurd h (Option.some_ne_none f)

/-- A handle that is kept is out. -/
theorem Scene.perm_out_push (s : Scene) (w : ReturnHandle) :
    w :: s.out ~ Scene.out { s with handles := s.handles.push w } := by
  have out : Scene.out { s with handles := s.handles.push w } =
      (s.frames.toList.filterMap id).map Frame.handle ++ (s.handles.toList ++ [w]) := by
    simp [Scene.out]
  rw [out, Scene.out]
  exact perm_middle.symm.trans ((perm_append_singleton w _).symm.append_left _)

/-- A handle that is used is not out any more. -/
theorem Machine.perm_out_erase {i : Nat} {w : ReturnHandle} (unused : m.handles[i]? = some w) :
    m.toScene.out ~
      w :: Scene.out { m.toScene with handles := m.handles.eraseIdxIfInBounds i } := by
  have taken : m.handles.toList ~ w :: (m.handles.eraseIdxIfInBounds i).toList := by
    rw [← Array.getElem?_toList] at unused
    obtain ⟨inside, rfl⟩ := List.getElem?_eq_some_iff.mp unused
    rw [Array.toList_eraseIdxIfInBounds]
    exact (getElem_cons_eraseIdx_perm inside).symm
  exact (taken.append_left _).trans perm_middle

end Out

variable {T : RxTrack} {x : RxStage} {g : Hands} {m : Machine} {b : BufferId}
  {batch transit : List BufferId} {fresh : List ReturnHandle}

namespace RxAt

/-! ## Actions on the pool -/

/-- Acquiring takes a free buffer, if there is one. -/
theorem acquire (h : RxAt T x g m) :
    (∃ b, (m.acquire T.place).1 = some b ∧
      RxAt T x { g with batch := b :: g.batch } (m.acquire T.place).2) ∨
    ((m.acquire T.place).1 = none ∧ RxAt T x g (m.acquire T.place).2) := by
  obtain ⟨⟨r, p, bs, guard⟩, run⟩ := h
  rw [Machine.acquire_eq guard.pool]
  cases free : p.free with
  | nil =>
    refine .inr ⟨rfl, ?_⟩
    rw [BufferPool.acquireNext_of_nil free]
    exact reach run guard (guard.trade (.refl p) guard.ledger) (.aside _ (guard.aside_pool (.refl p)))
  | cons b rest =>
    have kept := p.kept_acquireNext
    exact .inl ⟨b, rfl, reach run guard (guard.trade kept (guard.ledger.acquire free))
      (.aside _ (guard.aside_pool kept))⟩

/-- A buffer that was acquired can be put back. -/
theorem putBack (h : RxAt T x { g with batch := b :: batch } m) :
    ∃ m', m.putBack T.place b = (.ok (), m') ∧ RxAt T x { g with batch := batch } m' := by
  obtain ⟨⟨r, p, bs, guard⟩, run⟩ := h
  have state := (guard.ledger.acquired.mem_iff b).mp mem_cons_self
  have kept := p.kept_move b .free
  exact ⟨_, Machine.putBack_eq guard.pool state, reach run guard
    (guard.trade kept guard.ledger.putBack) (.aside _ (guard.aside_pool kept))⟩

/-- A buffer whose slot was passed can be taken back. -/
theorem recycle (h : RxAt T x { g with transit := b :: transit } m) :
    RxAt T x { g with transit := transit } (m.recycleOrReport T.place b) := by
  obtain ⟨⟨r, p, bs, guard⟩, run⟩ := h
  have ledger := guard.ledger.perm (.refl _) perm_middle (.refl _)
  have state := (ledger.posted.mem_iff b).mp mem_cons_self
  have kept := p.kept_move b .free
  rw [Machine.recycleOrReport, Machine.recycle_eq guard.pool state]
  exact reach run guard (guard.trade kept ledger.recycle) (.aside _ (guard.aside_pool kept))

/-- **An acquired buffer can be posted, if there is room.**  Its address is written into the slot
behind the window before the ring counts it as posted. -/
theorem post (h : RxAt T x { g with batch := b :: batch } m) (idle : g.taking = .nothing)
    (room : g.filled < T.size.capacity)
    (stays : ∀ (a : Adapter) (r : RxRing) (b : BufferId), x.Knows a r → x.Knows a (r.post b)) :
    ∃ m', m.postBuffer T.place b = (.ok (), m') ∧
      RxAt T x { g with batch := batch, filled := g.filled + 1, unrung := g.unrung + 1 } m' := by
  obtain ⟨⟨r, p, bs, guard⟩, run⟩ := h.turn
  have state := (guard.ledger.acquired.mem_iff b).mp mem_cons_self
  have filled : bs.length = g.filled := guard.filled
  have fits : bs.length < r.capacity := by
    rw [filled, RxRing.capacity, guard.size]
    exact room
  obtain ⟨written, table⟩ := guard.pokeRx b (UInt32.ofNat p.bufferSize)
  have described : RxAt T x { g with batch := b :: batch }
      (m.turn.pokeRx r.tailSlot (p.base b) (UInt32.ofNat p.bufferSize)) := by
    refine reach run guard written ?_
    show RxChange _ _ _ _ _ _ _ g.taking g.taking _
    rw [idle]
    exact .describe b _
  refine ⟨_, Machine.postBuffer_eq guard.rx guard.pool state,
    reach described.run written (written.post fits ?_ (stays _ r b)) ?_⟩
  · rw [Machine.toScene_pokeRx]
    exact table
  · show RxChange _ _ _ _ _ _ _ g.taking g.taking _
    rw [idle]
    exact .post (p.kept_move b .posted) fits

/-! ## Taking a completion in -/

/-- Passing a slot takes out a buffer whose completion was due. -/
theorem pass {due : Nat} (h : RxAt T .plain { g with due := due + 1 } m)
    (idle : g.taking = .nothing) :
    ∃ b slot, (m.rx.map fun r => (r.headSlot, r.bufferAt? r.headSlot)) = some (slot, some b) ∧
      RxAt T .plain
        { g with
          filled := g.filled - 1
          due := due
          transit := b :: g.transit
          taking := .passed slot b }
        (m.modifyRx RxRing.pass) := by
  obtain ⟨⟨r, p, bs, guard⟩, run⟩ := h
  have filled : bs.length = g.filled := guard.filled
  have enough : due + 1 ≤ g.filled := guard.due
  cases bs with
  | nil =>
    rw [← filled] at enough
    exact absurd enough (Nat.not_succ_le_zero due)
  | cons b bs =>
    refine ⟨b, r.headSlot, ?_, ?_⟩
    · rw [guard.rx, Option.map_some, guard.holds.bufferAt?_headSlot]
    · rw [Machine.modifyRx_eq_setRx guard.rx]
      refine reach run guard (guard.pass _) ?_
      show RxChange _ _ _ _ _ _ _ g.taking (.passed r.headSlot b) _
      rw [idle]
      exact .pass rfl (Nat.succ_pos due)

/-- The completion of the buffer is read. -/
theorem take {slot : Nat} (h : RxAt T x { g with taking := .passed slot b } m) :
    ∃ c k, m.readCompletion slot = (c, k) ∧ RxAt T x { g with taking := .read b c } k := by
  obtain ⟨⟨r, p, bs, guard⟩, run⟩ := h.turn
  exact ⟨_, _, rfl, reach run guard ((guard.record _).taking _) (.take slot b)⟩

/-- A completion that is no frame is of no further interest. -/
theorem reject {c : Completion} (h : RxAt T x { g with taking := .read b c } m)
    (lost : ∀ r p, m.rx = some r → m.poolAt? T.place = some p →
      r.deliverable p.bufferSize c = false) :
    RxAt T x { g with taking := .nothing } m := by
  obtain ⟨⟨r, p, bs, guard⟩, run⟩ := h
  exact reach run guard (guard.taking .nothing) (.reject (lost r p guard.rx guard.pool))

/-- A buffer whose slot was passed can be delivered, under a fresh handle. -/
theorem markDelivered (h : RxAt T x { g with transit := b :: transit } m) {p : BufferPool}
    (pool : m.poolAt? T.place = some p) :
    m.markDelivered T.place b =
        (.ok ((p.deliver b).handleOf b), m.setPool T.place (p.deliver b)) ∧
      RxAt T x { g with transit := transit, fresh := (p.deliver b).handleOf b :: g.fresh }
        (m.setPool T.place (p.deliver b)) := by
  obtain ⟨⟨r, q, bs, guard⟩, run⟩ := h
  obtain rfl : q = p := Option.some.inj (guard.pool.symm.trans pool)
  have ledger := guard.ledger.perm (.refl _) perm_middle (.refl _)
  have state := (ledger.posted.mem_iff b).mp mem_cons_self
  have kept := q.kept_deliver b
  exact ⟨Machine.markDelivered_eq pool state, reach run guard (guard.trade kept ledger.deliver)
    (.aside _ (guard.aside_pool kept))⟩

/-- Then its frame is shown to the upper layer. -/
theorem deliver {f : Frame} {c : Completion}
    (h : RxAt T x { g with fresh := f.handle :: fresh, taking := .read b c } m)
    (frame : ∀ r p, m.rx = some r → m.poolAt? T.place = some p →
      r.deliverable p.bufferSize c = true ∧ f.Shows r p b c) :
    RxAt T x { g with fresh := f.handle :: fresh, taking := .shown f }
      (m.record (.delivered f (f.bytes m.memory))) := by
  obtain ⟨⟨r, p, bs, guard⟩, run⟩ := h
  obtain ⟨whole, shows⟩ := frame r p guard.rx guard.pool
  have mine : f.handle ∈ f.handle :: fresh ++ m.toScene.out := mem_append_left _ mem_cons_self
  have apart : b ∉ bs := shows.buffer ▸ guard.notMem_of_out mine
  have inside : b.index < p.capacity := shows.buffer ▸ guard.index_lt_of_out mine
  exact reach run guard ((guard.record _).taking (.shown f)) (.deliver whole shows inside apart)

/-! ## Frames and handles -/

/-- What was shown is not held. -/
theorem settle {f : Frame} (h : RxAt T x { g with taking := .shown f } m) :
    RxAt T x { g with taking := .nothing } m := by
  obtain ⟨⟨r, p, bs, guard⟩, run⟩ := h
  exact reach run guard (guard.taking .nothing) (.settle f)

/-- A handle in the driver's hands can be used. -/
theorem release {k : ReturnHandle} (h : RxAt T x { g with fresh := k :: fresh } m) :
    ∃ m', m.release T.place k = (.ok (), m') ∧ RxAt T x { g with fresh := fresh } m' := by
  obtain ⟨⟨r, p, bs, guard⟩, run⟩ := h
  have kept := p.kept_move k.buffer .free
  exact ⟨_, Machine.release_eq guard.pool guard.ledger.honours, reach run guard
    (guard.trade kept guard.ledger.release) (.aside _ (guard.aside_pool kept))⟩

/-- The ring keeps its pool alive. -/
theorem reapPool_eq (h : RxAt T x g m) : m.reapPool T.place = m := by
  obtain ⟨⟨r, p, bs, guard⟩, -⟩ := h
  exact Machine.reapPool_eq guard.rx guard.place

/-- A frame that is dropped gives its buffer back. -/
theorem dropFrame {f : Frame} (h : RxAt T x { g with fresh := f.handle :: fresh } m)
    (pool : f.pool = T.place) : RxAt T x { g with fresh := fresh } (m.dropFrame f) := by
  obtain ⟨m', released, h'⟩ := h.release
  rw [Machine.dropFrame, pool, released]
  dsimp only
  rw [h'.reapPool_eq]
  exact h'

/-- A frame that was shown may be held. -/
theorem hold {f : Frame}
    (h : RxAt T x { g with fresh := f.handle :: fresh, taking := .shown f } m)
    (pool : f.pool = T.place) :
    RxAt T x { g with fresh := fresh, taking := .nothing }
      { m with frames := m.frames.push (some f) } := by
  obtain ⟨⟨r, p, bs, guard⟩, run⟩ := h
  have out : Scene.out { m.toScene with frames := m.frames.push (some f) } =
      (m.frames.toList.filterMap id).map Frame.handle ++ f.handle :: m.handles.toList := by
    simp [Scene.out]
  have mine (f' : Frame) (hf' : some f' ∈ (m.frames.push (some f)).toList) : f'.pool = T.place := by
    rw [Array.toList_push] at hf'
    rcases mem_append.mp hf' with hf' | hf'
    · exact guard.frames f' hf'
    · obtain rfl := Option.some.inj (mem_singleton.mp hf')
      exact pool
  have same : f.handle :: fresh ++ m.toScene.out ~
      fresh ++ Scene.out { m.toScene with frames := m.frames.push (some f) } := by
    rw [out]
    exact perm_hand_over f.handle fresh _ _
  have held := guard.regroup (m.frames.push (some f)) m.handles mine same
  exact reach run guard (held.taking .nothing) (.hold f)

/-- The handle of a frame may be kept instead of the frame. -/
theorem detachFrame {f : Frame} (h : RxAt T x { g with fresh := f.handle :: fresh } m)
    (pool : f.pool = T.place) : RxAt T x { g with fresh := fresh } (m.detachFrame f) := by
  rw [Machine.detachFrame, pool, h.reapPool_eq]
  obtain ⟨⟨r, p, bs, guard⟩, run⟩ := h
  refine reach run guard (guard.regroup m.frames _ guard.frames ?_) (.aside _
    (guard.aside_handles _))
  exact perm_middle.symm.trans ((m.toScene.perm_out_push f.handle).append_left _)

/-- A frame that was held comes out of its place. -/
theorem removeFrame {f : Frame} {i : Nat} (h : RxAt T x g m) (held : m.frameAt? i = some f) :
    f.pool = T.place ∧ RxAt T x { g with fresh := f.handle :: g.fresh } (m.removeFrame i) := by
  obtain ⟨⟨r, p, bs, guard⟩, run⟩ := h
  refine ⟨guard.frames f (mem_of_getElem? (Machine.getElem?_of_frameAt? held)), ?_⟩
  refine reach run guard (guard.regroup _ m.handles (fun f' hf' => ?_) ?_) (.aside _
    (guard.aside_removeFrame i))
  · exact guard.frames f' (Machine.mem_frames_removeFrame hf')
  · exact ((Machine.perm_out_removeFrame held).append_left _).trans perm_middle

/-- A handle that was detached can be used. -/
theorem releaseHandle {k : ReturnHandle} {i : Nat} (h : RxAt T x g m)
    (unused : m.handles[i]? = some k) :
    RxAt T x g { (m.release T.place k).2 with handles := m.handles.eraseIdxIfInBounds i } := by
  have given : RxAt T x { g with fresh := k :: g.fresh }
      { m with handles := m.handles.eraseIdxIfInBounds i } := by
    obtain ⟨⟨r, p, bs, guard⟩, run⟩ := h
    refine reach run guard (guard.regroup m.frames _ guard.frames ?_) (.aside _
      (guard.aside_handles _))
    exact ((Machine.perm_out_erase unused).append_left _).trans perm_middle
  obtain ⟨⟨r, p, bs, guard⟩, run⟩ := given
  have kept := p.kept_move k.buffer .free
  rw [Machine.release_eq (m := m) guard.pool guard.ledger.honours]
  exact reach run guard (guard.trade kept guard.ledger.release) (.aside _ (guard.aside_pool kept))

end RxAt

end DescriptorRings
