import DescriptorRings.Proofs.Engine.Silence

/-!
# Taking completions in

To serve a running receive ring is to take in the completions that the adapter announces: slot after
slot is passed, its completion is read, and if that is a frame it is shown in the buffer of the slot.
In between the ring is filled up, and in the callbacks the upper layer may do what it likes to its
frames.

What matters is that no completion is skipped and none is taken in twice, whatever happens in between.
Neither is a matter of the adapter, which may announce what it likes as long as it can be believed.  So
the ring is followed by itself here.  Everything that happens between two slots leaves the slots that
are still to be passed as they are, and adds at most buffers at the end (`RxSteady`); a slot that is
passed is the next one of the window that was there in the beginning (`RxTaken.takeSlot`).
-/

namespace DescriptorRings

open Relation List

/-! ## What is taken in -/

namespace Event

/-- The completion that was read, with its slot. -/
def taken? : Event → Option (Nat × Completion)
  | .readCompletion slot c => some (slot, c)
  | _ => none

/-- The frame that was shown. -/
def frame? : Event → Option Frame
  | .delivered f _ => some f
  | _ => none

/-- Whether a completion is read or a frame shown. -/
def isIntake : Event → Bool
  | .readCompletion _ _ | .delivered _ _ => true
  | _ => false

/-- What is not about completions is not picked. -/
theorem filterMap_of_quiet {es : List Event} (quiet : ∀ e ∈ es, e.isIntake = false) :
    es.filterMap taken? = [] ∧ es.filterMap frame? = [] := by
  have apart (e : Event) (he : e ∈ es) : e.taken? = none ∧ e.frame? = none := by
    have h := quiet e he
    cases e <;> first | exact ⟨rfl, rfl⟩ | exact absurd h.symm Bool.false_ne_true
  exact ⟨filterMap_eq_nil_iff.mpr fun e he => (apart e he).1,
    filterMap_eq_nil_iff.mpr fun e he => (apart e he).2⟩

end Event

/-- **The first `k` completions of a ring are taken in** by some events: they are read in the order of
their slots, and those that are frames are shown, in the same order and in the buffers of their slots.
-/
structure RxRing.TakesIn (r : RxRing) (p : BufferPool) (k : Nat) (es : List Event) : Prop where
  /-- The completions are read. -/
  read : (es.filterMap Event.taken?).map Prod.fst =
    (range k).map fun i => (r.consumer.advance i).slot r.size.slots
  /-- The frames are shown. -/
  shown : Forall₂ (fun e f => ∃ b, r.bufferAt? e.1 = some b ∧ Frame.Shows f r p b e.2)
    ((es.filterMap Event.taken?).filter fun e => r.deliverable p.bufferSize e.2)
    (es.filterMap Event.frame?)

namespace RxRing.TakesIn

variable {r : RxRing} {p : BufferPool} {k slot : Nat} {es es' : List Event} {c : Completion}

theorem nil (r : RxRing) (p : BufferPool) : r.TakesIn p 0 [] := ⟨rfl, .nil⟩

/-- What is not about completions may be entered as well. -/
theorem quiet (h : r.TakesIn p k es) (quiet : ∀ e ∈ es', e.isIntake = false) :
    r.TakesIn p k (es ++ es') := by
  obtain ⟨taken, shown⟩ := Event.filterMap_of_quiet quiet
  constructor
  · rw [filterMap_append, taken, append_nil]
    exact h.read
  · rw [filterMap_append, filterMap_append, taken, shown, append_nil, append_nil]
    exact h.shown

/-- Nor does it matter whether that comes before or after. -/
theorem quiet_before (h : r.TakesIn p k es') (quiet : ∀ e ∈ es, e.isIntake = false) :
    r.TakesIn p k (es ++ es') := by
  obtain ⟨taken, shown⟩ := Event.filterMap_of_quiet quiet
  constructor
  · rw [filterMap_append, taken, nil_append]
    exact h.read
  · rw [filterMap_append, filterMap_append, taken, shown, nil_append, nil_append]
    exact h.shown

/-- It does not matter who has the other buffers of the pool. -/
theorem of_kept {p' : BufferPool} (h : r.TakesIn p' k es) (kept : p.Kept p') : r.TakesIn p k es := by
  have size : p'.bufferSize = p.bufferSize := congrArg Layout.size kept.layout
  refine ⟨h.read, ?_⟩
  have shown := h.shown
  rw [size] at shown
  refine shown.imp fun e f => ?_
  rintro ⟨b, here, shows⟩
  exact ⟨b, here, shows.buffer, shows.address.trans (kept.base b), shows.pad, shows.length⟩

/-- The next completion is read, and is no frame. -/
theorem lose (h : r.TakesIn p k es) (next : slot = (r.consumer.advance k).slot r.size.slots)
    (lost : r.deliverable p.bufferSize c = false) :
    r.TakesIn p (k + 1) (es ++ [.readCompletion slot c]) := by
  constructor
  · rw [filterMap_append, map_append, h.read, range_succ, map_append, next]
    rfl
  · have taken : [Event.readCompletion slot c].filterMap Event.taken? = [(slot, c)] := rfl
    have shown : [Event.readCompletion slot c].filterMap Event.frame? = [] := rfl
    rw [filterMap_append, filterMap_append, taken, shown, filter_append,
      filter_cons_of_neg (by simpa using lost), filter_nil, append_nil, append_nil]
    exact h.shown

/-- The next completion is read, and its frame is shown. -/
theorem deliver (h : r.TakesIn p k es) (next : slot = (r.consumer.advance k).slot r.size.slots)
    (whole : r.deliverable p.bufferSize c = true) {b : BufferId} {f : Frame}
    (here : r.bufferAt? slot = some b) (shows : f.Shows r p b c) (bytes : List UInt8) :
    r.TakesIn p (k + 1) (es ++ [.readCompletion slot c, .delivered f bytes]) := by
  constructor
  · rw [filterMap_append, map_append, h.read, range_succ, map_append, next]
    rfl
  · have taken : [Event.readCompletion slot c, .delivered f bytes].filterMap Event.taken? =
        [(slot, c)] := rfl
    have shown : [Event.readCompletion slot c, .delivered f bytes].filterMap Event.frame? = [f] :=
      rfl
    have kept : [(slot, c)].filter (fun e => r.deliverable p.bufferSize e.2) = [(slot, c)] := by
      simp [whole]
    rw [filterMap_append, filterMap_append, taken, shown, filter_append, kept]
    exact rel_append h.shown (.cons ⟨b, here, shows⟩ .nil)

end RxRing.TakesIn

/-! ## What happens between two slots -/

/-- A ring that has passed `k` slots since it was `r` and held `bs`.  It may have got more buffers at
its end. -/
structure RxRing.Passed (r : RxRing) (bs : List BufferId) (k : Nat) (r' : RxRing) : Prop where
  /-- What it holds. -/
  holds : ∃ new, r'.Holds (bs.drop k ++ new)
  /-- Where its window begins. -/
  consumer : r'.consumer = r.consumer.advance k
  /-- Its size is the same. -/
  size : r'.size = r.size
  /-- So is the space in front of a frame. -/
  pad : r'.pad = r.pad

namespace RxRing.Passed

variable {r r' r'' : RxRing} {bs : List BufferId} {k : Nat}

theorem refl (h : r.Holds bs) : r.Passed bs 0 r :=
  ⟨⟨[], by rwa [drop_zero, append_nil]⟩, (Counter.advance_zero _).symm, rfl, rfl⟩

/-- After that no more slots are passed. -/
theorem stay (h : r.Passed bs k r') (h' : ∀ bs', r'.Holds bs' → r'.Passed bs' 0 r'') :
    r.Passed bs k r'' := by
  obtain ⟨new, holds⟩ := h.holds
  obtain ⟨⟨new', holds'⟩, consumer, size, pad⟩ := h' _ holds
  rw [drop_zero, append_assoc] at holds'
  rw [Counter.advance_zero] at consumer
  exact ⟨⟨new ++ new', holds'⟩, consumer.trans h.consumer, size.trans h.size, pad.trans h.pad⟩

/-- One more slot is passed. -/
theorem pass (h : r.Passed bs k r') (more : k < bs.length) : r.Passed bs (k + 1) r'.pass := by
  obtain ⟨new, holds⟩ := h.holds
  rw [drop_eq_getElem_cons more, cons_append] at holds
  refine ⟨⟨new, holds.pass⟩, ?_, h.size, h.pad⟩
  show r'.consumer.advance 1 = _
  rw [h.consumer, Counter.advance_advance]

/-- The next slot to be passed, and the buffer in it. -/
theorem head (h : r.Passed bs k r') (more : k < bs.length) :
    r'.headSlot = (r.consumer.advance k).slot r.size.slots ∧
      r'.bufferAt? r'.headSlot = some bs[k] := by
  obtain ⟨new, holds⟩ := h.holds
  rw [drop_eq_getElem_cons more, cons_append] at holds
  exact ⟨by rw [headSlot, h.consumer, h.size], holds.bufferAt?_headSlot⟩

/-- What counts as a frame is the same. -/
theorem deliverable_eq (h : r.Passed bs k r') (size : Nat) (c : Completion) :
    r'.deliverable size c = r.deliverable size c := by
  rw [deliverable, h.pad, deliverable]

theorem of_alike (h : r.Holds bs) (alike : r.Alike r') : r.Passed bs 0 r' := by
  refine ⟨⟨[], ?_⟩, alike.consumer.trans (Counter.advance_zero _).symm, alike.size, alike.pad⟩
  rw [drop_zero, append_nil]
  exact h.congr alike.size alike.slots alike.consumer alike.producer

theorem of_post (h : r.Holds bs) (room : bs.length < r.capacity) (b : BufferId) :
    r.Passed bs 0 (r.post b) := by
  refine ⟨⟨[b], ?_⟩, (Counter.advance_zero _).symm, rfl, rfl⟩
  rw [drop_zero]
  exact h.post room b

end RxRing.Passed

/-- From one machine to another no completion is taken in, and the receive ring passes no slot. -/
structure RxSteady (m m' : Machine) : Prop where
  /-- The ring passes no slot. -/
  ring : ∀ r bs, m.rx = some r → r.Holds bs → ∃ r', m'.rx = some r' ∧ r.Passed bs 0 r'
  /-- No completion is read, and no frame shown. -/
  entered : m.Enters (fun e => e.isIntake = false) m'

namespace RxSteady

variable {m m' m'' : Machine} {permits : Move → Prop} {place : Nat}

theorem of_rx_eq (rx : m'.rx = m.rx) (entered : m.Enters (fun e => e.isIntake = false) m') :
    RxSteady m m' :=
  ⟨fun r _ h holds => ⟨r, rx.trans h, .refl holds⟩, entered⟩

theorem refl (m : Machine) : RxSteady m m := of_rx_eq rfl (.refl _ m)

/-- As many slots are passed as before. -/
theorem passed (h : RxSteady m m') {r r' : RxRing} {bs : List BufferId} {k : Nat}
    (rx : m.rx = some r') (before : r.Passed bs k r') :
    ∃ r'', m'.rx = some r'' ∧ r.Passed bs k r'' := by
  obtain ⟨new, holds⟩ := before.holds
  obtain ⟨r'', rx', -⟩ := h.ring r' _ rx holds
  refine ⟨r'', rx', before.stay fun bs' holds' => ?_⟩
  obtain ⟨q, hq, passed⟩ := h.ring r' bs' rx holds'
  obtain rfl : q = r'' := Option.some.inj (hq.symm.trans rx')
  exact passed

theorem trans (h : RxSteady m m') (h' : RxSteady m' m'') : RxSteady m m'' := by
  refine ⟨fun r bs rx holds => ?_, h.entered.trans h'.entered⟩
  obtain ⟨r', rx', passed⟩ := h.ring r bs rx holds
  exact h'.passed rx' passed

theorem give (m : Machine) (n : Notice) : RxSteady m (m.give n) :=
  of_rx_eq (Machine.rx_give m n) (.give (fun _ => rfl) m n)

theorem giveIf (m : Machine) (condition : Bool) (n : Notice) :
    RxSteady m (m.giveIf condition n) := by
  unfold Machine.giveIf
  split
  · exact give m n
  · exact refl m

/-- The ring changes its counts. -/
theorem adjust (m : Machine) {f : RxRing → RxRing} (alike : ∀ r : RxRing, r.Alike (f r)) :
    RxSteady m (m.modifyRx f) := by
  refine ⟨fun r bs rx holds => ⟨f r, ?_, .of_alike holds (alike r)⟩, .of_journal_eq _ rfl⟩
  rw [Machine.modifyRx_eq_setRx rx]
  rfl

theorem write (m : Machine) (r : Register) (v : UInt32) : RxSteady m (m.write r v) :=
  of_rx_eq (m.rx_write r v)
    (.write (P := fun e => e.isIntake = false) (fun _ => rfl) (r := r) (v := v) rfl m)

theorem read (m : Machine) (r : Register) : RxSteady m (m.read r).2 := by
  refine of_rx_eq ?_ (.read (P := fun e => e.isIntake = false) (fun _ => rfl) (fun _ => rfl) m)
  refine Eq.trans ?_ m.rx_turn
  unfold Machine.read
  rw [Machine.toScene_record]

/-! ### The upper layer -/

theorem reapPool (m : Machine) (place : Nat) : RxSteady m (m.reapPool place) := by
  refine Machine.keeps_reapPool (P := RxSteady m) ?_ ?_ ?_ (refl m) place
  · intro k n h
    exact h.trans (give k n)
  · intro k a h
    have freed : k.Enters (fun e => e.isIntake = false) (k.free a) :=
      .of_journal_add (Machine.journal_record _ _) rfl
    exact h.trans (of_rx_eq (by rw [Machine.free, Machine.toScene_record]) freed)
  · intro k place h
    exact h.trans (of_rx_eq rfl (.of_journal_eq _ rfl))

theorem release (m : Machine) (place : Nat) (h : ReturnHandle) :
    RxSteady m (m.release place h).2 := by
  unfold Machine.release
  split
  · exact of_rx_eq rfl (.of_journal_eq _ rfl)
  · exact refl m

theorem dropFrame (m : Machine) (f : Frame) : RxSteady m (m.dropFrame f) := by
  have released := release m f.pool f.handle
  unfold Machine.dropFrame
  split
  · next e =>
    rw [e] at released
    exact released.trans (reapPool _ _)
  · next e =>
    rw [e] at released
    exact (released.trans (give _ _)).trans (reapPool _ _)

theorem detachFrame (m : Machine) (f : Frame) : RxSteady m (m.detachFrame f) :=
  (reapPool m f.pool).trans (of_rx_eq rfl (.of_journal_eq _ rfl))

theorem removeFrame (m : Machine) (i : Nat) : RxSteady m (m.removeFrame i) :=
  of_rx_eq rfl (.of_journal_eq _ rfl)

theorem holding (act : Holding permits place m m') : RxSteady m m' := by
  cases act with
  | drop => exact (removeFrame m _).trans (dropFrame _ _)
  | detach => exact (removeFrame m _).trans (detachFrame _ _)
  | release => exact (release m place _).trans (of_rx_eq rfl (.of_journal_eq _ rfl))
  | reply o =>
    exact of_rx_eq (by rw [Machine.toScene_record]) (.of_journal_add (Machine.journal_record _ _) rfl)
  | move _ => exact of_rx_eq (by rw [Machine.toScene_move]) (.move (fun _ => rfl) m _)

/-- **Whatever happens meanwhile is steady.** -/
theorem meanwhile (act : RxMeanwhile permits place m m') : RxSteady m m' := by
  refine of_rx_eq act.spared.rx ?_
  cases act with
  | holding act => exact (holding act).entered
  | turn => exact .turn (fun _ => rfl) m
  | plan => exact .of_journal_eq _ rfl
  | @note e note =>
    refine .of_journal_add (Machine.journal_record _ _) ?_
    cases e <;> first | rfl | exact absurd note Bool.false_ne_true
  | write => exact .of_journal_add (Machine.journal_record _ _) rfl
  | writeTx => exact .of_journal_add (Machine.journal_record _ _) rfl
  | elsewhere => exact .of_journal_eq _ rfl

/-- So is a run of such things. -/
theorem meanwhile_run (run : ReflTransGen (RxMeanwhile permits place) m m') : RxSteady m m' := by
  induction run with
  | refl => exact refl m
  | tail _ act ih => exact ih.trans (meanwhile act)

/-- A callback is steady. -/
theorem reply {s : Served} (abides : s.upper.Abides (RxMeanwhile permits place)) :
    RxSteady s.machine s.reply.machine :=
  meanwhile_run (Served.run_reply abides)

/-- What becomes of a frame is steady. -/
theorem dispose (s : Served) (f : Frame) : RxSteady s.machine (s.dispose f).machine := by
  unfold Served.dispose
  dsimp only
  split
  · exact dropFrame _ f
  · exact of_rx_eq rfl (.of_journal_eq _ rfl)
  · exact detachFrame _ f

/-! ### The driver -/

theorem alter (m : Machine) (place : Nat) (b : BufferId) (start : BufferState)
    (change : BufferPool → BufferPool) : RxSteady m (m.alter place b start change).2 := by
  unfold Machine.alter
  split
  · exact of_rx_eq rfl (.of_journal_eq _ rfl)
  · exact give m _
  · exact refl m

theorem recycleOrReport (m : Machine) (place : Nat) (b : BufferId) :
    RxSteady m (m.recycleOrReport place b) := by
  have altered := alter m place b .posted fun p => p.move b .free
  unfold Machine.recycleOrReport
  split
  · next e =>
    rw [Machine.recycle] at e
    rw [e] at altered
    exact altered
  · next e =>
    rw [Machine.recycle] at e
    rw [e] at altered
    exact altered.trans (give _ _)

theorem dropCompletion (m : Machine) (place : Nat) (b : BufferId) (c : Completion) :
    RxSteady m (m.dropCompletion place b c) :=
  ((give m _).trans (adjust (f := RxRing.noteFramingError) _ fun _ =>
    ⟨rfl, rfl, rfl, rfl, rfl, rfl⟩)).trans (recycleOrReport _ place b)

/-- Posting a buffer adds it at the end, if at all. -/
theorem postBuffer (place : Nat) (b : BufferId) {r : RxRing} {bs : List BufferId}
    (rx : m.rx = some r) (holds : r.Holds bs) (room : bs.length < r.capacity) :
    RxSteady m (m.postBuffer place b).2 ∧ ∃ r' bs', (m.postBuffer place b).2.rx = some r' ∧
      r'.Holds bs' ∧ r'.capacity = r.capacity ∧ bs'.length ≤ bs.length + 1 := by
  have kept {k : Machine} (h : RxSteady m k) (same : k.rx = m.rx) :
      RxSteady m k ∧ ∃ r' bs', k.rx = some r' ∧ r'.Holds bs' ∧ r'.capacity = r.capacity ∧
        bs'.length ≤ bs.length + 1 :=
    ⟨h, r, bs, same.trans rx, holds, rfl, Nat.le_succ _⟩
  have altered (k : Machine) (start : BufferState) (change : BufferPool → BufferPool) :
      (k.alter place b start change).2.rx = k.rx := by
    unfold Machine.alter
    split
    · rfl
    · exact Machine.rx_give k _
    · rfl
  have written (slot : Nat) (a : BusAddress) (c : UInt32) :
      RxSteady m (m.writeRx slot a c) ∧ (m.writeRx slot a c).rx = m.rx := by
    have same : (m.writeRx slot a c).rx = m.rx := by
      refine Eq.trans ?_ m.rx_turn
      rw [Machine.writeRx, Machine.toScene_record]
    have entered : m.Enters (fun e => e.isIntake = false) m.turn := .turn (fun _ => rfl) m
    exact ⟨of_rx_eq same (entered.trans (.of_journal_add (Machine.journal_record _ _) rfl)), same⟩
  unfold Machine.postBuffer
  split
  · have steady := alter m place b .acquired fun p => p.move b .free
    have same := altered m .acquired fun p => p.move b .free
    split
    · next e =>
      rw [Machine.putBack] at e
      rw [e] at steady same
      exact kept steady same
    · next e =>
      rw [Machine.putBack] at e
      rw [e] at steady same
      exact kept steady same
  · next a size _ =>
    dsimp only
    obtain ⟨steady, same⟩ := written ((m.rx.map RxRing.tailSlot).getD 0) a (UInt32.ofNat size)
    generalize m.writeRx ((m.rx.map RxRing.tailSlot).getD 0) a (UInt32.ofNat size) = k at steady same ⊢
    have steady' := steady.trans (alter k place b .acquired fun p => p.move b .posted)
    have same' := (altered k .acquired fun p => p.move b .posted).trans same
    split
    · next e =>
      rw [Machine.markPosted] at e
      rw [e] at steady' same'
      exact kept steady' same'
    · next k' e =>
      rw [Machine.markPosted] at e
      rw [e] at steady' same'
      have rx' : k'.rx = some r := same'.trans rx
      have posted : (k'.modifyRx fun r => r.post b).rx = some (r.post b) := by
        rw [Machine.modifyRx_eq_setRx rx']
        rfl
      refine ⟨steady'.trans ⟨fun q bs' hq holds' => ?_, .of_journal_eq _ rfl⟩, r.post b, bs ++ [b],
        posted, holds.post room b, rfl, ?_⟩
      · obtain rfl := Option.some.inj (hq.symm.trans rx')
        refine ⟨_, posted, .of_post holds' ?_ b⟩
        rw [← holds'.posted_eq, holds.posted_eq]
        exact room
      · rw [length_append, length_singleton]

/-- **Filling up is steady.** -/
theorem refill (m : Machine) (place : Nat) {r : RxRing} {bs : List BufferId} (rx : m.rx = some r)
    (holds : r.Holds bs) : RxSteady m (m.refill place).machine := by
  have rounds (n : Nat) (f : Machine.Refill) (r : RxRing) (bs : List BufferId)
      (rx : f.machine.rx = some r) (holds : r.Holds bs) (room : bs.length + n ≤ r.capacity) :
      RxSteady f.machine (loop (Machine.refillOne place) n f).machine := by
    induction n generalizing f r bs with
    | zero => exact refl _
    | succ n ih =>
      have acquired : RxSteady f.machine (f.machine.acquire place).2 :=
        of_rx_eq rfl (.of_journal_eq _ rfl)
      have rx' : (f.machine.acquire place).2.rx = some r := rx
      cases answer : f.machine.acquire place with
      | mk taken k =>
        rw [answer] at acquired rx'
        cases taken with
        | none =>
          have stop : Machine.refillOne place f =
              (false, ⟨f.filled, (k.modifyRx RxRing.noteDeferral).give .rxRefillDeferred⟩) := by
            rw [Machine.refillOne, answer]
          have noted : RxSteady k (k.modifyRx RxRing.noteDeferral) :=
            adjust k fun _ => ⟨rfl, rfl, rfl, rfl, rfl, rfl⟩
          rw [loop_of_stop (by rw [stop]), stop]
          exact (acquired.trans noted).trans (give _ _)
        | some b =>
          obtain ⟨posted, r', bs', rx'', holds', capacity, longer⟩ :=
            postBuffer place b rx' holds (by omega)
          cases result : k.postBuffer place b with
          | mk answer' k' =>
            rw [result] at posted rx''
            cases answer' with
            | error cause =>
              have stop : Machine.refillOne place f = (false, ⟨f.filled, k'⟩) := by
                rw [Machine.refillOne, answer]
                dsimp only
                rw [result]
              rw [loop_of_stop (by rw [stop]), stop]
              exact acquired.trans posted
            | ok _ =>
              have again : Machine.refillOne place f = (true, ⟨f.filled + 1, k'⟩) := by
                rw [Machine.refillOne, answer]
                dsimp only
                rw [result]
              rw [loop_of_again (by rw [again]), again]
              exact (acquired.trans posted).trans
                (ih ⟨f.filled + 1, k'⟩ r' bs' rx'' holds' (by rw [capacity]; omega))
  unfold Machine.refill
  dsimp only
  refine rounds _ ⟨0, m⟩ r bs rx holds ?_
  have fits := holds.fits
  rw [rx, Option.map_some, Option.getD_some, RxRing.unfilled, holds.posted_eq]
  omega

theorem checkRxReading (m : Machine) (c : Counter) : RxSteady m (m.checkRxReading c) := by
  unfold Machine.checkRxReading
  split
  · exact refl m
  · refine (giveIf m _ _).trans (adjust _ fun r => ?_)
    unfold RxRing.noteReading
    split <;> exact ⟨rfl, rfl, rfl, rfl, rfl, rfl⟩

theorem ringRx (m : Machine) (filled : Nat) : RxSteady m (m.ringRx filled) := by
  unfold Machine.ringRx
  split
  · exact refl m
  · exact write m _ _

end RxSteady

/-! ## A whole service -/

/-- Since a machine `m₀`, with a ring `r` that held `bs` over a pool `p`, so many completions were taken
in. -/
structure RxTaken (r : RxRing) (p : BufferPool) (bs : List BufferId) (m₀ : Machine) (k : Nat)
    (m : Machine) : Prop where
  /-- This is what the ring held. -/
  holds : r.Holds bs
  /-- As many slots were passed. -/
  ring : ∃ r', m.rx = some r' ∧ r.Passed bs k r'
  /-- Every event is kept. -/
  complete : m.journal.detail = .complete
  /-- The completions were read, and frames shown. -/
  taken : ∃ es, m.journal.events.toList = m₀.journal.events.toList ++ es ∧ r.TakesIn p k es

namespace RxTaken

variable {r : RxRing} {p : BufferPool} {bs : List BufferId} {m₀ m m' : Machine} {k : Nat}

theorem start (rx : m.rx = some r) (holds : r.Holds bs) (complete : m.journal.detail = .complete)
    (p : BufferPool) : RxTaken r p bs m 0 m :=
  ⟨holds, ⟨r, rx, .refl holds⟩, complete, [], (append_nil _).symm, .nil r p⟩

/-- What is steady takes nothing in. -/
theorem stay (h : RxTaken r p bs m₀ k m) (steady : RxSteady m m') : RxTaken r p bs m₀ k m' := by
  obtain ⟨r', rx, passed⟩ := h.ring
  obtain ⟨es, events, taken⟩ := h.taken
  obtain ⟨es', events', quiet⟩ := steady.entered.events h.complete
  exact ⟨h.holds, steady.passed rx passed, steady.entered.detail.trans h.complete, es ++ es',
    by rw [events', events, append_assoc], taken.quiet quiet⟩

end RxTaken

namespace Machine

variable {s : Served} {permits : Move → Prop} {place : Nat} {r : RxRing} {p : BufferPool}
  {b : BufferId} {c : Completion}

/-- A frame is shown at once, and what happens after that is steady. -/
theorem shown_deliverFrame (pool : s.machine.poolAt? place = some p)
    (state : p.stateOf? b = some .posted) (rx : s.machine.rx = some r)
    (abides : s.upper.Abides (RxMeanwhile permits place)) :
    ∃ k f bytes, f.Shows r p b c ∧ RxSteady s.machine k ∧ k.journal = s.machine.journal ∧
      RxSteady (k.record (.delivered f bytes))
        (deliverFrame s place b (p.base b) c.length.toNat).machine := by
  rw [deliverFrame_eq rx pool state]
  set f := frameOf place r p b c
  have placed : (s.machine.setPool place (p.deliver b)).rx = some r := rx
  have moved : RxSteady s.machine (s.machine.setPool place (p.deliver b)) :=
    .of_rx_eq rfl (.of_journal_eq _ rfl)
  have counted : RxSteady (s.machine.setPool place (p.deliver b))
      ((s.machine.setPool place (p.deliver b)).modifyRx fun r => r.noteDelivery f.length) :=
    .adjust _ fun _ => ⟨rfl, rfl, rfl, rfl, rfl, rfl⟩
  rw [modifyRx_eq_setRx placed] at counted
  refine ⟨_, f, f.bytes s.machine.memory, ⟨rfl, rfl, rfl, rfl⟩, moved.trans counted, rfl, ?_⟩
  set told : Served := ⟨s.count + 1, s.upper, s.machine.showFrame place r p b c⟩
  have replies : (told.dispose f).upper.replies = s.upper.replies := by
    unfold Served.dispose
    dsimp only
    split <;> rfl
  have bound : (told.dispose f).upper.Abides (RxMeanwhile permits place) :=
    fun reply hr => abides reply (replies ▸ hr)
  exact (RxSteady.dispose told f).trans (.reply bound)

end Machine

namespace RxTaken

variable {T : RxTrack} {r : RxRing} {p : BufferPool} {bs : List BufferId} {m₀ m : Machine}
  {k n due unrung : Nat}

/-- **One completion is taken in**, and it is the next one. -/
theorem takeSlot {s : Served} (taken : RxTaken r p bs m₀ k s.machine) (more : k < bs.length)
    (h : RxAt T .plain { filled := n, due := due + 1, unrung := unrung } s.machine)
    (kept : ∀ q, s.machine.poolAt? T.place = some q → p.Kept q)
    (abides : s.upper.Abides (RxMeanwhile T.permits T.place)) :
    RxTaken r p bs m₀ (k + 1) (Machine.takeSlot s T.place).machine := by
  obtain ⟨b, slot, known, passed⟩ := RxAt.pass (g := { filled := n, unrung := unrung }) h rfl
  obtain ⟨r', rx, here⟩ := taken.ring
  obtain ⟨next, buffer⟩ := here.head more
  rw [rx, Option.map_some, buffer] at known
  obtain ⟨rfl, hb⟩ := Prod.mk.inj (Option.some.inj known)
  obtain rfl := Option.some.inj hb
  have at_once : Machine.takeSlot s T.place = Machine.takeCompletion
      ⟨s.count, s.upper, ((s.machine.modifyRx RxRing.pass).readCompletion r'.headSlot).2⟩ T.place
      bs[k] ((s.machine.modifyRx RxRing.pass).readCompletion r'.headSlot).1 := by
    rw [Machine.takeSlot, rx, Option.map_some]
    dsimp only
    rw [buffer]
    rfl
  obtain ⟨c, m', answer, look⟩ :=
    RxAt.take (g := { filled := n - 1, due := due, unrung := unrung, transit := [bs[k]] }) passed
  rw [at_once, answer]
  dsimp only
  -- the slot is passed, and its completion is read
  obtain ⟨rfl, rfl⟩ := Prod.mk.inj answer
  set m' := (s.machine.modifyRx RxRing.pass).turn
  set c := m'.adapter.completionAt r'.headSlot
  have turned : RxSteady (s.machine.modifyRx RxRing.pass) m' :=
    .of_rx_eq (Machine.rx_turn _) (.turn (fun _ => rfl) _)
  have pool_eq : (m'.record (.readCompletion r'.headSlot c)).poolAt? T.place =
      s.machine.poolAt? T.place := (Machine.poolAt?_record _ _ _).trans (Machine.poolAt?_turn _ _)
  have rx' : (m'.record (.readCompletion r'.headSlot c)).rx = some r'.pass := by
    rw [Machine.toScene_record]
    refine (Machine.rx_turn _).trans ?_
    rw [Machine.modifyRx_eq_setRx rx]
    rfl
  obtain ⟨es, events, before⟩ := taken.taken
  obtain ⟨moves, moved, quiet⟩ := turned.entered.events taken.complete
  have complete : m'.journal.detail = .complete := turned.entered.detail.trans taken.complete
  have looked : (m'.record (.readCompletion r'.headSlot c)).journal.events.toList =
      m₀.journal.events.toList ++ (es ++ moves ++ [.readCompletion r'.headSlot c]) := by
    have old : m'.journal.events.toList = s.machine.journal.events.toList ++ moves := moved
    rw [Machine.journal_record, Journal.toList_events_add complete, old, events]
    simp only [append_assoc]
  have complete' : (m'.record (.readCompletion r'.headSlot c)).journal.detail = .complete := by
    rw [Machine.journal_record, Journal.detail_add]
    exact complete
  have passing := here.pass more
  generalize m'.record (.readCompletion r'.headSlot c) = m₁ at look rx' pool_eq looked complete' ⊢
  -- the pool still has the buffer down as posted
  obtain ⟨⟨q, p', bs', guard⟩, -⟩ := look
  obtain rfl : q = r'.pass := Option.some.inj (guard.rx.symm.trans rx')
  have same : p.Kept p' := kept p' (pool_eq.symm.trans guard.pool)
  have posted : p'.stateOf? bs[k] = some .posted :=
    (guard.ledger.posted.mem_iff _).mp (mem_append_right _ mem_cons_self)
  have size : p'.bufferSize = p.bufferSize := congrArg Layout.size same.layout
  unfold Machine.takeCompletion
  dsimp only
  rw [rx', guard.pool, Option.map_some, Option.getD_some, Option.any_some, passing.deliverable_eq,
    size]
  split
  case isTrue whole =>
    rw [Option.bind_some, BufferPool.addressOf?_eq_base posted]
    obtain ⟨m₂, f, bytes, shows, steady, journal, rest⟩ := Machine.shown_deliverFrame (c := c)
      (s := ⟨s.count, s.upper, m₁⟩) guard.pool posted rx' abides
    obtain ⟨r'', rx'', passed'⟩ := steady.passed rx' passing
    have complete'' : m₂.journal.detail = .complete := by
      rw [journal]
      exact complete'
    have mine : f.Shows r p bs[k] c :=
      ⟨shows.buffer, shows.address.trans (same.base _), shows.pad.trans passing.pad,
        shows.length.trans (by rw [passing.pad])⟩
    have first : r.bufferAt? r'.headSlot = some bs[k] := by
      rw [next]
      exact taken.holds.filled k _ (getElem?_eq_getElem more)
    refine stay ⟨taken.holds, ⟨r'', ?_, passed'⟩, ?_, _, ?_,
      (before.quiet quiet).deliver next whole first mine bytes⟩ rest
    · rw [Machine.toScene_record]
      exact rx''
    · rw [Machine.journal_record, Journal.detail_add]
      exact complete''
    · rw [Machine.journal_record, Journal.toList_events_add complete'', journal, looked]
      simp
  case isFalse lost =>
    refine stay ⟨taken.holds, ⟨r'.pass, rx', passing⟩, complete', _, looked, ?_⟩
      (.dropCompletion m₁ _ _ _)
    exact (before.quiet quiet).lose next (Bool.eq_false_iff.mpr lost)

end RxTaken

section Service

variable {T : RxTerms} {switches : Prop} {r : RxRing} {p : BufferPool} {bs : List BufferId}
  {m₀ m : Machine} {k n : Nat}

/-- **Completions are taken in one after the other**, and what is posted in between does not matter. -/
theorem RxTaken.serveRounds (rounds : Nat) {s : Machine.RxService}
    (taken : RxTaken r p bs m k s.served.machine) (more : k + rounds ≤ bs.length)
    (h : RxAt (T.track switches m₀) .plain { filled := n, due := rounds, unrung := s.filled }
      s.served.machine)
    (origin : m₀.poolAt? T.place = some p)
    (abides : s.served.upper.Abides (RxMeanwhile T.permits T.place)) :
    RxTaken r p bs m (k + rounds)
      (loop (Machine.RxService.round T.place) rounds s).served.machine := by
  induction rounds generalizing k n s with
  | zero => exact taken
  | succ rounds ih =>
    have kept (q : BufferPool) (pool : s.served.machine.poolAt? T.place = some q) : p.Kept q := by
      obtain ⟨q', pool', kept⟩ := h.kept origin
      obtain rfl : q' = q := Option.some.inj (pool'.symm.trans pool)
      exact kept
    have next := taken.takeSlot (by omega) h kept abides
    obtain ⟨⟨n₁, at_slot⟩, abides'⟩ := h.takeSlot abides
    obtain ⟨n₂, refilled⟩ := at_slot.refill
    obtain ⟨r', rx, passed⟩ := next.ring
    obtain ⟨new, holds⟩ := passed.holds
    rw [loop_of_again rfl, ← Nat.succ_add_eq_add_succ]
    exact ih (next.stay (.refill _ T.place rx holds)) (by omega) refilled abides'

/-- The reading that a running ring makes when it is served. -/
def Machine.rxReading (m : Machine) : Counter := (m.readCounter .rxConsumer).1

/-- **Serving a running ring takes in what the adapter announces**, and nothing else. -/
theorem RxInUse.takesIn {permits : Move → Prop} {place : Nat} {size : RingSize} {u : Upper}
    (used : RxInUse permits place size m) (rx : m.rx = some r) (pool : m.poolAt? place = some p)
    (running : r.phase = .running) (abides : u.Abides (RxMeanwhile permits place)) :
    ∃ r' es, (m.advanceRx u).machine.rx = some r' ∧
      r'.consumer = r.consumer.advance (r.ready m.rxReading) ∧
      (m.advanceRx u).machine.journal.events.toList = m.journal.events.toList ++ es ∧
      r.TakesIn p (r.ready m.rxReading) es := by
  obtain ⟨n, q, p', bs, guard⟩ := used
  obtain rfl : q = r := Option.some.inj (guard.rx.symm.trans rx)
  obtain rfl : p' = p := Option.some.inj (guard.pool.symm.trans pool)
  have draws : q.pool = place := guard.place
  -- the counter is read
  obtain ⟨k, answer, ⟨q₁, p₁, bs₁, guard₁⟩, run⟩ := (guard.here True).readCounter .rxConsumer
  have looked : RxSteady m k ∧ k.rx = m.rx := by
    have steady : RxSteady m (m.readCounter .rxConsumer).2 := .read m .rxConsumer
    have same : (m.readCounter .rxConsumer).2.rx = m.rx := by
      refine Eq.trans ?_ m.rx_turn
      rw [Machine.readCounter, Machine.read, Machine.toScene_record]
    rw [answer] at steady same
    exact ⟨steady, same⟩
  obtain ⟨steady, same⟩ := looked
  have begun : RxTaken q p' bs m 0 k := (RxTaken.start rx guard.holds guard.complete p').stay steady
  obtain rfl : q₁ = q := Option.some.inj (guard₁.rx.symm.trans (same.trans rx))
  have few : q₁.ready (k.adapter.counter .rxConsumer) ≤ bs.length := by
    rw [RxRing.ready, RxRing.believes, guard.holds.posted_eq]
    split
    · exact of_decide_eq_true ‹_›
    · exact Nat.zero_le _
  have ready : (k.rx.map fun r => r.ready (k.adapter.counter .rxConsumer)).getD 0 =
      q₁.ready (k.adapter.counter .rxConsumer) := by
    rw [guard₁.rx]
    rfl
  -- the completions are taken in
  have announced : RxAt ((RxTerms.over place size permits).track True m) .plain
      { filled := n, due := q₁.ready (k.adapter.counter .rxConsumer) } k :=
    ⟨⟨q₁, p₁, bs₁, guard₁.announce⟩, run⟩
  have taken := (begun.stay (.checkRxReading k _)).serveRounds _ (s := ⟨.start u _, 0⟩)
    ((Nat.zero_add _).le.trans few) (announced.checkRxReading (k.adapter.counter .rxConsumer)) pool abides
  rw [Nat.zero_add] at taken
  obtain ⟨r', rx', passed⟩ := taken.ring
  obtain ⟨new, holds⟩ := passed.holds
  have filled := taken.stay (.refill _ place rx' holds)
  have served : RxTaken q₁ p' bs m (q₁.ready m.rxReading) (m.advanceRx u).machine := by
    unfold Machine.advanceRx Machine.rxReading
    rw [rx]
    dsimp only
    rw [running, draws]
    dsimp only
    unfold Machine.serveRx
    rw [answer]
    dsimp only
    rw [ready]
    exact filled.stay ((RxSteady.ringRx _ _).trans (.giveIf _ _ _))
  obtain ⟨r'', rx'', passed'⟩ := served.ring
  obtain ⟨es, events, takes⟩ := served.taken
  exact ⟨r'', es, rx'', passed'.consumer, events, takes⟩

end Service

end DescriptorRings
