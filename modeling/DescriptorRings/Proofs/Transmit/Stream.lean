import DescriptorRings.Proofs.Transmit.Doorbell
import DescriptorRings.Proofs.Transmit.Emission
import DescriptorRings.Proofs.Transmit.Flight

/-!
# The stream of descriptors

What the adapter finds in its slots is a stream: from one start of the ring to the next, one
descriptor after another in the slots from the counter that the start has read.  The stream is made
piecemeal.  A posting walk skips packets that are ignored, stops at one that does not fit, and is
taken up again when packets have gone and others have come; a cancellation cuts it off.  This file
proves that none of this shows: the stream is that of whole packets in the order of submission
(`descriptors_stream_in_whole_packets`).

The proof goes by requests.  Whatever a request does between two starts is one sweep, mostly an
empty one (`TxOngoing.swept`), and it begins at the ring's producer.  Since the start put the
producer at its counter, and every sweep leaves it behind the last descriptor, the sweeps of a run
join up (`TxStreaming`).  That packets are posted in order and at most once concerns the whole life
of a ring; it has been proved of its steps, and is read off here.
-/

namespace DescriptorRings

open Relation List TxRing

variable {permits : Move → Prop} {size : RingSize} {depth : Nat} {m m' k : Machine} {r r' : TxRing}
  {c : Counter} {ts us : List TxPost}

/-! ## One packet -/

/-- The descriptors of a packet are its fragments, in order, and delimit one frame. -/
structure Packet.Framed (p : Packet) : Prop where
  /-- There is one for each fragment. -/
  length : p.descriptors.length = p.fragmentCount
  /-- It names the fragment. -/
  fragment : ∀ (i : Nat) (d : TxDescriptor), p.descriptors[i]? = some d →
    p.fragments[i]? = some (⟨d.address, d.length⟩ : Fragment)
  /-- The first one opens the frame, and no other does. -/
  opens : ∀ i d, p.descriptors[i]? = some d → (hasBits d.flags TxFlags.first = true ↔ i = 0)
  /-- The first one asks for the checksum, and no other does. -/
  checksum : ∀ i d, p.descriptors[i]? = some d →
    (hasBits d.flags TxFlags.appendCrc = true ↔ i = 0)
  /-- The last one closes the frame, and no other does. -/
  closes : ∀ i d, p.descriptors[i]? = some d →
    (hasBits d.flags TxFlags.last = true ↔ i + 1 = p.fragmentCount)

/-- The bits of a descriptor tell where in its frame it stands. -/
theorem Packet.hasBits_flagsAt (count i : Nat) :
    (hasBits (flagsAt count i) TxFlags.first = true ↔ i = 0) ∧
      (hasBits (flagsAt count i) TxFlags.appendCrc = true ↔ i = 0) ∧
      (hasBits (flagsAt count i) TxFlags.last = true ↔ i + 1 = count) := by
  unfold flagsAt
  by_cases front : i = 0 <;> by_cases back : i + 1 = count
  · rw [if_pos front, if_pos back]
    exact ⟨iff_of_true (by decide) front, iff_of_true (by decide) front,
      iff_of_true (by decide) back⟩
  · rw [if_pos front, if_neg back]
    exact ⟨iff_of_true (by decide) front, iff_of_true (by decide) front,
      iff_of_false (by decide) back⟩
  · rw [if_neg front, if_pos back]
    exact ⟨iff_of_false (by decide) front, iff_of_false (by decide) front,
      iff_of_true (by decide) back⟩
  · rw [if_neg front, if_neg back]
    exact ⟨iff_of_false (by decide) front, iff_of_false (by decide) front,
      iff_of_false (by decide) back⟩

/-- **Every packet makes one frame.** -/
theorem Packet.framed (p : Packet) : p.Framed := by
  have at_place {i : Nat} {d : TxDescriptor} (hd : p.descriptors[i]? = some d) :
      p.fragments[i]? = some (⟨d.address, d.length⟩ : Fragment) ∧
        d.flags = flagsAt p.fragmentCount i := by
    rw [descriptors, getElem?_mapIdx, Option.map_eq_some_iff] at hd
    obtain ⟨f, hf, rfl⟩ := hd
    exact ⟨hf, rfl⟩
  refine ⟨p.length_descriptors, fun i d hd => (at_place hd).1, fun i d hd => ?_, fun i d hd => ?_,
    fun i d hd => ?_⟩
  · rw [(at_place hd).2]
    exact (hasBits_flagsAt _ i).1
  · rw [(at_place hd).2]
    exact (hasBits_flagsAt _ i).2.1
  · rw [(at_place hd).2]
    exact (hasBits_flagsAt _ i).2.2

/-! ## One request -/

/-- A machine with a transmit ring in use, between two requests. -/
structure TxInUse (permits : Move → Prop) (size : RingSize) (depth : Nat) (m : Machine) : Prop where
  /-- There is a ring, and the adapter plans permitted moves. -/
  ready : TxReady permits size depth m
  /-- The books are in order. -/
  kept : TxKept size.slots depth m
  /-- So is the window. -/
  flying : TxFlying (.idle, m)

theorem TxInUse.steps (used : TxInUse permits size depth m)
    (run : ReflTransGen (TxStep permits) (.idle, m) (.idle, m')) : TxInUse permits size depth m' := by
  let Inv (c : TxPoint × Machine) : Prop := Surveyed c ∧ TxReady permits size depth c.2 ∧
    TxKept size.slots depth c.2 ∧ TxFlying c
  have surveyed : Surveyed (.idle, m) := fun w q h => absurd h (Option.some_ne_none w).symm
  have start : Inv (.idle, m) := ⟨surveyed, used.ready, used.kept, used.flying⟩
  have keeps (c c' : TxPoint × Machine) (step : TxStep permits c c') (h : Inv c) : Inv c' :=
    ⟨step.surveyed c c' h.1, h.2.1.step step, TxKept.step c c' step h.1 h.2.2.1,
      TxFlying.step c c' step h.1 h.2.2.2⟩
  obtain ⟨-, ready, kept, flying⟩ := Machine.inv_of_steps Inv keeps run start
  exact ⟨ready, kept, flying⟩

theorem TxInUse.run (used : TxInUse permits size depth m)
    (run : ReflTransGen (TxRequest permits) m m') : TxInUse permits size depth m' :=
  used.steps (steps_of_requests run used.ready)

/-- What a request comes to that does not start the ring: some posts are written from the ring's
producer on, and the doorbell is rung for them. -/
structure TxSwept (size : RingSize) (r : TxRing) (ts : List TxPost) (m m' : Machine) : Prop where
  /-- The posts are written, and nothing else. -/
  emits : m.Emits (sweep size r.producer ts) m'
  /-- None of them is marked. -/
  unmarked : ∀ t ∈ ts, t.packet.ignored = false
  /-- Their descriptors lie in a row. -/
  row : writesOf size ts = r.producer.row size.slots (lay ts)
  /-- Only a running ring posts. -/
  running : ts ≠ [] → r.phase = .running
  /-- A ring that runs afterwards ran before, and has moved its producer past the posts. -/
  ring : ∃ q, m'.tx = some q ∧
    (q.phase = .running → r.phase = .running ∧ q.producer = r.producer.advance (load ts))

namespace TxSwept

/-- Nothing is posted. -/
theorem nothing (silent : m.Enters Event.Traceless m')
    (ring : ∃ q, m'.tx = some q ∧
      (q.phase = .running → r.phase = .running ∧ q.producer = r.producer)) :
    TxSwept size r [] m m' := by
  refine ⟨.of_enters silent, fun t ht => absurd ht not_mem_nil, rfl, fun h => absurd rfl h, ?_⟩
  rw [load_nil, Counter.advance_zero]
  exact ring

/-- **Serving the ring is one sweep**, of nothing unless the ring is running. -/
theorem advance {u : Upper} (used : TxInUse permits size depth m) (tx : m.tx = some r)
    (abides : u.Abides (Sending permits)) :
    ∃ ts, TxSwept size r ts m (m.advanceTx u).machine := by
  cases phase : r.phase with
  | stopped =>
    refine ⟨[], ?_⟩
    have still : (m.advanceTx u).machine = m := by
      unfold Machine.advanceTx
      rw [tx]
      dsimp only
      rw [phase]
      rfl
    rw [still]
    exact nothing (.refl _ m) ⟨r, tx, fun running => ⟨running, rfl⟩⟩
  | cancelled =>
    obtain ⟨handed, -, q, tx', -, cancelled, -⟩ := advanceTx_of_cancelled abides.meanwhile tx phase
    refine ⟨[], nothing (handed.mono fun e he => ?_) ⟨q, tx', fun running => ?_⟩⟩
    · rcases he with sending | ⟨p, rfl⟩
      · exact Event.traceless_of_isSending sending
      · rfl
    · exact absurd (cancelled.symm.trans running) Phase.noConfusion
  | running =>
    obtain ⟨q, b, ts, flight⟩ := used.flying
    obtain rfl : q = r := Option.some.inj (flight.tx.symm.trans tx)
    obtain ⟨tiled, -, unmarked, -⟩ :=
      flight.sound.collect.postingWalk (flight.based TxPoint.noConfusion)
    have hs : q.size = size := by
      obtain ⟨q', hq', hs, -⟩ := used.ready.ring
      obtain rfl := Option.some.inj (tx.symm.trans hq')
      exact hs
    have tx₁ : (m.modifyTx collect).tx = some q.collect := Machine.tx_modifyTx tx collect
    have collected : m.Enters Event.Traceless (m.modifyTx collect) := .modifyTx _ _ _
    have posted := Machine.Emits.after_enters collected (.postTx tx₁ tiled)
    have rests := Machine.rests_reclaimTx (s := .start u (m.modifyTx collect).postTx)
      abides.meanwhile (tx_postTx tx₁)
    have served := m.advanceTx_of_running tx phase u
    obtain ⟨q', tx', producer, -⟩ := rests.ring
    have all := posted.then_enters rests.silent
    rw [← served] at all tx'
    refine ⟨q.collect.postingWalk.posts, ?_, unmarked, ?_, fun _ => phase, q', tx', fun _ => ?_⟩
    · rw [← hs]
      exact all
    · exact tiled.writesOf_eq
    · exact ⟨phase, producer.trans tiled.eq_advance_load⟩

end TxSwept

/-- A request that does not start the ring, or something between two requests. -/
inductive TxOngoing (permits : Move → Prop) : Machine → Machine → Prop
  /-- A start is refused. -/
  | refused (m : Machine) (h : m.startTx.1 ≠ .ok ()) : TxOngoing permits m m.startTx.2
  /-- There is no start at all. -/
  | pause {m m' : Machine} (h : TxPause permits m m') : TxOngoing permits m m'

namespace TxOngoing

theorem request (h : TxOngoing permits m m') : TxRequest permits m m' := by
  cases h with
  | refused => exact .start m
  | pause h => exact h.request

/-- **Between two starts every request is one sweep**, mostly of nothing. -/
theorem swept (h : TxOngoing permits m m') (used : TxInUse permits size depth m)
    (tx : m.tx = some r) : ∃ ts, TxSwept size r ts m m' := by
  cases h with
  | refused h =>
    refine ⟨[], ?_⟩
    rw [Machine.startTx_of_refused h]
    exact .nothing (.refl _ m) ⟨r, tx, fun running => ⟨running, rfl⟩⟩
  | pause h =>
    cases h with
    | cancel =>
      refine ⟨[], .nothing m.enters_cancelTx ?_⟩
      by_cases cancelled : r.phase = .cancelled
      · rw [cancelTx_of_cancelled tx cancelled]
        exact ⟨r, tx, fun running => ⟨running, rfl⟩⟩
      · obtain ⟨q, tx', cancelled, -⟩ := (Paused.begin tx cancelled).ring
        exact ⟨q, tx', fun running => absurd (cancelled.symm.trans running) Phase.noConfusion⟩
    | advance abides => exact TxSwept.advance used tx abides
    | sending act =>
      obtain ⟨intake, n, tx'⟩ := act.meanwhile.tx_eq tx
      exact ⟨[], .nothing (act.meanwhile.enters.mono fun e => Event.traceless_of_isSending)
        ⟨_, tx', fun running => ⟨running, rfl⟩⟩⟩
    | plan =>
      exact ⟨[], .nothing (.of_journal_eq _ rfl) ⟨r, tx, fun running => ⟨running, rfl⟩⟩⟩

end TxOngoing

/-! ## From a start on -/

theorem TxRequest.cases (h : TxRequest permits m m') :
    TxOngoing permits m m' ∨ m.startTx.1 = .ok () ∧ m' = m.startTx.2 := by
  cases h with
  | start =>
    by_cases ok : m.startTx.1 = .ok ()
    · exact .inr ⟨ok, rfl⟩
    · exact .inl (.refused m ok)
  | cancel => exact .inl (.pause (.cancel m))
  | advance abides => exact .inl (.pause (.advance m abides))
  | sending act => exact .inl (.pause (.sending act))
  | plan permitted => exact .inl (.pause (.plan m permitted))

/-- What was posted since the ring of the machine `k` was started at the counter `c`. -/
structure TxStreaming (size : RingSize) (c : Counter) (k m : Machine) (ts : List TxPost) :
    Prop where
  /-- These posts were announced. -/
  announced : m.journal.announced = k.journal.announced ++ ts
  /-- Their descriptors were written, in the slots from the counter on. -/
  written : m.journal.written = k.journal.written ++ c.row size.slots (lay ts)
  /-- The producer has moved past them. -/
  ring : ∀ r, m.tx = some r → r.phase = .running → r.producer = c.advance (load ts)

namespace TxStreaming

/-- Nothing has been posted right after the start. -/
theorem begin (complete : m.journal.detail = .complete) (tx : m.tx = some r)
    (ok : m.startTx.1 = .ok ()) :
    TxStreaming size (m.readCounter .txConsumer).1 m m.startTx.2 [] := by
  obtain ⟨emits, tx'⟩ := Machine.startTx_of_ok tx ok
  refine ⟨emits.announced complete, emits.written complete, fun q hq _ => ?_⟩
  obtain rfl := Option.some.inj (tx'.symm.trans hq)
  exact (Counter.advance_zero _).symm

/-- **The next sweep goes on where the stream ends**, and rings the doorbell for all of it. -/
theorem sweep_eq (h : TxStreaming size c k m ts) (tx : m.tx = some r)
    (swept : TxSwept size r us m m') :
    sweep size r.producer us = strokes size us ++
      if us = [] then [] else [.rang (c.advance (load (ts ++ us))).toUInt32] := by
  by_cases none : us = []
  · rw [sweep, if_pos none, if_pos none]
  · rw [sweep, if_neg none, if_neg none, h.ring r tx (swept.running none), load_append,
      Counter.advance_advance]

theorem swept (h : TxStreaming size c k m ts) (complete : m.journal.detail = .complete)
    (tx : m.tx = some r) (swept : TxSwept size r us m m') :
    TxStreaming size c k m' (ts ++ us) := by
  have row : writesOf size us = (c.advance (load ts)).row size.slots (lay us) := by
    by_cases none : us = []
    · rw [none]
      rfl
    · rw [swept.row, h.ring r tx (swept.running none)]
  refine ⟨?_, ?_, fun q hq running => ?_⟩
  · rw [swept.emits.announced complete, filterMap_post?_sweep, h.announced, append_assoc]
  · rw [swept.emits.written complete, filterMap_write?_sweep, h.written, row, lay_append,
      Counter.row_append, length_lay, append_assoc]
  · obtain ⟨q', hq', moved⟩ := swept.ring
    obtain rfl := Option.some.inj (hq'.symm.trans hq)
    obtain ⟨ran, producer⟩ := moved running
    rw [producer, h.ring r tx ran, Counter.advance_advance, load_append]

theorem run (used : TxInUse permits size depth m) (h : TxStreaming size c k m ts)
    (run : ReflTransGen (TxOngoing permits) m m') : ∃ us, TxStreaming size c k m' us := by
  induction run with
  | refl => exact ⟨ts, h⟩
  | @tail m₁ m₂ before step ih =>
    obtain ⟨us, h⟩ := ih
    have used₁ := used.run (before.lift id fun _ _ => TxOngoing.request)
    obtain ⟨r, tx, -⟩ := used₁.ready.ring
    obtain ⟨vs, swept⟩ := step.swept used₁ tx
    exact ⟨us ++ vs, h.swept used₁.kept.complete tx swept⟩

end TxStreaming

/-- **What a run posts**: packets that are not ignored, each of them whole. -/
theorem TxInUse.posts (used : TxInUse permits size depth m)
    (run : ReflTransGen (TxRequest permits) m m') :
    ∃ ts, m'.journal.announced = m.journal.announced ++ ts ∧
      m'.journal.written = m.journal.written ++ writesOf size ts ∧
      ∀ t ∈ ts, t.packet.ignored = false := by
  induction run with
  | refl =>
    exact ⟨[], (append_nil _).symm, (append_nil _).symm, fun t ht => absurd ht not_mem_nil⟩
  | @tail m₁ m₂ first request ih =>
    obtain ⟨ts, announced, written, unmarked⟩ := ih
    have used₁ := used.run first
    obtain ⟨r, tx, -⟩ := used₁.ready.ring
    rcases request.cases with ongoing | ⟨ok, rfl⟩
    · obtain ⟨us, swept⟩ := ongoing.swept used₁ tx
      refine ⟨ts ++ us, ?_, ?_, fun t ht => ?_⟩
      · rw [swept.emits.announced used₁.kept.complete, filterMap_post?_sweep, announced,
          append_assoc]
      · rw [swept.emits.written used₁.kept.complete, filterMap_write?_sweep, written, append_assoc,
          writesOf, writesOf, writesOf, flatMap_append]
      · rcases mem_append.mp ht with ht | ht
        · exact unmarked t ht
        · exact swept.unmarked t ht
    · have started : TxStreaming size _ m₁ m₁.startTx.2 [] := .begin used₁.kept.complete tx ok
      refine ⟨ts, ?_, ?_, unmarked⟩
      · rw [started.announced, append_nil, announced]
      · rw [started.written, lay_nil, Counter.row_nil, append_nil, written]

/-! ## The whole life of a ring -/

/-- Nothing but whole packets is ever posted. -/
structure Journal.PostsPackets (j : Journal) : Prop where
  /-- The packets posted are among those taken in, in the same order, each at most once. -/
  among : j.announced.map TxPost.packet <+ j.accepted
  /-- None of them was marked when it was reached. -/
  unmarked : ∀ t ∈ j.announced, t.packet.ignored = false
  /-- The descriptors written are theirs, packet by packet. -/
  written : j.written.map Prod.snd = lay j.announced
  /-- The descriptors of each packet make one frame. -/
  framed : ∀ t ∈ j.announced, t.packet.Framed

/-- Apart from their slots, the descriptors written are those of the packets. -/
theorem map_snd_writesOf (size : RingSize) (ts : List TxPost) :
    (writesOf size ts).map Prod.snd = lay ts := by
  rw [writesOf, map_flatMap, lay]
  simp only [writes_eq, Counter.map_snd_row]

/-- Nothing was taken in yet. -/
theorem WithdrawnIn.new {slots : Nat} (new : m.NewTx slots depth) :
    WithdrawnIn 0 0 [] (.idle, m) := by
  obtain ⟨r, made, tx⟩ := new.made
  obtain ⟨size, -, rfl⟩ := TxRing.create_eq_ok made
  refine ⟨_, tx, new.complete, fun k _ upper => absurd upper (Nat.not_lt_zero k), Nat.zero_le _, [],
    ?_, nil_sublist _⟩
  rw [Journal.announced, Journal.pick, new.fresh]
  rfl

/-- **Over its whole life a ring posts whole packets.** -/
theorem Journal.PostsPackets.of_run {slots : Nat} (new : m.NewTx slots depth)
    (planned : Machine.Permitted permits m.agenda) (run : ReflTransGen (TxRequest permits) m m') :
    m'.journal.PostsPackets := by
  obtain ⟨size, rfl, ready, surveyed, kept⟩ := new.begins planned
  obtain ⟨ts, announced, written, unmarked⟩ :=
    TxInUse.posts ⟨ready, kept, .new new⟩ run
  have nothing : m.journal.announced = [] ∧ m.journal.written = [] := by
    rw [Journal.announced, Journal.written, Journal.pick, Journal.pick, new.fresh]
    exact ⟨rfl, rfl⟩
  rw [nothing.1, nil_append] at announced
  rw [nothing.2, nil_append] at written
  refine ⟨?_, ?_, ?_, fun t _ => t.packet.framed⟩
  · obtain ⟨-, q, held⟩ := Machine.inv_of_steps (fun c => Surveyed c ∧ WithdrawnIn 0 0 [] c)
      (fun c c' step h => ⟨step.surveyed c c' h.1, WithdrawnIn.step c c' step h.1 h.2⟩)
      (steps_of_requests run ready) ⟨surveyed, .new new⟩
    obtain ⟨later, announced, among⟩ := held.later
    rw [announced]
    exact (sublist_append_left _ _).trans among
  · rw [announced]
    exact unmarked
  · rw [written, announced, map_snd_writesOf]

/-- **The stream of descriptors.**  A transmit ring is used in any way, whatever the adapter answers
and whatever the upper layer submits in its callbacks.  All that it posts over its whole life are
whole packets.  While it runs, its doorbell stands at its producer after every request, as long as
the adapter leaves the doorbell alone.  Serving it writes packet after packet and rings the doorbell
once at the end, or not at all if there was no packet.  And from each start, at whatever counter the
adapter is found then, up to the next one, the descriptors lie in one row that begins there, and the
doorbell is always rung at the end of a packet. -/
theorem descriptors_stream_in_whole_packets {slots depth : Nat} {permits : Move → Prop}
    {m₀ m : Machine} (new : m₀.NewTx slots depth)
    (planned : Machine.Permitted permits m₀.agenda)
    (run : ReflTransGen (TxRequest permits) m₀ m) :
    ∃ size : RingSize, size.slots = slots ∧ m.journal.PostsPackets ∧
      ((∀ mv, permits mv → mv.Spares .txProducer) → ∀ r, m.tx = some r → r.phase = .running →
        m.adapter.read .txProducer = r.producer.toUInt32) ∧
      (∀ u, u.Abides (Sending permits) → ∃ later v, (m.advanceTx u).machine.journal.txMarks =
        m.journal.txMarks ++ strokes size later ++ if later = [] then [] else [.rang v]) ∧
      (m.startTx.1 = .ok () → ∀ m', ReflTransGen (TxOngoing permits) m.startTx.2 m' →
        ∃ ts, TxStreaming size (m.readCounter .txConsumer).1 m m' ts ∧
          ∀ u, u.Abides (Sending permits) → ∃ later, (m'.advanceTx u).machine.journal.txMarks =
            m'.journal.txMarks ++ strokes size later ++ if later = [] then [] else
              [.rang ((m.readCounter .txConsumer).1.advance (load (ts ++ later))).toUInt32]) := by
  obtain ⟨size, rfl, ready, surveyed, kept⟩ := new.begins planned
  have used : TxInUse permits size depth m := TxInUse.run ⟨ready, kept, .new new⟩ run
  obtain ⟨r, tx, -⟩ := used.ready.ring
  refine ⟨size, rfl, .of_run new planned run, fun spares r' hr running => ?_, fun u abides => ?_,
    fun ok m' since => ?_⟩
  · obtain ⟨-, q, hq, rung⟩ := Machine.inv_of_steps (fun c => Surveyed c ∧ TxRung c)
      (fun c c' step h => ⟨step.surveyed c c' h.1, TxRung.step spares c c' step h.1 h.2⟩)
      (steps_of_requests run ready) ⟨surveyed, .new new⟩
    obtain rfl := Option.some.inj (hq.symm.trans hr)
    exact rung running
  · obtain ⟨later, swept⟩ := TxSwept.advance used tx abides
    refine ⟨later, (r.producer.advance (load later)).toUInt32, ?_⟩
    rw [swept.emits.marks used.kept.complete, append_assoc]
    rfl
  · have started := used.run (.single (.start m))
    obtain ⟨ts, streaming⟩ := (TxStreaming.begin used.kept.complete tx ok).run started since
    refine ⟨ts, streaming, fun u abides => ?_⟩
    have requests : ReflTransGen (TxRequest permits) m.startTx.2 m' :=
      since.lift id fun _ _ => TxOngoing.request
    have used' := started.run requests
    obtain ⟨r', tx', -⟩ := used'.ready.ring
    obtain ⟨later, swept⟩ := TxSwept.advance used' tx' abides
    refine ⟨later, ?_⟩
    rw [swept.emits.marks used'.kept.complete, streaming.sweep_eq tx' swept, append_assoc]

/-- The ring is started for the second time, one descriptor before the counters wrap.  The packet
that is ignored gets no descriptor, and the last one has to wait for room. -/
theorem descriptors_stream_in_whole_packets_wrapping :
    ∃ m m', ReflTransGen (TxRequest (Move.Spares .txProducer)) (.withTx ⟨4, by decide⟩ 4) m ∧
      m.startTx.1 = .ok () ∧
      ReflTransGen (TxOngoing (Move.Spares .txProducer)) m.startTx.2 m' ∧
      m.journal.written.map Prod.fst = [0, 1] ∧
      m'.journal.written.map Prod.fst = [0, 1, 3, 0, 1, 2] ∧
      m'.adapter.read .txProducer = 3 ∧ m.journal.PostsPackets ∧
      ∃ (size : RingSize) (ts : List TxPost), size.slots = 4 ∧ TxStreaming size 65535 m m' ts ∧
        ∃ later, (m'.advanceTx .silent).machine.journal.txMarks = m'.journal.txMarks ++
          strokes size later ++
            if later = [] then [] else [.rang (Counter.advance 65535 (load (ts ++ later))).toUInt32]
    := by
  let p : Packet := (Packet.single 1 ⟨.ofNat 0x1000, 64⟩).push ⟨.ofNat 0x1100, 64⟩
  have assigned : Move.Spares .txProducer (.assign .txConsumer 65535) := fun a =>
    Adapter.read_assign_of_ne a (by decide) _
  have consumed : Move.Spares .txProducer (.consume 2) := fun a =>
    Adapter.read_assign_of_ne a (by decide) _
  let spell : Machine :=
    ((Machine.withTx ⟨4, by decide⟩ 4).startTx.2.submit p).2.advanceTx .silent |>.machine
  let m : Machine := (spell.cancelTx.advanceTx .silent).machine.move (.assign .txConsumer 65535)
  have first : ReflTransGen (TxRequest (Move.Spares .txProducer)) (.withTx ⟨4, by decide⟩ 4) m :=
    ReflTransGen.refl
      |>.tail (.start _)
      |>.tail (.sending (.submit _ p))
      |>.tail (.advance _ (Upper.abides_silent _))
      |>.tail (.cancel spell)
      |>.tail (.advance _ (Upper.abides_silent _))
      |>.tail (.sending (.move _ assigned))
  have second : ReflTransGen (TxOngoing (Move.Spares .txProducer)) m.startTx.2 _ :=
    ReflTransGen.refl
      |>.tail (.pause (.sending (.submit _ p)))
      |>.tail (.pause (.sending (.submit _ p.ignore)))
      |>.tail (.pause (.sending (.submit _ p)))
      |>.tail (.pause (.advance _ (Upper.abides_silent _)))
      |>.tail (.pause (.sending (.move _ consumed)))
      |>.tail (.pause (.advance _ (Upper.abides_silent _)))
      |>.tail (.pause (.advance _ (Upper.abides_silent _)))
  obtain ⟨size, hs, packets, -, -, stream⟩ := descriptors_stream_in_whole_packets
    (Machine.newTx_withTx ⟨4, by decide⟩ 4) (fun _ h => absurd h not_mem_nil) first
  have reading : (m.readCounter .txConsumer).1 = 65535 := by decide
  have ok : m.startTx.1 = .ok () := by decide
  rw [reading] at stream
  obtain ⟨ts, streaming, sweeps⟩ := stream ok _ second
  exact ⟨m, _, first, ok, second, by decide, by decide, by decide, packets, size, ts, hs,
    streaming, sweeps .silent (Upper.abides_silent _)⟩

end DescriptorRings
