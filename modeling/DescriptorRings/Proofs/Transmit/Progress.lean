import DescriptorRings.Proofs.Machine.Strokes
import DescriptorRings.Proofs.Transmit.Reclaim
import DescriptorRings.Proofs.Transmit.Stream

/-!
# No packet waits for ever

A running ring whose adapter keeps up hands all of its packets back, if nothing more is submitted.
Keeping up is meant in rounds: the adapter's counter is put where the producer stands, and then the
ring is served (`Machine.catchUp`).  A service posts before it hands back, so a packet that is posted
in one round is handed back in the next one at the earliest, and two rounds for each packet are
enough.

Why no round is in vain: what was posted when the round began is handed back by it.  If nothing was
posted, the window is empty, and then the first packet fits, for it was taken in only because it is
no longer than the whole ring (`TxFits`).  So a round that hands nothing back has passed a packet at
least.  `TxRing.owed` counts two for each packet and takes one off if some are passed; it goes down
in every round, until there are no packets.

That nothing is submitted shows in the ledger: the packets taken in are the same before and after, so
what is handed back and what is left make up the same list (`TxSettling.balance`).
-/

namespace DescriptorRings

open Relation List TxRing

variable {permits : Move → Prop} {size : RingSize} {depth : Nat} {m m' : Machine} {r r' : TxRing}

/-! ## Packets that fit -/

/-- Every packet of the ring can be posted, if there is nothing else. -/
def TxFits (m : Machine) : Prop :=
  ∀ r, m.tx = some r → ∀ p ∈ r.packets, p.fragmentCount ≤ r.capacity

/-- Packets may be moved and marked. -/
theorem TxFits.adopt (h : TxFits m) (tx : m.tx = some r) (tx' : m'.tx = some r')
    (size : r'.size = r.size)
    (packets : ∀ p ∈ r'.packets, ∃ q ∈ r.packets, p.fragmentCount = q.fragmentCount) :
    TxFits m' := by
  intro q hq p hp
  obtain rfl := Option.some.inj (tx'.symm.trans hq)
  obtain ⟨p', hp', same⟩ := packets p hp
  rw [same, capacity, size]
  exact h r tx p' hp'

theorem TxFits.of_tx_eq (h : TxFits m) (tx : m'.tx = m.tx) : TxFits m' :=
  fun r hr => h r (tx.symm.trans hr)

/-- **Only packets that fit are taken in.** -/
theorem TxStep.fits (c c' : TxPoint × Machine) (step : TxStep permits c c') (surveyed : Surveyed c)
    (h : TxFits c.2) : TxFits c'.2 := by
  cases step
  case plan | survey | written | quiet | stop | drain => exact h
  case elsewhere apart => exact h.of_tx_eq apart.tx
  case move => exact h.of_tx_eq (Machine.tx_move _ _)
  case note | look | align | switchOn | switchOff | announce | write | ring | read =>
    exact h.of_tx_eq (Machine.tx_record _ _)
  case accept r p tx free =>
    intro q hq p' hp'
    obtain rfl := Option.some.inj ((Machine.tx_record _ _).symm.trans hq)
    rw [packets_accept] at hp'
    rcases mem_append.mp hp' with old | new
    · exact h r tx p' old
    · rw [mem_singleton.mp new]
      exact (refusal?_eq_none_iff.mp free).2.1
  case place r tx => exact h.adopt tx rfl rfl fun p hp => ⟨p, hp, rfl⟩
  case abandon r tx _ => exact h.adopt tx rfl rfl fun p hp => ⟨p, hp, rfl⟩
  case collect r tx =>
    refine h.adopt tx rfl rfl fun p hp => ⟨p, ?_, rfl⟩
    rwa [packets_collect] at hp
  case mark r tx =>
    refine h.adopt tx rfl rfl fun p hp => ?_
    rw [packets, queue_cancel] at hp
    rcases mem_append.mp hp with marked | fresh
    · obtain ⟨q, hq, rfl⟩ := mem_map.mp marked
      exact ⟨q, mem_append_left _ hq, rfl⟩
    · exact ⟨p, mem_append_right _ fresh, rfl⟩
  case adopt w done r tx =>
    refine h.adopt tx rfl rfl fun p hp => ⟨p, ?_, rfl⟩
    rwa [← surveyed w r rfl tx, packets_afterWalk] at hp
  case doubt r tx =>
    obtain ⟨n, hn⟩ := exists_noteReading_eq r _
    refine h.adopt tx rfl (by rw [hn]) fun p hp => ⟨p, ?_, rfl⟩
    rwa [packets_noteReading] at hp
  case complete n p r r' tx next =>
    have size : (r'.settle p).size = r.size := by
      rcases takeDone?_eq_some_iff.mp next with ⟨rest, -, rfl⟩ | ⟨last, rest, -, -, rfl⟩ <;> rfl
    refine h.adopt tx (Machine.tx_record _ _) size fun q hq => ⟨q, ?_, rfl⟩
    rw [packets_of_takeDone? next]
    exact mem_cons_of_mem p hq
  case surrender p r r' tx next =>
    have size : (r'.settle p.ignore).size = r.size := by
      rcases takeOldest?_eq_some_iff.mp next with ⟨e, rest, -, -, rfl⟩ | ⟨rest, -, -, rfl⟩ <;> rfl
    refine h.adopt tx (Machine.tx_record _ _) size fun q hq => ⟨q, ?_, rfl⟩
    rw [packets_of_takeOldest? next]
    exact mem_cons_of_mem p hq

theorem TxFits.steps (h : TxFits m)
    (run : ReflTransGen (TxStep permits) (.idle, m) (.idle, m')) : TxFits m' := by
  have surveyed : Surveyed (.idle, m) := fun w q h => absurd h (Option.some_ne_none w).symm
  exact (Machine.inv_of_steps (fun c => Surveyed c ∧ TxFits c.2)
    (fun c c' step inv => ⟨step.surveyed c c' inv.1, step.fits c c' inv.1 inv.2⟩) run
    ⟨surveyed, h⟩).2

theorem Machine.NewTx.fits {slots depth : Nat} (new : m.NewTx slots depth) : TxFits m := by
  intro r tx p hp
  obtain ⟨q, made, tx'⟩ := new.made
  obtain rfl := Option.some.inj (tx.symm.trans tx')
  obtain ⟨size, -, rfl⟩ := create_eq_ok made
  exact absurd hp not_mem_nil

namespace TxRing

/-! ## One round -/

/-- What a tiling costs is what it covers. -/
theorem Tiled.cost_eq {a b : Counter} {es : List TxEntry} {ts : List TxPost} (h : Tiled a es ts b) :
    cost es = load ts := by
  induction h with
  | nil => rfl
  | skip _ _ ih => rw [cost_cons, TxEntry.cost, Nat.zero_add, ih]
  | post _ _ ih => rw [cost_cons, TxEntry.cost, load_cons, ih]

/-- If no descriptor is in flight, the first packet is passed. -/
theorem walk_passed_ne_nil {size : RingSize} {reclaim : Counter} {p : Packet} {ps : List Packet}
    (fits : p.fragmentCount ≤ size.capacity) : (walk size reclaim (p :: ps) reclaim).passed ≠ [] := by
  have none : reclaim.distance reclaim size.slots = 0 := by
    have self := Counter.distance_advance reclaim size size.pos
    rwa [Counter.advance_zero] at self
  unfold walk
  split
  · exact cons_ne_nil _ _
  · dsimp only
    rw [none, if_neg (by omega)]
    exact cons_ne_nil _ _

/-- The ring when it has posted what there is room for. -/
def posted (r : TxRing) : TxRing := r.collect.afterWalk r.collect.postingWalk

/-- By then no packet is in the intake, and none is lost. -/
theorem queue_posted (r : TxRing) : r.posted.queue = r.packets :=
  (append_nil _).symm.trans ((packets_afterWalk r.collect).trans (packets_collect r))

/-- If nothing is passed, the walk passes something. -/
theorem passed_ne_nil_of_walk {r : TxRing} {ts : List TxPost}
    (fits : ∀ p ∈ r.packets, p.fragmentCount ≤ r.capacity)
    (tiled : Tiled r.reclaim r.passed ts r.producer) (none : r.passed = []) (some : r.packets ≠ []) :
    r.posted.passed ≠ [] := by
  have waiting : r.collect.waiting = r.packets := by rw [packets, queue, none]; rfl
  have begins : r.producer = r.reclaim := by
    rw [tiled.eq_advance_load, ← tiled.cost_eq, none, cost_nil, Counter.advance_zero]
  have walked : r.collect.postingWalk = walk r.size r.reclaim r.packets r.reclaim := by
    rw [postingWalk, waiting]
    exact congrArg (walk r.size r.reclaim r.packets) begins
  obtain ⟨p, ps, packets⟩ := exists_cons_of_ne_nil some
  have first : (walk r.size r.reclaim (p :: ps) r.reclaim).passed ≠ [] :=
    walk_passed_ne_nil (fits p (packets ▸ mem_cons_self))
  rw [posted, walked, packets]
  exact append_ne_nil_of_right_ne_nil _ first

/-- **An adapter that has caught up** has consumed just what was posted before the walk. -/
theorem Tiled.caught_up {r : TxRing} {ts : List TxPost} {w : Walk}
    (tiled : Tiled r.reclaim r.passed ts r.producer)
    (walked : Tiled r.producer w.passed w.posts w.producer)
    (room : load ts + load w.posts ≤ r.capacity) :
    Tiled r.reclaim (r.passed ++ w.passed) (ts ++ w.posts) w.producer ∧
      load (ts ++ w.posts) ≤ r.capacity ∧
      load (ts ++ w.posts) - (r.collect.afterWalk w).unconsumed r.producer = load ts := by
  have tiled' := tiled.append walked
  have room' : load (ts ++ w.posts) ≤ r.capacity := by rwa [load_append]
  have tiled'' : Tiled (r.collect.afterWalk w).reclaim (r.collect.afterWalk w).passed
      (ts ++ w.posts) (r.collect.afterWalk w).producer := tiled'
  have reach : r.producer.past r.reclaim = load ts := by
    have := r.size.capacity_lt
    have := r.size.slots_le
    unfold capacity at room
    rw [tiled.eq_advance_load]
    exact Counter.past_advance _ (by unfold Counter.span; omega)
  refine ⟨tiled', room', ?_⟩
  rw [(load_sub_unconsumed tiled'' room' r.producer).2, inFlight_eq_load tiled'' room']
  show (if r.producer.past r.reclaim ≤ _ then r.producer.past r.reclaim else 0) = load ts
  rw [reach, load_append, if_pos (Nat.le_add_right _ _)]

/-- The rounds that the packets of a ring may take: two for each, one less if some are passed. -/
def owed (r : TxRing) : Nat := 2 * r.packets.length - if r.passed = [] then 0 else 1

theorem packets_eq_nil_of_owed (h : r.owed = 0) : r.packets = [] := by
  rw [owed] at h
  refine length_eq_zero_iff.mp ?_
  split at h <;> omega

/-- Handing back `k` packets, with all that were passed among them, pays for a round; so does passing
one. -/
theorem owed_lt {k : Nat} (length : r'.packets.length = r.packets.length - k)
    (all : r.passed.length ≤ k) (some : r.packets ≠ []) (moves : r.passed = [] → 0 < k ∨ r'.passed ≠ []) :
    r'.owed < r.owed := by
  have pos := length_pos_of_ne_nil some
  unfold owed
  by_cases none : r.passed = []
  · rw [if_pos none]
    rcases moves none with back | passed
    · split <;> omega
    · rw [if_neg passed]
      omega
  · rw [if_neg none]
    have := length_pos_of_ne_nil none
    split <;> omega

end TxRing

/-- What can happen in a callback of whoever submits nothing. -/
inductive Resting (permits : Move → Prop) : Machine → Machine → Prop
  /-- The adapter makes a move. -/
  | move (m : Machine) {mv : Move} (h : permits mv) : Resting permits m (m.move mv)
  /-- Something happens elsewhere. -/
  | elsewhere {m m' : Machine} (h : TxApart m m') : Resting permits m m'
  /-- Something is entered in the journal, other than that a packet was taken in. -/
  | note (m : Machine) {e : Event} (h : e.isAside = true) : Resting permits m (m.record e)

theorem Resting.meanwhile {permits' : Move → Prop} (h : Resting permits m m')
    (wider : ∀ mv, permits mv → permits' mv) : TxMeanwhile permits' m m' := by
  cases h with
  | move permitted => exact .move m (wider _ permitted)
  | elsewhere apart => exact .elsewhere apart
  | note aside => exact .note m aside

theorem Upper.Abides.resting {u : Upper} (abides : u.Abides (Resting permits)) :
    u.Abides (TxMeanwhile fun _ => True) :=
  abides.mono fun _ _ act => .single (act.meanwhile fun _ _ => trivial)

theorem Event.accepted?_of_isAside {e : Event} (h : e.isAside = true) : e.accepted? = none := by
  cases e <;> first | rfl | exact absurd h Bool.false_ne_true

/-- Nothing is submitted while the ring is served. -/
theorem Working.accepted_eq {shifts : Prop} (run : Working .tx shifts (Resting permits) m m')
    (complete : m.journal.detail = .complete) : m'.journal.accepted = m.journal.accepted := by
  have silent : m.Enters (fun e => e.accepted? = none) m' := by
    refine .of_run (fun k k' work => ?_) run
    cases work with
    | stroke stroke =>
      refine stroke.entered.mono fun e he => ?_
      cases e <;> first | rfl | exact absurd he Bool.false_ne_true
    | act act =>
      cases act with
      | move => exact .move (fun _ => rfl) k _
      | elsewhere apart => exact .of_journal_eq _ apart.journal
      | note aside => exact .record (Event.accepted?_of_isAside aside) k
  exact silent.pick_eq complete fun e he => he

/-- The adapter's counter stays where it was put. -/
theorem Resting.consumer_reads {v : UInt32} (act : Resting (Move.Spares .txConsumer) m m')
    (reads : m.Reads .txConsumer v) : m'.Reads .txConsumer v := by
  cases act with
  | move spares => exact reads.move spares
  | elsewhere apart =>
    exact ⟨apart.registers.consumer.trans reads.value, apart.agenda ▸ reads.planned⟩
  | note => exact reads.record _

theorem Working.consumer_reads {shifts : Prop} {v : UInt32}
    (run : Working .tx shifts (Resting (Move.Spares .txConsumer)) m m')
    (reads : m.Reads .txConsumer v) : m'.Reads .txConsumer v :=
  run.keeps (P := Machine.Reads .txConsumer v)
    (fun _ _ stroke h => stroke.reads rfl (fun _ same => by cases same) (by decide) h)
    (fun _ _ act h => act.consumer_reads h) reads

/-- The adapter catches up with the ring, and then the ring is served. -/
def Machine.catchUp (m : Machine) (u : Upper) : Machine :=
  let producer := (m.tx.map TxRing.producer).getD 0
  ((m.move (.assign .txConsumer producer.toUInt32)).advanceTx u).machine

/-- The reading that a running ring makes when it is served: the adapter's counter, after the posting
walk. -/
def Machine.txReading (m : Machine) : Counter :=
  ((m.modifyTx collect).postTx.readCounter .txConsumer).1

/-- Posting leaves the adapter's counter alone. -/
theorem Machine.Reads.postTx {v : UInt32} (reads : m.Reads .txConsumer v) :
    m.postTx.Reads .txConsumer v :=
  (Machine.working_postTx m : Working .tx False (Resting (Move.Spares .txConsumer)) m _).consumer_reads
    reads

theorem Machine.Reads.txReading_eq {v : UInt32} (reads : m.Reads .txConsumer v) :
    m.txReading = v.toUInt16 := by
  have collected : (m.modifyTx collect).Reads .txConsumer v := ⟨reads.value, reads.planned⟩
  exact congrArg UInt32.toUInt16 collected.postTx.turn.value

/-- **What serving a running ring hands back**, whatever the reading is and whatever is submitted in
the callbacks.  The ring that counts is the one after its posting walk. -/
theorem TxInUse.handedBack {u : Upper} (used : TxInUse permits size depth m) (tx : m.tx = some r)
    (running : r.phase = .running) (abides : u.Abides (TxMeanwhile permits)) :
    ∃ us q, Tiled r.reclaim r.posted.passed us r.posted.producer ∧ load us ≤ r.capacity ∧
      (m.advanceTx u).machine.tx = some q ∧ q.phase = .running ∧
      (r.posted.noteReading m.txReading).HandsBack q
        (doneWith (load us - r.posted.unconsumed m.txReading) r.posted.passed) ∧
      (m.advanceTx u).machine.journal.completed = m.journal.completed ++
        (r.posted.passed.take
          (doneWith (load us - r.posted.unconsumed m.txReading) r.posted.passed)).map
            TxEntry.packet := by
  have complete := used.kept.complete
  -- the window after the posting walk
  obtain ⟨q, b, ts, flight⟩ := used.flying
  obtain rfl : q = r := Option.some.inj (flight.tx.symm.trans tx)
  have based := flight.based TxPoint.noConfusion
  have tiled := flight.sound.tiled
  rw [based] at tiled
  obtain ⟨walked, room, -, -⟩ := flight.sound.collect.postingWalk based
  have tiled' : Tiled q.posted.reclaim q.posted.passed (ts ++ q.collect.postingWalk.posts)
      q.posted.producer := tiled.append walked
  have room' : load (ts ++ q.collect.postingWalk.posts) ≤ q.posted.capacity := by
    rw [load_append]
    exact room
  -- the machine after the posting walk
  have tx₁ : (m.modifyTx collect).tx = some q.collect := Machine.tx_modifyTx tx collect
  have tx₂ : (m.modifyTx collect).postTx.tx = some q.posted := tx_postTx tx₁
  have entered : (m.modifyTx collect).Enters Event.KeepsPackets (m.modifyTx collect).postTx :=
    Machine.enters_postTx _
  have before : (m.modifyTx collect).postTx.journal.completed = m.journal.completed :=
    entered.pick_eq complete fun e he => he
  have served := m.advanceTx_of_running tx running u
  -- what is handed back
  have back := Machine.handedBack_reclaimTx (s := .start u (m.modifyTx collect).postTx) abides
    (entered.detail.trans complete) tx₂ (c := m.txReading) rfl tiled' room'
  obtain ⟨q', tx', -, phase⟩ :=
    (Machine.rests_reclaimTx (s := .start u (m.modifyTx collect).postTx) abides tx₂).ring
  obtain ⟨q₁, tx'₁, handed⟩ := back.ring
  obtain rfl : q₁ = q' := Option.some.inj (tx'₁.symm.trans tx')
  -- the reading may be counted, and that is all that it changes
  obtain ⟨n, counted⟩ := exists_noteReading_eq q.posted m.txReading
  have passed : (q.posted.noteReading m.txReading).passed = q.posted.passed := by rw [counted]
  have completed := back.completed
  rw [passed] at completed
  rw [served]
  exact ⟨_, q₁, tiled', room', tx', phase.trans running, handed,
    completed.trans (congrArg (· ++ _) before)⟩

/-- A running ring, between two rounds.  What was handed back and what is left make up `ps`. -/
structure TxSettling (size : RingSize) (depth : Nat) (ps : List Packet) (m : Machine) (r : TxRing) :
    Prop where
  /-- The ring in question. -/
  tx : m.tx = some r
  /-- It is running. -/
  running : r.phase = .running
  /-- It has been used as a ring may be used. -/
  used : TxInUse (fun _ => True) size depth m
  /-- Each of its packets can be posted. -/
  fits : TxFits m
  /-- The adapter has no plans with its counter. -/
  planned : Machine.Permitted (Move.Spares .txConsumer) m.agenda
  /-- No packet is lost. -/
  balance : m.journal.completed ++ r.packets = ps

namespace TxSettling

variable {ps : List Packet}

/-- The adapter is told to catch up. -/
theorem assign (h : TxSettling size depth ps m r) (v : UInt32) :
    TxSettling size depth ps (m.move (.assign .txConsumer v)) r ∧
      (m.move (.assign .txConsumer v)).Reads .txConsumer v := by
  have moved : ReflTransGen (TxStep fun _ => True) (.idle, m)
      (.idle, m.move (.assign .txConsumer v)) := .single (.move trivial)
  have entered : m.Enters Event.KeepsPackets (m.move (.assign .txConsumer v)) :=
    .move (fun _ => rfl) m _
  refine ⟨⟨(Machine.tx_move _ _).trans h.tx, h.running, h.used.steps moved, h.fits.steps moved, ?_,
    ?_⟩, ?_, ?_⟩
  · rw [Machine.agenda_move]
    exact h.planned
  · rw [Journal.completed, entered.pick_eq h.used.kept.complete fun e he => he]
    exact h.balance
  · rw [Machine.toScene_move]
    exact Adapter.read_assign_self _ _ _
  · rw [Machine.agenda_move]
    exact h.planned

/-- The ledger counts what is left in the intake. -/
theorem intake_eq (h : TxSettling size depth ps m r) {q : TxRing} (tx : m'.tx = some q)
    (used : TxInUse (fun _ => True) size depth m')
    (accepted : m'.journal.accepted = m.journal.accepted)
    (balance : m'.journal.completed ++ q.queue = ps) : q.intake = #[] := by
  have before := (h.used.kept.ledger h.tx).2.2.order.length_eq
  have after := (used.kept.ledger tx).2.2.order.length_eq
  have total := congrArg length (balance.trans h.balance.symm)
  rw [accepted, before] at after
  simp only [packets, length_append] at after total
  exact Array.eq_empty_of_size_eq_zero (by rw [← Array.length_toList]; omega)

/-- **A service leaves a settled ring settled**, whatever the adapter's counter says.  Nothing is left in
the intake, and the packets that are done are gone. -/
theorem advance {u : Upper} {v : UInt32} (h : TxSettling size depth ps m r)
    (reads : m.Reads .txConsumer v) (abides : u.Abides (Resting (Move.Spares .txConsumer))) :
    ∃ us q, Tiled r.reclaim r.posted.passed us r.posted.producer ∧ load us ≤ r.capacity ∧
      TxSettling size depth ps (m.advanceTx u).machine q ∧ q.intake = #[] ∧
      (r.posted.noteReading v.toUInt16).HandsBack q
        (doneWith (load us - r.posted.unconsumed v.toUInt16) r.posted.passed) := by
  obtain ⟨us, q, tiled, room, tx, running, back, completed⟩ :=
    h.used.handedBack h.tx h.running abides.resting
  rw [reads.txReading_eq] at back completed
  set count := doneWith (load us - r.posted.unconsumed v.toUInt16) r.posted.passed
  -- nothing is lost, and nothing has come
  have run := (Machine.works_advanceTx m abides).run
  have steps := steps_advanceTx abides.resting h.used.ready
  have used := h.used.steps steps
  have balance : (m.advanceTx u).machine.journal.completed ++ q.queue = ps := by
    obtain ⟨n, counted⟩ := exists_noteReading_eq r.posted v.toUInt16
    have passed := back.passed
    have waiting := back.waiting
    rw [counted] at passed waiting
    rw [completed, TxRing.queue, passed, waiting, append_assoc, ← append_assoc (map _ _), ← map_append,
      take_append_drop]
    exact (congrArg _ r.queue_posted).trans h.balance
  have intake := h.intake_eq tx used (run.accepted_eq h.used.kept.complete) balance
  have packets : q.packets = q.queue := by rw [TxRing.packets, intake, Array.toList_empty, append_nil]
  refine ⟨us, q, tiled, room, ⟨tx, running, used, h.fits.steps steps,
    (run.consumer_reads reads).planned, ?_⟩, intake, back⟩
  rw [packets]
  exact balance

/-- **Serving a ring whose adapter has caught up.**  All packets that were passed are handed back, and
if there were none, a packet is passed at least. -/
theorem serve {u : Upper} (h : TxSettling size depth ps m r)
    (reads : m.Reads .txConsumer r.producer.toUInt32)
    (abides : u.Abides (Resting (Move.Spares .txConsumer))) :
    ∃ r' k, TxSettling size depth ps (m.advanceTx u).machine r' ∧
      r'.packets.length = r.packets.length - k ∧ r.passed.length ≤ k ∧
      (r.packets ≠ [] → r.passed = [] → 0 < k ∨ r'.passed ≠ []) := by
  obtain ⟨us, r', tiled₁, -, settled, intake, back⟩ := h.advance reads abides
  rw [UInt16.toUInt16_toUInt32] at back
  -- the window, before and after the posting walk
  obtain ⟨q, b, ts, flight⟩ := h.used.flying
  obtain rfl : q = r := Option.some.inj (flight.tx.symm.trans h.tx)
  have based := flight.based TxPoint.noConfusion
  have tiled := flight.sound.tiled
  rw [based] at tiled
  obtain ⟨walked, room, -, -⟩ := flight.sound.collect.postingWalk based
  obtain ⟨tiled', -, done⟩ := tiled.caught_up walked room
  -- what the adapter has consumed is what was posted before
  have same : load us = load (ts ++ q.collect.postingWalk.posts) :=
    tiled₁.cost_eq.symm.trans tiled'.cost_eq
  have covered : load us - q.posted.unconsumed q.producer = load ts := by
    rw [same]
    exact done
  obtain ⟨n, counted⟩ := exists_noteReading_eq q.posted q.producer
  rw [covered, counted] at back
  have passed := back.passed
  have waiting := back.waiting
  obtain ⟨⟨within, -⟩, most⟩ := isGreatest_doneWith (load ts) q.posted.passed
  set count := doneWith (load ts) q.posted.passed
  refine ⟨r', count, settled, ?_, ?_, fun some none => ?_⟩
  · have length : r'.queue.length = q.posted.passed.length - count + q.posted.waiting.length := by
      rw [TxRing.queue, passed, waiting, length_append, length_map, length_drop]
    have packets : r'.packets = r'.queue := by
      rw [TxRing.packets, intake, Array.toList_empty, append_nil]
    rw [packets, length, ← queue_posted q, TxRing.queue, length_append, length_map]
    omega
  · -- what was passed before is covered by what was posted before
    refine most ⟨?_, ?_⟩
    · show q.passed.length ≤ (q.passed ++ _).length
      rw [length_append]
      exact Nat.le_add_right _ _
    · have front : q.posted.passed.take q.passed.length = q.passed := take_left
      rw [front]
      exact tiled.cost_eq.le
  · by_cases idle : count = 0
    · refine .inr ?_
      rw [passed, idle, drop_zero]
      exact passed_ne_nil_of_walk (h.fits q h.tx) tiled none some
    · exact .inl (Nat.pos_of_ne_zero idle)

/-- **A round pays.**  It loses no packet, and unless there is none left it owes less than before. -/
theorem catchUp {u : Upper} (h : TxSettling size depth ps m r)
    (abides : u.Abides (Resting (Move.Spares .txConsumer))) :
    ∃ r', TxSettling size depth ps (m.catchUp u) r' ∧ r'.owed ≤ r.owed - 1 := by
  obtain ⟨told, reads⟩ := h.assign r.producer.toUInt32
  obtain ⟨r', k, settled, length, all, moves⟩ := told.serve reads abides
  have round : m.catchUp u =
      ((m.move (.assign .txConsumer r.producer.toUInt32)).advanceTx u).machine := by
    rw [Machine.catchUp, h.tx]
    rfl
  rw [round]
  refine ⟨r', settled, ?_⟩
  by_cases none : r.packets = []
  · rw [none, length_nil, Nat.zero_sub] at length
    rw [owed, length]
    exact (Nat.zero_sub _).le.trans (Nat.zero_le _)
  · exact Nat.le_sub_one_of_lt (owed_lt length all none (moves none))

/-- Rounds pay for as many as they are. -/
theorem rounds {us : List Upper} (h : TxSettling size depth ps m r)
    (abides : ∀ u ∈ us, u.Abides (Resting (Move.Spares .txConsumer))) :
    ∃ r', TxSettling size depth ps (us.foldl Machine.catchUp m) r' ∧
      r'.owed ≤ r.owed - us.length := by
  induction us generalizing m r with
  | nil => exact ⟨r, h, le_rfl⟩
  | cons u us ih =>
    obtain ⟨r₁, settled, paid⟩ := h.catchUp (abides u mem_cons_self)
    obtain ⟨r', settled', paid'⟩ := ih settled fun u' h' => abides u' (mem_cons_of_mem u h')
    refine ⟨r', settled', ?_⟩
    rw [length_cons]
    omega

end TxSettling

/-- **No packet waits for ever.**  However a new ring was used before, whatever the adapter answered,
and whatever is queued or posted: if the ring is running with `n` packets outstanding and nothing
more is submitted, then `2 * n` rounds in which the adapter catches up hand back all of them, in the
order of their submission, and leave nothing behind. -/
theorem rounds_hand_back_every_packet {slots depth : Nat} {m₀ m : Machine} {r : TxRing}
    {us : List Upper} (new : m₀.NewTx slots depth)
    (run : ReflTransGen (TxRequest fun _ => True) m₀ m) (tx : m.tx = some r)
    (running : r.phase = .running)
    (planned : Machine.Permitted (Move.Spares .txConsumer) m.agenda)
    (abides : ∀ u ∈ us, u.Abides (Resting (Move.Spares .txConsumer)))
    (enough : 2 * r.outstanding ≤ us.length) :
    r.packets.length = r.outstanding ∧
      Forall₂ Packet.Marked m.journal.accepted (m.journal.completed ++ r.packets) ∧
      (us.foldl Machine.catchUp m).journal.completed = m.journal.completed ++ r.packets ∧
      ∃ r', (us.foldl Machine.catchUp m).tx = some r' ∧ r'.outstanding = 0 ∧ r'.pending = 0 ∧
        r'.inFlight = 0 := by
  have free : Machine.Permitted (fun _ => True) m₀.agenda := fun _ _ _ _ => trivial
  obtain ⟨size, rfl, ready, -, kept⟩ := new.begins free
  have steps := steps_of_requests run ready
  have used : TxInUse (fun _ => True) size depth m :=
    TxInUse.run ⟨ready, kept, .new new⟩ run
  obtain ⟨-, -, ledger⟩ := used.kept.ledger tx
  have number : r.packets.length = r.outstanding :=
    (TxLedger.packets_length r).trans ledger.outstanding.symm
  have start : TxSettling size depth (m.journal.completed ++ r.packets) m r :=
    ⟨tx, running, used, new.fits.steps steps, planned, rfl⟩
  obtain ⟨r', settled, paid⟩ := start.rounds abides
  have none : r'.packets = [] := by
    refine packets_eq_nil_of_owed ?_
    have most : r.owed ≤ 2 * r.packets.length := Nat.sub_le _ _
    omega
  obtain ⟨-, -, ledger'⟩ := settled.used.kept.ledger settled.tx
  have left : r'.queue.length + r'.intake.size = 0 := by
    rw [← TxLedger.packets_length, none, length_nil]
  refine ⟨number, ledger.order, ?_, r', settled.tx, ledger'.outstanding.trans left, ?_, ?_⟩
  · have balance := settled.balance
    rwa [none, append_nil] at balance
  · have parts : r'.queue.length = r'.passed.length + r'.waiting.length := by
      rw [TxRing.queue, length_append, length_map]
    rw [pending]
    omega
  · obtain ⟨q, b, ts, flight⟩ := settled.used.flying
    obtain rfl : q = r' := Option.some.inj (flight.tx.symm.trans settled.tx)
    have tiled := flight.sound.tiled
    rw [flight.based TxPoint.noConfusion] at tiled
    rw [inFlight_eq_load tiled flight.sound.fits, ← tiled.cost_eq]
    have passed : q.passed = [] := by
      refine length_eq_zero_iff.mp ?_
      rw [TxRing.queue, length_append, length_map] at left
      omega
    rw [passed, cost_nil]

/-- One packet is posted, one does not fit beside it, an ignored one waits behind that, and one is in
the intake.  The upper layer enters what it makes of the first one that comes back. -/
theorem rounds_hand_back_every_packet_blocked :
    ∃ (m : Machine) (r : TxRing) (us : List Upper),
      ReflTransGen (TxRequest fun _ => True) (.withTx ⟨4, by decide⟩ 4) m ∧
      m.tx = some r ∧ r.phase = .running ∧ r.outstanding = 4 ∧ r.inFlight = 2 ∧
      r.waiting.length = 2 ∧ r.intake.size = 1 ∧ us.length = 8 ∧
      (us.foldl Machine.catchUp m).journal.completed = m.journal.completed ++ r.packets ∧
      ∃ r', (us.foldl Machine.catchUp m).tx = some r' ∧ r'.outstanding = 0 ∧ r'.pending = 0 ∧
        r'.inFlight = 0 := by
  let p : Packet := (Packet.single 1 ⟨.ofNat 0x1000, 64⟩).push ⟨.ofNat 0x1100, 64⟩
  let started : Machine := (Machine.withTx ⟨4, by decide⟩ 4).startTx.2
  let queued : Machine := (((started.submit p).2.submit p).2.submit p.ignore).2
  let m : Machine := ((queued.advanceTx .silent).machine.submit p).2
  have run : ReflTransGen (TxRequest fun _ => True) (.withTx ⟨4, by decide⟩ 4) m :=
    ReflTransGen.refl
      |>.tail (.start _)
      |>.tail (.sending (.submit _ p))
      |>.tail (.sending (.submit _ p))
      |>.tail (.sending (.submit _ p.ignore))
      |>.tail (.advance _ (Upper.abides_silent _))
      |>.tail (.sending (.submit _ p))
  let echo : Upper := { replies := [fun m => m.record (.replied .done)] }
  have abides : echo.Abides (Resting (Move.Spares .txConsumer)) := by
    intro reply h m
    rw [mem_singleton.mp h]
    exact .single (.note m rfl)
  have facts : m.tx.map (fun r => (r.phase, r.outstanding, r.inFlight, r.waiting.length,
      r.intake.size)) = some (.running, 4, 2, 2, 1) := by decide +kernel
  obtain ⟨r, tx, facts⟩ := Option.map_eq_some_iff.mp facts
  simp only [Prod.mk.injEq] at facts
  obtain ⟨running, outstanding, inFlight, waiting, intake⟩ := facts
  have enough : 2 * r.outstanding ≤ (replicate 8 echo).length := by
    rw [outstanding, length_replicate]
  have idle : m.agenda = [] := isEmpty_iff.mp (by decide +kernel)
  have planned : Machine.Permitted (Move.Spares .txConsumer) m.agenda := by
    rw [idle]
    exact fun moves h => absurd h not_mem_nil
  have settled := rounds_hand_back_every_packet (Machine.newTx_withTx ⟨4, by decide⟩ 4) run tx
    running planned (fun u h => eq_of_mem_replicate h ▸ abides) enough
  exact ⟨m, r, replicate 8 echo, run, tx, running, outstanding, inFlight, waiting, intake,
    length_replicate, settled.2.2⟩

end DescriptorRings
