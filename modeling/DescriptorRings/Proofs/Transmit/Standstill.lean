import DescriptorRings.Proofs.Transmit.Progress

/-!
# Services come to a standstill

A running ring is served again and again, while nothing is submitted and the adapter's counter stays
where it is.  The first service hands back what is done.  The second one hands nothing back, but may
post into the slots that the first one made free.  From the third one on nothing happens any more:
the counter is read, and at most two counts in the statistics change.

A service posts before it reads, so each of them judges the counter by another window than the one
before.  Two things could go wrong.

* A reading that was believed stays so, since the window only grows at its far end, but it might
  reach a packet that was posted just now.  It does not.  Either an older packet is not done, or
  everything in the window was handed back, and then the reading is where the window begins.  There
  the next packet is posted with a descriptor at least, since no walk stops before a packet that is
  to be skipped.
* A reading that was not believed might lie inside a larger window.  But it made nothing free, so the
  packet that stopped the walk stops it again, and the window stays.

`TxRing.AtRest` is what the first service leaves, whatever the reading is, and what a walk keeps;
`TxRing.Blocked` is what every walk leaves.  A ring that is both changes no more
(`Machine.callsNobody_of_blocked`).  As nobody is called, it does not matter what the upper layer
would do in its callbacks.
-/

namespace DescriptorRings

open Relation List TxRing

namespace TxRing

variable {r q : TxRing} {c : Counter}

/-! ## Where the walk stops -/

/-- Nothing can be posted: the first packet that waits is not to be skipped, and does not fit. -/
def Blocked (r : TxRing) : Prop :=
  ∀ p ∈ r.waiting.head?, p.ignored = false ∧ r.freeSlots < p.fragmentCount

/-- A walk stops only where it can go no further. -/
theorem walk_blocked (size : RingSize) (reclaim : Counter) (ps : List Packet) (producer : Counter) :
    let w := walk size reclaim ps producer
    ∀ p ∈ w.waiting.head?, p.ignored = false ∧
      size.capacity - w.producer.distance reclaim size.slots < p.fragmentCount := by
  induction ps generalizing producer with
  | nil => exact fun p hp => absurd hp (Option.not_mem_none p)
  | cons p ps ih =>
    unfold walk
    split
    · exact ih producer
    · rename_i unmarked
      dsimp only
      split
      · rename_i short
        intro q hq
        obtain rfl : p = q := Option.some.inj hq
        exact ⟨Bool.eq_false_iff.mpr unmarked, short⟩
      · exact ih _

/-- **After its walk a ring can post nothing.** -/
theorem blocked_posted (r : TxRing) : r.posted.Blocked :=
  walk_blocked r.size r.reclaim _ r.producer

/-- Where nothing can be posted, a walk passes nothing. -/
theorem Blocked.postingWalk_eq (h : r.Blocked) :
    ∃ stop, r.postingWalk = ⟨[], r.waiting, [], r.producer, stop⟩ := by
  unfold postingWalk
  cases waiting : r.waiting with
  | nil => exact ⟨none, rfl⟩
  | cons p ps =>
    obtain ⟨unmarked, short⟩ := h p (waiting ▸ rfl)
    unfold walk
    rw [unmarked, if_neg Bool.false_ne_true]
    exact ⟨_, if_pos short⟩

/-- What a walk passes first it has posted, if the first packet is not to be skipped. -/
theorem head_walk (size : RingSize) (reclaim : Counter) {ps : List Packet} (producer : Counter)
    (unmarked : ∀ p ∈ ps.head?, p.ignored = false) (some : ∀ p ∈ ps, 0 < p.fragmentCount) :
    ∀ e ∈ (walk size reclaim ps producer).passed.head?, 0 < e.cost := by
  cases ps with
  | nil => exact fun e he => absurd he (Option.not_mem_none e)
  | cons p ps =>
    unfold walk
    rw [unmarked p rfl, if_neg Bool.false_ne_true]
    dsimp only
    split
    · exact fun e he => absurd he (Option.not_mem_none e)
    · intro e he
      obtain rfl := Option.some.inj he
      exact some p mem_cons_self

/-- The ring with other counts of stopped walks and of readings that were not believed. -/
def recount (r : TxRing) (backpressure badConsumer : Nat) : TxRing :=
  { r with stats := { r.stats with backpressure := backpressure, badConsumer := badConsumer } }

theorem collect_eq (none : r.intake = #[]) : r.collect = r := by
  unfold collect
  rw [none, Array.toList_empty, append_nil, ← none]

theorem posted_eq (none : r.intake = #[]) : r.posted = r.afterWalk r.postingWalk := by
  rw [posted, collect_eq none]

theorem Blocked.posted_eq (h : r.Blocked) (none : r.intake = #[]) :
    ∃ n, r.posted = r.recount n r.stats.badConsumer := by
  obtain ⟨stop, walked⟩ := h.postingWalk_eq
  rw [TxRing.posted_eq none, walked, afterWalk, append_nil]
  exact ⟨_, rfl⟩

/-! ## What a reading says -/

/-- How many descriptors of the window a reading covers: none if it is not believed. -/
def reach (r : TxRing) (c : Counter) : Nat :=
  if c.past r.reclaim ≤ r.inFlight then c.past r.reclaim else 0

/-- What is left when the packets that are done are gone begins with one that is not. -/
theorem head_drop_doneWith (h : Nat) (es : List TxEntry) :
    ∀ e ∈ (es.drop (doneWith h es)).head?, h - cost (es.take (doneWith h es)) < e.cost := by
  induction es generalizing h with
  | nil => exact fun e he => absurd he (Option.not_mem_none e)
  | cons e es ih =>
    unfold doneWith
    by_cases done : e.cost ≤ h
    · rw [if_pos done, drop_succ_cons, take_succ_cons, cost_cons, ← Nat.sub_sub]
      exact ih _
    · rw [if_neg done]
      intro e' he
      obtain rfl : e = e' := Option.some.inj he
      exact Nat.lt_of_not_le done

/-- A running ring that hands nothing back at a reading, neither now nor after its walk. -/
structure AtRest (r : TxRing) (c : Counter) : Prop where
  /-- It is running. -/
  running : r.phase = .running
  /-- Nothing was submitted. -/
  intake : r.intake = #[]
  /-- Every packet that waits has a fragment. -/
  fragments : ∀ p ∈ r.waiting, 0 < p.fragmentCount
  /-- The first of them is to be posted. -/
  unmarked : ∀ p ∈ r.waiting.head?, p.ignored = false
  /-- The posted packets tile the window. -/
  window : ∃ ts, Tiled r.reclaim r.passed ts r.producer ∧ load ts ≤ r.capacity
  /-- The reading does not cover the oldest packet. -/
  oldest : ∀ e ∈ r.passed.head?, r.reach c < e.cost
  /-- No walk makes the reading one that is believed. -/
  stays : c.past r.reclaim ≤ r.inFlight ∨ r.Blocked

namespace AtRest

theorem recount (h : r.AtRest c) (b d : Nat) : (r.recount b d).AtRest c :=
  ⟨h.running, h.intake, h.fragments, h.unmarked, h.window, h.oldest, h.stays⟩

/-- **A walk leaves the ring at rest**, although it enlarges the window. -/
theorem posted (h : r.AtRest c) : r.posted.AtRest c := by
  rcases h.stays with believed | blocked
  · obtain ⟨ts, tiled, fits⟩ := h.window
    have inFlight := inFlight_eq_load tiled fits
    -- what the walk adds to the window
    have begins : r.producer = r.reclaim.advance (load ts) := tiled.eq_advance_load
    obtain ⟨walked, room, -, later⟩ := tiled_walk r.size r.reclaim r.waiting h.fragments fits
    rw [← begins] at walked room later
    have same := posted_eq h.intake
    have tiled' := tiled.append walked
    have room' : load (ts ++ r.postingWalk.posts) ≤ r.capacity := by
      rw [load_append]
      exact room
    rw [same]
    have window : Tiled (r.afterWalk r.postingWalk).reclaim (r.afterWalk r.postingWalk).passed
        (ts ++ r.postingWalk.posts) (r.afterWalk r.postingWalk).producer := tiled'
    have grown := inFlight_eq_load window room'
    rw [load_append] at grown
    have believed' : c.past r.reclaim ≤ (r.afterWalk r.postingWalk).inFlight := by omega
    have reach : (r.afterWalk r.postingWalk).reach c = r.reach c :=
      (if_pos believed').trans (if_pos believed).symm
    refine ⟨h.running, h.intake, fun p hp => h.fragments p (later p hp), ?_, ⟨_, window, room'⟩, ?_,
      .inl believed'⟩
    · have blocked := r.blocked_posted
      rw [same] at blocked
      exact fun p hp => (blocked p hp).1
    · rw [reach]
      -- if no packet was passed before, there is nothing that the adapter can have consumed
      intro e he
      cases passed : r.passed with
      | cons e' es =>
        refine h.oldest e ?_
        rw [passed]
        rwa [afterWalk, passed] at he
      | nil =>
        have empty : load ts = 0 := by rw [← tiled.cost_eq, passed, cost_nil]
        have none : r.reach c = 0 := (if_pos believed).trans (by omega)
        rw [none]
        refine head_walk r.size r.reclaim r.producer h.unmarked h.fragments e ?_
        rwa [afterWalk, passed] at he
  · obtain ⟨n, same⟩ := blocked.posted_eq h.intake
    rw [same]
    exact h.recount _ _

end AtRest

/-- **A service leaves the ring at rest.**  The packets that it hands back take as much off the
reading as off the window, so what was believed is believed, and the next packet is not done.  If they
take nothing off, the ring can post no more than before. -/
theorem HandsBack.atRest {us ts : List TxPost}
    (back : (r.noteReading c).HandsBack q (doneWith (load us - r.unconsumed c) r.passed))
    (size : q.size = r.size) (running : q.phase = .running) (intake : q.intake = #[])
    (fragments : ∀ p ∈ q.waiting, 0 < p.fragmentCount) (blocked : r.Blocked)
    (tiled : Tiled r.reclaim r.passed us r.producer) (room : load us ≤ r.capacity)
    (tiled' : Tiled q.reclaim q.passed ts q.producer) (room' : load ts ≤ q.capacity) :
    q.AtRest c ∧ q.waiting = r.waiting ∧ (q.reclaim = r.reclaim → q.Blocked) := by
  -- the reading may be counted, and that is all that it changes
  obtain ⟨n, counted⟩ := exists_noteReading_eq r c
  have forwards : load us - r.unconsumed c = r.reach c := (load_sub_unconsumed tiled room c).2
  rw [counted, forwards] at back
  obtain ⟨⟨-, paid⟩, -⟩ := isGreatest_doneWith (r.reach c) r.passed
  set k := doneWith (r.reach c) r.passed with hk
  have passed : q.passed = r.passed.drop k := back.passed
  have reclaim : q.reclaim = r.reclaim.advance (cost (r.passed.take k)) := back.reclaim
  have waiting : q.waiting = r.waiting := back.waiting
  have whole : load us = cost (r.passed.take k) + load ts := by
    rw [← tiled.cost_eq, ← tiled'.cost_eq, passed, ← cost_append, take_append_drop]
  have before := inFlight_eq_load tiled room
  have after := inFlight_eq_load tiled' room'
  have still : q.reclaim = r.reclaim → q.Blocked := by
    intro same p hp
    rw [freeSlots, capacity, inFlight, size, back.producer, same]
    exact blocked p (waiting ▸ hp)
  -- what is left of the reading
  have left : q.reach c = r.reach c - cost (r.passed.take k) ∧
      (c.past q.reclaim ≤ q.inFlight ∨ q.Blocked) := by
    by_cases believed : c.past r.reclaim ≤ r.inFlight
    · have reach : r.reach c = c.past r.reclaim := if_pos believed
      rw [reach] at paid ⊢
      have place : c = q.reclaim.advance (c.past r.reclaim - cost (r.passed.take k)) := by
        rw [reclaim, Counter.advance_advance, Nat.add_sub_cancel' paid, Counter.advance_past]
      have past : c.past q.reclaim = c.past r.reclaim - cost (r.passed.take k) := by
        have := Counter.past_lt c r.reclaim
        conv_lhs => rw [place]
        exact Counter.past_advance _ (by omega)
      have believed' : c.past q.reclaim ≤ q.inFlight := by omega
      exact ⟨(if_pos believed').trans past, .inl believed'⟩
    · have reach : r.reach c = 0 := if_neg believed
      rw [reach] at paid ⊢
      have nothing : cost (r.passed.take k) = 0 := Nat.le_zero.mp paid
      have same : q.reclaim = r.reclaim := by
        rw [reclaim, nothing, Counter.advance_zero]
      have doubted : ¬c.past q.reclaim ≤ q.inFlight := by
        rw [same]
        omega
      exact ⟨(if_neg doubted).trans (Nat.zero_sub _).symm, .inr (still same)⟩
  obtain ⟨reach, stays⟩ := left
  refine ⟨⟨running, intake, fragments, fun p hp => ?_, ⟨ts, tiled', room'⟩, ?_, stays⟩, waiting,
    still⟩
  · exact (blocked p (waiting ▸ hp)).1
  · rw [reach, passed]
    exact head_drop_doneWith _ _

/-- The oldest packet is not taken out. -/
theorem AtRest.takeDone?_eq_none (h : r.AtRest c) : r.takeDone? (r.unconsumed c) = none := by
  obtain ⟨ts, tiled, fits⟩ := h.window
  obtain ⟨unconsumed, reach⟩ := load_sub_unconsumed tiled fits c
  cases passed : r.passed with
  | nil => rw [takeDone?, passed]
  | cons e es =>
    rw [takeDone?_eq tiled fits unconsumed passed, reach]
    exact if_neg (Nat.not_le_of_lt (h.oldest e (passed ▸ rfl)))

end TxRing

/-! ## A service that calls nobody -/

/-- A service calls nobody: it hands nothing back, it does these things, and the ring is `r` then. -/
structure Machine.CallsNobody (u : Upper) (done : List Event) (r : TxRing) (m : Machine) :
    Prop where
  /-- No packet is handed back. -/
  count : (m.advanceTx u).count = 0
  /-- No callback is made. -/
  upper : (m.advanceTx u).upper = u
  /-- What is done, and what the ring becomes. -/
  does : m.TxDoes done r (m.advanceTx u).machine

section Services

variable {m : Machine} {r p : TxRing} {v : UInt32}

/-- Serving a ring at rest comes to posting and to one reading. -/
theorem Machine.advanceTx_of_atRest (rest : r.AtRest v.toUInt16) (tx : m.tx = some r)
    (reads : m.Reads .txConsumer v) (u : Upper) :
    m.advanceTx u =
      .start u ((m.postTx.readCounter .txConsumer).2.checkTxReading v.toUInt16) := by
  have collected : m.modifyTx collect = m := by
    unfold Machine.modifyTx
    rw [tx, Option.map_some, collect_eq rest.intake, ← tx]
  have posted : m.postTx.tx = some r.posted := by
    rw [posted_eq rest.intake]
    exact tx_postTx tx
  have reading : (m.postTx.readCounter .txConsumer).1 = v.toUInt16 :=
    congrArg UInt32.toUInt16 reads.postTx.turn.value
  have tx₁ : (m.postTx.readCounter .txConsumer).2.tx = some r.posted :=
    (Machine.tx_record _ _).trans ((Machine.tx_turn _).trans posted)
  have checked := (Machine.TxDoes.checkTxReading tx₁ v.toUInt16).tx
  -- the reading that is counted or not makes no packet done
  have none :
      (r.posted.noteReading v.toUInt16).takeDone? (r.posted.unconsumed v.toUInt16) = none := by
    obtain ⟨n, counted⟩ := exists_noteReading_eq r.posted v.toUInt16
    rw [counted]
    exact (rest.posted.recount r.posted.stats.backpressure n).takeDone?_eq_none
  rw [m.advanceTx_of_running tx rest.running, collected]
  unfold Machine.reclaimTx
  dsimp only [Served.start]
  rw [reading, tx₁, Option.map_some, Option.getD_some,
    loop_of_idle (Machine.completeDone_of_none checked none)]
  rfl

/-- **Serving a ring at rest calls nobody.**  What there is room for is posted, and the adapter's
counter is read. -/
theorem Machine.callsNobody_of_atRest (rest : r.AtRest v.toUInt16) (tx : m.tx = some r)
    (reads : m.Reads .txConsumer v) (u : Upper) :
    (∃ d, m.CallsNobody u
      ((sweep r.size r.producer r.postingWalk.posts).map TxMark.event ++ [.read .txConsumer v])
      (r.posted.recount r.posted.stats.backpressure d)) ∧
      (m.advanceTx u).machine.Reads .txConsumer v := by
  obtain ⟨ts, tiled, fits⟩ := rest.window
  have walked : Tiled r.producer r.postingWalk.passed r.postingWalk.posts r.postingWalk.producer := by
    obtain ⟨walked, -⟩ := tiled_walk r.size r.reclaim r.waiting rest.fragments fits
    rwa [← tiled.eq_advance_load] at walked
  have posts := TxDoes.postTx tx walked
  rw [← posted_eq rest.intake] at posts
  have value : (m.postTx.read .txConsumer).1 = v := reads.postTx.turn.value
  have read := TxDoes.read posts.tx .txConsumer
  rw [value] at read
  have checked := (posts.trans read).trans (TxDoes.checkTxReading read.tx v.toUInt16)
  obtain ⟨d, counted⟩ := exists_noteReading_eq r.posted v.toUInt16
  rw [counted, append_nil] at checked
  have served := m.advanceTx_of_atRest rest tx reads u
  refine ⟨⟨d, by rw [served]; rfl, by rw [served]; rfl, by rw [served]; exact checked⟩, ?_⟩
  have worked : Working .tx False (Resting (Move.Spares .txConsumer)) m _ :=
    ((Machine.working_postTx m).trans (Working.readCounter _ .txConsumer)).trans
      (Machine.working_checkTxReading _ v.toUInt16)
  rw [served]
  exact worked.consumer_reads reads

/-- **Where nothing can be posted, a service only reads**, and no more than two counts change. -/
theorem Machine.callsNobody_of_blocked {b d : Nat} (rest : p.AtRest v.toUInt16) (blocked : p.Blocked)
    (tx : m.tx = some (p.recount b d)) (reads : m.Reads .txConsumer v) (u : Upper) :
    (∃ b' d', m.CallsNobody u [.read .txConsumer v] (p.recount b' d')) ∧
      (m.advanceTx u).machine.Reads .txConsumer v := by
  obtain ⟨⟨d', served⟩, reads'⟩ := m.callsNobody_of_atRest (rest.recount b d) tx reads u
  have still : (p.recount b d).Blocked := blocked
  obtain ⟨stop, walked⟩ := still.postingWalk_eq
  obtain ⟨b', posted⟩ := still.posted_eq rest.intake
  rw [walked, posted] at served
  exact ⟨⟨b', d', served⟩, reads'⟩

end Services

/-- A service leaves a running ring at rest, whatever the adapter's counter says. -/
theorem TxSettling.atRest {size : RingSize} {depth : Nat} {ps : List Packet} {m : Machine}
    {r : TxRing} {u : Upper} {v : UInt32} (h : TxSettling size depth ps m r)
    (reads : m.Reads .txConsumer v) (abides : u.Abides (Resting (Move.Spares .txConsumer))) :
    ∃ q, (m.advanceTx u).machine.tx = some q ∧ (m.advanceTx u).machine.Reads .txConsumer v ∧
      q.AtRest v.toUInt16 ∧ q.waiting = r.posted.waiting ∧ (q.reclaim = r.reclaim → q.Blocked) := by
  obtain ⟨us, q, tiled, room, settled, intake, back⟩ := h.advance reads abides
  have consumer := (Machine.works_advanceTx m abides).run.consumer_reads reads
  -- the ring has its size from the beginning
  obtain ⟨r₀, tx₀, size₀, -⟩ := h.used.ready.ring
  obtain rfl : r₀ = r := Option.some.inj (tx₀.symm.trans h.tx)
  obtain ⟨q₀, tx₁, size₁, -⟩ := settled.used.ready.ring
  obtain rfl : q₀ = q := Option.some.inj (tx₁.symm.trans settled.tx)
  -- the window afterwards
  obtain ⟨q, b, ts, flight⟩ := settled.used.flying
  obtain rfl : q₀ = q := Option.some.inj (tx₁.symm.trans flight.tx)
  have tiled' := flight.sound.tiled
  rw [flight.based TxPoint.noConfusion] at tiled'
  have fragments : ∀ p ∈ q₀.waiting, 0 < p.fragmentCount := fun p hp =>
    flight.sound.some p (mem_append_left _ hp)
  obtain ⟨rest, waiting, still⟩ := back.atRest (size₁.trans size₀.symm) settled.running intake
    fragments r₀.blocked_posted tiled room tiled' flight.sound.fits
  exact ⟨q₀, settled.tx, consumer, rest, waiting, still⟩

/-- What may happen when nothing is submitted and the adapter's counter stays where it is.  Nothing
is asked of the callbacks of a service. -/
inductive TxLull : Machine → Machine → Prop
  /-- The ring is served. -/
  | serve (m : Machine) (u : Upper) : TxLull m (m.advanceTx u).machine
  /-- Something happens between two services. -/
  | rest {m m' : Machine} (act : Resting (Move.Spares .txConsumer) m m') : TxLull m m'

theorem Resting.tx_eq {permits : Move → Prop} {m m' : Machine} (act : Resting permits m m') :
    m'.tx = m.tx := by
  cases act with
  | move => exact Machine.tx_move _ _
  | elsewhere apart => exact apart.tx
  | note => exact Machine.tx_record _ _

/-- Between two services the ring is left alone, and so is the counter. -/
theorem Resting.run {m m' : Machine} {v : UInt32}
    (run : ReflTransGen (Resting (Move.Spares .txConsumer)) m m') (reads : m.Reads .txConsumer v) :
    m'.tx = m.tx ∧ m'.Reads .txConsumer v := by
  induction run with
  | refl => exact ⟨rfl, reads⟩
  | tail _ act ih => exact ⟨act.tx_eq.trans ih.1, act.consumer_reads ih.2⟩

/-- **A ring that can post nothing more stays as it is**, but for two counts. -/
theorem TxLull.run {m m' : Machine} {p : TxRing} {v : UInt32} (run : ReflTransGen TxLull m m')
    (rest : p.AtRest v.toUInt16) (blocked : p.Blocked) (tx : ∃ b d, m.tx = some (p.recount b d))
    (reads : m.Reads .txConsumer v) :
    (∃ b d, m'.tx = some (p.recount b d)) ∧ m'.Reads .txConsumer v := by
  induction run with
  | refl => exact ⟨tx, reads⟩
  | tail _ act ih =>
    obtain ⟨⟨b, d, tx⟩, reads⟩ := ih
    cases act with
    | serve u =>
      obtain ⟨⟨b', d', served⟩, reads'⟩ := Machine.callsNobody_of_blocked rest blocked tx reads u
      exact ⟨⟨b', d', served.does.tx⟩, reads'⟩
    | rest act => exact ⟨⟨b, d, act.tx_eq.trans tx⟩, act.consumer_reads reads⟩

/-- **Services come to a standstill.**  However a new ring was used before: if it is running, nothing
more is submitted, and the adapter's counter stays where it is, wherever that may be, then the second
service hands nothing back.  It posts into the slots that the first one made free, for the walk of the
first one had stopped.  From the third service on nothing is done but to read the counter, and
nothing of the ring or the rest of the software changes but two counts. -/
theorem services_come_to_a_standstill {slots depth : Nat} {m₀ m : Machine} {r : TxRing} {u : Upper}
    {v : UInt32} (new : m₀.NewTx slots depth) (run : ReflTransGen (TxRequest fun _ => True) m₀ m)
    (tx : m.tx = some r) (running : r.phase = .running) (reads : m.Reads .txConsumer v)
    (abides : u.Abides (Resting (Move.Spares .txConsumer))) :
    ∃ q, (m.advanceTx u).machine.tx = some q ∧ r.posted.Blocked ∧ q.waiting = r.posted.waiting ∧
      ∀ k, ReflTransGen (Resting (Move.Spares .txConsumer)) (m.advanceTx u).machine k → ∀ u₂,
        (∃ d, k.CallsNobody u₂
          ((sweep q.size q.producer q.postingWalk.posts).map TxMark.event ++ [.read .txConsumer v])
          (q.posted.recount q.posted.stats.backpressure d)) ∧
        (q.reclaim = r.reclaim → q.postingWalk.posts = []) ∧
        ∀ j, ReflTransGen TxLull (k.advanceTx u₂).machine j → ∀ u₃,
          ∃ b d b' d', j.tx = some (q.posted.recount b d) ∧
            j.CallsNobody u₃ [.read .txConsumer v] (q.posted.recount b' d') := by
  have free : Machine.Permitted (fun _ => True) m₀.agenda := fun _ _ _ _ => trivial
  obtain ⟨size, rfl, ready, -, kept⟩ := new.begins free
  have steps := steps_of_requests run ready
  have used : TxInUse (fun _ => True) size depth m :=
    TxInUse.run ⟨ready, kept, .new new⟩ run
  have settling : TxSettling size depth (m.journal.completed ++ r.packets) m r :=
    ⟨tx, running, used, new.fits.steps steps, reads.planned, rfl⟩
  obtain ⟨q, tx₁, reads₁, rest, waiting, still⟩ := settling.atRest reads abides
  refine ⟨q, tx₁, r.blocked_posted, waiting, fun k idle u₂ => ?_⟩
  obtain ⟨same, reads₂⟩ := Resting.run idle reads₁
  obtain ⟨⟨d, served⟩, reads₃⟩ := k.callsNobody_of_atRest rest (same.trans tx₁) reads₂ u₂
  refine ⟨⟨d, served⟩, fun unmoved => ?_, fun j lull u₃ => ?_⟩
  · obtain ⟨stop, walked⟩ := (still unmoved).postingWalk_eq
    rw [walked]
  · obtain ⟨⟨b, d', tx₃⟩, reads₄⟩ :=
      TxLull.run lull rest.posted q.blocked_posted ⟨_, d, served.does.tx⟩ reads₃
    obtain ⟨⟨b', d'', last⟩, -⟩ :=
      Machine.callsNobody_of_blocked rest.posted q.blocked_posted tx₃ reads₄ u₃
    exact ⟨b, d', b', d'', tx₃, last⟩

/-- One packet is posted and consumed, and two wait behind it.  The first service hands it back, the
second one posts the next packet, and from the third one on nothing happens any more. -/
theorem services_come_to_a_standstill_deferred :
    ∃ (m : Machine) (r q : TxRing),
      ReflTransGen (TxRequest fun _ => True) (.withTx ⟨4, by decide⟩ 4) m ∧
      m.tx = some r ∧ r.phase = .running ∧ m.Reads .txConsumer 2 ∧
      (m.advanceTx .silent).count = 1 ∧ (m.advanceTx .silent).machine.tx = some q ∧
      q.postingWalk.posts.length = 1 ∧ q.posted.waiting.length = 1 ∧
      ∃ b d, ((m.advanceTx .silent).machine.advanceTx .silent).machine.CallsNobody .silent
        [.read .txConsumer 2] (q.posted.recount b d) := by
  let p : Packet := (Packet.single 1 ⟨.ofNat 0x1000, 64⟩).push ⟨.ofNat 0x1100, 64⟩
  let started : Machine := (Machine.withTx ⟨4, by decide⟩ 4).startTx.2
  let queued : Machine := (((started.submit p).2.submit p).2.submit p).2
  let m : Machine := (queued.advanceTx .silent).machine.move (.consume 2)
  have run : ReflTransGen (TxRequest fun _ => True) (.withTx ⟨4, by decide⟩ 4) m :=
    ReflTransGen.refl
      |>.tail (.start _)
      |>.tail (.sending (.submit _ p))
      |>.tail (.sending (.submit _ p))
      |>.tail (.sending (.submit _ p))
      |>.tail (.advance _ (Upper.abides_silent _))
      |>.tail (.sending (@Sending.move _ _ (.consume 2) trivial))
  have phase : m.tx.map TxRing.phase = some .running := by decide +kernel
  obtain ⟨r, tx, running⟩ := Option.map_eq_some_iff.mp phase
  have idle : m.agenda = [] := isEmpty_iff.mp (by decide +kernel)
  have reads : m.Reads .txConsumer 2 :=
    ⟨by decide +kernel, by rw [idle]; exact fun moves h => absurd h not_mem_nil⟩
  obtain ⟨q, first, -, -, later⟩ := services_come_to_a_standstill
    (Machine.newTx_withTx ⟨4, by decide⟩ 4) run tx running reads (Upper.abides_silent _)
  have facts : (m.advanceTx .silent).machine.tx.map (fun q =>
      (q.postingWalk.posts.length, q.posted.waiting.length)) = some (1, 1) := by decide +kernel
  rw [first] at facts
  obtain ⟨posts, waiting⟩ := Prod.mk.inj (Option.some.inj facts)
  obtain ⟨-, -, still⟩ := later _ .refl .silent
  obtain ⟨b, d, b', d', -, last⟩ := still _ .refl .silent
  exact ⟨m, r, q, run, tx, running, reads, by decide +kernel, first, posts, waiting, b', d', last⟩

end DescriptorRings
