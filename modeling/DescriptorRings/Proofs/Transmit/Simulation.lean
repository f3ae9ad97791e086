import DescriptorRings.Proofs.Transmit.Callback
import DescriptorRings.Proofs.Transmit.Window

/-!
# Every transmit request is a run of steps

`TxRequest.steps`: a request to the transmit ring, whatever the upper layer does in its callbacks
and whatever the adapter does in between, is a run of the steps of `Proofs.Transmit.Course` that
begins and ends at the point `idle`.  This is the only file that looks into the requests; all that
is claimed of their runs is proved of the steps.

A run needs very little to be possible: there is a ring, and the moves that the adapter has planned
are permitted ones.  This is `TxReady`, and every step keeps it.  The proofs below follow the
requests line by line: each line of a request is one step, and an access to the adapter is preceded
by the adapter's turn.
-/

namespace DescriptorRings

open Relation TxRing

/-- There is a transmit ring of the given size and depth, and the adapter plans permitted moves. -/
structure TxReady (permits : Move → Prop) (size : RingSize) (depth : Nat) (m : Machine) : Prop where
  /-- There is a ring. -/
  ring : ∃ r, m.tx = some r ∧ r.size = size ∧ r.depth = depth
  /-- The plans are permitted. -/
  planned : Machine.Permitted permits m.agenda

variable {permits : Move → Prop} {size : RingSize} {depth : Nat}

namespace TxReady

/-- A ring of the same size and depth may take the place of the ring. -/
theorem replace {m m' : Machine} {r r' : TxRing} (ready : TxReady permits size depth m)
    (tx : m.tx = some r) (tx' : m'.tx = some r') (agenda : m'.agenda = m.agenda)
    (hs : r'.size = r.size) (hd : r'.depth = r.depth) : TxReady permits size depth m' := by
  obtain ⟨⟨q, hq, hqs, hqd⟩, planned⟩ := ready
  obtain rfl := Option.some.inj (tx.symm.trans hq)
  refine ⟨⟨r', tx', hs.trans hqs, hd.trans hqd⟩, ?_⟩
  rw [agenda]
  exact planned

theorem replace_of_eq {m m' : Machine} (ready : TxReady permits size depth m) (tx : m'.tx = m.tx)
    (agenda : m'.agenda = m.agenda) : TxReady permits size depth m' := by
  obtain ⟨⟨r, hr, hs, hd⟩, planned⟩ := ready
  refine ⟨⟨r, tx.trans hr, hs, hd⟩, ?_⟩
  rw [agenda]
  exact planned

/-- **No step takes the ring away, or changes its size or its depth.** -/
theorem step {c c' : TxPoint × Machine} (h : TxStep permits c c')
    (ready : TxReady permits size depth c.2) : TxReady permits size depth c'.2 := by
  cases h
  case plan h => exact ⟨ready.ring, h⟩
  case move => exact ready.replace_of_eq (by rw [Machine.toScene_move]) (Machine.agenda_move _ _)
  case elsewhere h => exact ready.replace_of_eq h.tx h.agenda
  case note | look | announce | read | align | switchOn | switchOff | write | ring =>
    exact ready.replace_of_eq (Machine.tx_record _ _) (Machine.agenda_record _ _)
  case survey | written | quiet | stop | drain => exact ready
  case place tx | mark tx | collect tx | adopt tx | abandon tx _ =>
    exact ready.replace tx rfl rfl rfl rfl
  case doubt r tx =>
    obtain ⟨n, hn⟩ := exists_noteReading_eq r _
    exact ready.replace tx rfl rfl (by rw [hn]) (by rw [hn])
  case accept tx _ =>
    exact ready.replace tx (Machine.tx_record _ _) (Machine.agenda_record _ _) rfl rfl
  case complete tx next =>
    rcases takeDone?_eq_some_iff.mp next with ⟨rest, -, rfl⟩ | ⟨last, rest, -, -, rfl⟩ <;>
      exact ready.replace tx (Machine.tx_record _ _) (Machine.agenda_record _ _) rfl rfl
  case surrender tx next =>
    rcases takeOldest?_eq_some_iff.mp next with ⟨e, rest, -, -, rfl⟩ | ⟨rest, -, -, rfl⟩ <;>
      exact ready.replace tx (Machine.tx_record _ _) (Machine.agenda_record _ _) rfl rfl

theorem steps {c c' : TxPoint × Machine} (h : ReflTransGen (TxStep permits) c c')
    (ready : TxReady permits size depth c.2) : TxReady permits size depth c'.2 :=
  Machine.inv_of_steps (fun c => TxReady permits size depth c.2) (fun _ _ s => step s) h ready

end TxReady

/-! ## Accesses to the adapter -/

section Accesses

variable {x : TxPoint} {m : Machine}

/-- Before each access the adapter has its turn. -/
theorem steps_turn (ready : TxReady permits size depth m) :
    ReflTransGen (TxStep permits) (x, m) (x, m.turn) :=
  Machine.keeps_turn_of_planned (P := fun k => ReflTransGen (TxStep permits) (x, m) (x, k))
    ready.planned (fun _ _ permitted => .single (.plan permitted))
    (fun _ _ permitted run => run.tail (.move permitted)) .refl

theorem steps_give (n : Notice) :
    ReflTransGen (TxStep permits) (x, m) (x, m.give n) := by
  unfold Machine.give
  split
  · exact .single (.note rfl)
  · exact .refl

theorem steps_giveIf (condition : Bool) (n : Notice) :
    ReflTransGen (TxStep permits) (x, m) (x, m.giveIf condition n) := by
  unfold Machine.giveIf
  split
  · exact steps_give n
  · exact .refl

/-- An access to the adapter is the adapter's turn and a step. -/
theorem steps_read {x' : TxPoint} {r : Register} (ready : TxReady permits size depth m)
    (h : TxStep permits (x, m.turn) (x', m.turn.peek r)) :
    ReflTransGen (TxStep permits) (x, m) (x', (m.read r).2) :=
  (steps_turn ready).tail h

theorem steps_write {x' : TxPoint} {r : Register} {v : UInt32}
    (ready : TxReady permits size depth m)
    (h : TxStep permits (x, m.turn) (x', m.turn.poke r v)) :
    ReflTransGen (TxStep permits) (x, m) (x', m.write r v) :=
  (steps_turn ready).tail h

end Accesses

/-! ## What the upper layer does -/

section Replies

variable {x : TxPoint}

theorem TxMeanwhile.steps {m m' : Machine} (h : TxMeanwhile permits m m')
    (ready : TxReady permits size depth m) :
    ReflTransGen (TxStep permits) (x, m) (x, m') := by
  cases h with
  | submit p =>
    obtain ⟨r, tx, -, -⟩ := ready.ring
    rw [Machine.submit, tx, Option.bind_some]
    cases free : r.refusal? p with
    | some cause => exact .refl
    | none =>
      dsimp only
      rw [Machine.modifyTx_eq_setTx tx]
      exact .single (.accept tx free)
  | turn => exact steps_turn ready
  | move h => exact .single (.move h)
  | plan h => exact .single (.plan h)
  | elsewhere apart => exact .single (.elsewhere apart)
  | note aside => exact .single (.note aside)

theorem steps_of_meanwhile {m m' : Machine} (h : ReflTransGen (TxMeanwhile permits) m m')
    (ready : TxReady permits size depth m) :
    ReflTransGen (TxStep permits) (x, m) (x, m') := by
  induction h with
  | refl => exact .refl
  | tail _ h ih => exact ih.trans (h.steps (ready.steps ih))

/-- A callback is a run of steps. -/
theorem steps_reply {s : Served} (abides : s.upper.Abides (TxMeanwhile permits))
    (ready : TxReady permits size depth s.machine) :
    ReflTransGen (TxStep permits) (x, s.machine) (x, s.reply.machine) :=
  steps_of_meanwhile (Served.run_reply abides) ready

end Replies

/-! ## Starting and cancelling -/

section Requests

variable {m : Machine}

theorem steps_startTx (ready : TxReady permits size depth m) :
    ReflTransGen (TxStep permits) (.idle, m) (.idle, m.startTx.2) := by
  unfold Machine.startTx
  split
  · exact .refl
  · rename_i free
    obtain ⟨r, tx, -, -⟩ := ready.ring
    have clear : r.inFlight = 0 := by simpa [tx] using free
    have looked := steps_read ready (.look ((Machine.tx_turn m).trans tx) clear)
    obtain ⟨r', tx', -, -⟩ := (ready.steps looked).ring
    have placed := looked.tail (.place tx')
    have aligned := placed.trans (steps_write (ready.steps placed) .align)
    have started := aligned.trans (steps_write (ready.steps aligned) .switchOn)
    rw [← Machine.modifyTx_eq_setTx tx' fun q => q.begin _] at started
    exact started.trans (steps_give _)

theorem steps_cancelTx (ready : TxReady permits size depth m) :
    ReflTransGen (TxStep permits) (.idle, m) (.idle, m.cancelTx) := by
  unfold Machine.cancelTx
  split
  · exact .refl
  · have silenced := steps_write ready .switchOff
    obtain ⟨r, tx, -, -⟩ := (ready.steps silenced).ring
    have marked := silenced.tail (.mark tx)
    rw [← Machine.modifyTx_eq_setTx tx] at marked
    exact marked.trans (steps_give _)

/-! ## Posting -/

/-- The descriptors of one post, from the `k`-th on. -/
theorem steps_writes {w : Walk} {done todo : List TxPost} {t : TxPost}
    {ws : List (Nat × TxDescriptor)} {k : Nat}
    (ready : TxReady permits size depth m) (rest : (t.writes size).drop k = ws) :
    ReflTransGen (TxStep permits) (.writing w done t todo k, m)
      (.writing w done t todo (k + ws.length), ws.foldl (fun m w => m.writeTx w.1 w.2) m) := by
  induction ws generalizing k m with
  | nil => exact .refl
  | cons v ws ih =>
    obtain ⟨slot, d⟩ := v
    have turned := steps_turn (x := .writing w done t todo k) ready
    obtain ⟨r, tx, hs, -⟩ := (ready.steps turned).ring
    have next : (t.writes r.size)[k]? = some (slot, d) := by
      rw [hs, ← List.head?_drop, rest, List.head?_cons]
    have wrote := turned.tail (.write tx next)
    have tail : (t.writes size).drop (k + 1) = ws := by
      rw [← List.tail_drop, rest, List.tail_cons]
    have h := ih (ready.steps wrote) tail
    rw [Nat.add_assoc, Nat.add_comm 1] at h
    exact wrote.trans h

theorem steps_posts {w : Walk} {done todo : List TxPost} (ready : TxReady permits size depth m) :
    ReflTransGen (TxStep permits) (.walking w done todo, m)
      (.walking w (done ++ todo) [], todo.foldl (Machine.postPacket size) m) := by
  induction todo generalizing done m with
  | nil => rw [List.append_nil]; exact .refl
  | cons t todo ih =>
    have split : done ++ t :: todo = done ++ [t] ++ todo := List.append_cons done t todo
    have announced : ReflTransGen (TxStep permits) (.walking w done (t :: todo), m) _ :=
      .single .announce
    have wrote := announced.trans
      (steps_writes (ready.steps announced) (List.drop_zero (l := t.writes size)))
    rw [TxPost.length_writes, Nat.zero_add] at wrote
    have posted := wrote.tail .written
    rw [split]
    exact posted.trans (ih (ready.steps posted))

theorem steps_ringTx {w : Walk} (ready : TxReady permits size depth m) :
    ReflTransGen (TxStep permits) (.walked w, m) (.idle, m.ringTx w.written w.producer) := by
  unfold Machine.ringTx
  split
  · rename_i none
    exact .single (.quiet none)
  · exact (steps_write ready .ring).trans (steps_give _)

theorem steps_postTx {r : TxRing} (ready : TxReady permits size depth m) (tx : m.tx = some r)
    (running : r.phase = .running) :
    ReflTransGen (TxStep permits) (.idle, m) (.idle, m.postTx) := by
  have surveyed : ReflTransGen (TxStep permits) (.idle, m) _ := .single (.survey tx running)
  have posted := surveyed.trans (steps_posts ready)
  obtain ⟨r', tx', -, -⟩ := (ready.steps posted).ring
  have adopted := posted.tail (.adopt tx')
  rw [← Machine.modifyTx_eq_setTx tx' fun q => q.afterWalk _] at adopted
  have hs : r.size = size := by
    obtain ⟨q, hq, hqs, -⟩ := ready.ring
    obtain rfl := Option.some.inj (tx.symm.trans hq)
    exact hqs
  unfold Machine.postTx
  rw [tx]
  dsimp only
  rw [hs]
  cases r.postingWalk.stopped with
  | none => exact adopted.trans (steps_ringTx (ready.steps adopted))
  | some stop =>
    have noted := adopted.trans (steps_give (.txBackpressure stop.1 stop.2))
    exact noted.trans (steps_ringTx (ready.steps noted))

/-- After its posting walk the ring is what the walk makes of it. -/
theorem tx_postTx {r : TxRing} (tx : m.tx = some r) :
    m.postTx.tx = some (r.afterWalk r.postingWalk) := by
  have writes (ws : List (Nat × TxDescriptor)) (k : Machine) :
      (ws.foldl (fun m w => m.writeTx w.1 w.2) k).tx = k.tx := by
    induction ws generalizing k with
    | nil => rfl
    | cons w ws ih => rw [List.foldl_cons, ih, Machine.tx_writeTx]
  have posts (ts : List TxPost) (k : Machine) :
      (ts.foldl (Machine.postPacket r.size) k).tx = k.tx := by
    induction ts generalizing k with
    | nil => rfl
    | cons t ts ih => rw [List.foldl_cons, ih, Machine.postPacket, writes, Machine.tx_record]
  have rung (k : Machine) (n : Nat) (c : Counter) : (k.ringTx n c).tx = k.tx := by
    unfold Machine.ringTx
    split
    · rfl
    · rw [Machine.tx_give, Machine.writeCounter, Machine.tx_write]
  have adopted := Machine.modifyTx_eq_setTx ((posts r.postingWalk.posts m).trans tx) fun q =>
    q.afterWalk r.postingWalk
  unfold Machine.postTx
  rw [tx]
  dsimp only
  rw [rung, adopted]
  cases r.postingWalk.stopped with
  | none => rfl
  | some stop => exact Machine.tx_give _ _

/-! ## Handing packets back -/

theorem steps_completeDone {n : Nat} (rounds : Nat) {s : Served}
    (abides : s.upper.Abides (TxMeanwhile permits)) (ready : TxReady permits size depth s.machine) :
    ReflTransGen (TxStep permits) (.reclaiming n, s.machine)
      (.reclaiming n, (loop (Machine.completeDone n) rounds s).machine) := by
  induction rounds generalizing s with
  | zero => exact .refl
  | succ rounds ih =>
    obtain ⟨r, tx, -, -⟩ := ready.ring
    cases next : r.takeDone? n with
    | none =>
      have stop := Machine.completeDone_of_none tx next
      rw [loop_of_idle stop]
    | some taken =>
      obtain ⟨p, r'⟩ := taken
      have again := Machine.completeDone_of_some tx next
      rw [loop_of_again (by rw [again]), again]
      -- counting the packet and handing it back are one step, the callback is a run of them
      have settled : ReflTransGen (TxStep permits) (.reclaiming n, s.machine)
          (.reclaiming n, (s.settled r' p).machine) :=
        .single (.complete tx next)
      have abides : (s.settled r' p).upper.Abides (TxMeanwhile permits) := abides
      have replied := settled.trans (steps_reply abides (ready.steps settled))
      exact replied.trans (ih (Served.abides_reply abides) (ready.steps replied))

theorem steps_reclaimTx {s : Served} {r : TxRing} (abides : s.upper.Abides (TxMeanwhile permits))
    (ready : TxReady permits size depth s.machine) (tx : s.machine.tx = some r)
    (running : r.phase = .running) :
    ReflTransGen (TxStep permits) (.idle, s.machine) (.idle, (Machine.reclaimTx s).machine) := by
  have tx := (Machine.tx_turn s.machine).trans tx
  have read := steps_read ready (.read tx running)
  have tx' : (s.machine.read .txConsumer).2.tx = some r :=
    (Machine.tx_record _ _).trans tx
  set m := (s.machine.read .txConsumer).2 with hm
  set c := s.machine.turn.adapter.counter .txConsumer with hc
  have checked : ReflTransGen (TxStep permits) (.idle, s.machine)
      (.reclaiming (r.unconsumed c), m.checkTxReading c) := by
    unfold Machine.checkTxReading
    rw [tx']
    have given := read.trans (steps_giveIf (!r.believes c) (.txBadConsumer c r.reclaim r.producer))
    obtain ⟨r', tx', -, -⟩ := (ready.steps given).ring
    have doubted := given.tail (.doubt (c := c) tx')
    rw [← Machine.modifyTx_eq_setTx tx' fun q => q.noteReading c] at doubted
    exact doubted
  have completed := checked.trans
    (steps_completeDone r.passed.length (s := { s with machine := m.checkTxReading c }) abides
      (ready.steps checked))
  obtain ⟨condition, n, served⟩ : ∃ condition n, (Machine.reclaimTx s).machine =
      (loop (Machine.completeDone (r.unconsumed c)) r.passed.length
        { s with machine := m.checkTxReading c }).machine.giveIf condition n := by
    unfold Machine.reclaimTx Machine.readCounter
    dsimp only
    rw [← hm, tx']
    exact ⟨_, _, rfl⟩
  rw [served]
  exact (completed.tail .stop).trans (steps_giveIf _ _)

/-! ## Emptying a cancelled ring -/

theorem steps_completeOldest (rounds : Nat) {s : Served}
    (abides : s.upper.Abides (TxMeanwhile permits)) (ready : TxReady permits size depth s.machine) :
    ReflTransGen (TxStep permits) (.draining, s.machine)
      (.draining, (loop Machine.completeOldest rounds s).machine) := by
  induction rounds generalizing s with
  | zero => exact .refl
  | succ rounds ih =>
    obtain ⟨r, tx, -, -⟩ := ready.ring
    cases next : r.takeOldest? with
    | none =>
      have stop := Machine.completeOldest_of_none tx next
      rw [loop_of_idle stop]
    | some taken =>
      obtain ⟨p, r'⟩ := taken
      have again := Machine.completeOldest_of_some tx next
      rw [loop_of_again (by rw [again]), again]
      have settled : ReflTransGen (TxStep permits) (.draining, s.machine)
          (.draining, (s.settled r' p.ignore).machine) :=
        .single (.surrender tx next)
      have abides : (s.settled r' p.ignore).upper.Abides (TxMeanwhile permits) := abides
      have replied := settled.trans (steps_reply abides (ready.steps settled))
      exact replied.trans (ih (Served.abides_reply abides) (ready.steps replied))

theorem steps_drainTx {s : Served} {r : TxRing} (abides : s.upper.Abides (TxMeanwhile permits))
    (ready : TxReady permits size depth s.machine) (tx : s.machine.tx = some r)
    (cancelled : r.phase = .cancelled) :
    ReflTransGen (TxStep permits) (.idle, s.machine) (.idle, (Machine.drainTx s).machine) := by
  have begun : ReflTransGen (TxStep permits) (.idle, s.machine) (.draining, s.machine) :=
    .single (.drain tx cancelled)
  have emptied := begun.trans (steps_completeOldest r.queue.length abides ready)
  obtain ⟨-, -, r', tx', empty, -⟩ := Machine.loop_completeOldest abides tx rfl
  have abandoned := emptied.tail (.abandon tx' empty)
  rw [← Machine.modifyTx_eq_setTx tx'] at abandoned
  unfold Machine.drainTx
  rw [tx]
  exact abandoned

/-! ## Requests -/

/-- A running ring posts, and then it hands back. -/
theorem Machine.advanceTx_of_running {r : TxRing} (tx : m.tx = some r) (running : r.phase = .running)
    (u : Upper) : m.advanceTx u = reclaimTx (.start u (m.modifyTx collect).postTx) := by
  unfold Machine.advanceTx
  rw [tx]
  dsimp only
  rw [running]

theorem steps_advanceTx {u : Upper} (abides : u.Abides (TxMeanwhile permits))
    (ready : TxReady permits size depth m) :
    ReflTransGen (TxStep permits) (.idle, m) (.idle, (m.advanceTx u).machine) := by
  obtain ⟨r, tx, -, -⟩ := ready.ring
  have collected : ReflTransGen (TxStep permits) (.idle, m) (.idle, m.modifyTx collect) := by
    rw [Machine.modifyTx_eq_setTx tx]
    exact .single (.collect tx)
  have tx' : (m.modifyTx collect).tx = some r.collect := Machine.tx_modifyTx tx collect
  unfold Machine.advanceTx
  rw [tx]
  dsimp only
  cases phase : r.phase with
  | stopped => exact .refl
  | cancelled =>
    exact collected.trans
      (steps_drainTx (s := .start u (m.modifyTx collect)) abides (ready.steps collected) tx' phase)
  | running =>
    have posted := collected.trans (steps_postTx (ready.steps collected) tx' phase)
    exact posted.trans
      (steps_reclaimTx (s := .start u (m.modifyTx collect).postTx) abides (ready.steps posted)
        (tx_postTx tx') phase)

/-- **Every request to the transmit ring is a run of steps.** -/
theorem TxRequest.steps {m' : Machine} (h : TxRequest permits m m')
    (ready : TxReady permits size depth m) :
    ReflTransGen (TxStep permits) (.idle, m) (.idle, m') := by
  cases h with
  | start => exact steps_startTx ready
  | cancel => exact steps_cancelTx ready
  | advance h => exact steps_advanceTx h.meanwhile ready
  | sending h => exact h.meanwhile.steps ready
  | plan h => exact .single (.plan h)

/-- A run of requests is a run of steps. -/
theorem steps_of_requests {m' : Machine} (h : ReflTransGen (TxRequest permits) m m')
    (ready : TxReady permits size depth m) :
    ReflTransGen (TxStep permits) (.idle, m) (.idle, m') := by
  induction h with
  | refl => exact .refl
  | tail _ h ih => exact ih.trans (h.steps (ready.steps ih))

end Requests

end DescriptorRings
