import DescriptorRings.Proofs.Machine.Strict
import DescriptorRings.Proofs.Transmit.Callback
import DescriptorRings.Proofs.Transmit.Simulation

/-!
# The transmit ring passes every check

Most differences of the transmit ring cannot go below zero in any state of the ring: a distance on the
ring is less than its size, and what was passed is a part of the queue.  One of them is different.
Settling a packet takes one from the number of outstanding packets, which the ring keeps beside the
packets themselves.  That this number is theirs (`Machine.TxCounted`) is kept by every request and by
every callback, whatever the adapter does.

From this alone it follows that serving the ring passes every check (`Machine.TxCounted.advanceTx`).
-/

namespace DescriptorRings

open Relation

/-- The transmit ring counts as outstanding the packets that it has. -/
def Machine.TxCounted (m : Machine) : Prop := ∀ r, m.tx = some r → r.outstanding = r.packets.length

variable {permits : Move → Prop} {m m' : Machine} {r r' : TxRing} {s : Served} {p q : Packet}
  {unconsumed : Nat}

/-! ## Taking a packet out -/

namespace TxRing

theorem outstanding_of_takeDone? (h : r.takeDone? unconsumed = some (p, r')) :
    r'.outstanding = r.outstanding := by
  rcases takeDone?_eq_some_iff.mp h with ⟨rest, -, rfl⟩ | ⟨last, rest, -, -, rfl⟩ <;> rfl

theorem outstanding_of_takeOldest? (h : r.takeOldest? = some (p, r')) :
    r'.outstanding = r.outstanding := by
  rcases takeOldest?_eq_some_iff.mp h with ⟨e, rest, -, -, rfl⟩ | ⟨rest, -, -, rfl⟩ <;> rfl

theorem passed_of_takeDone? (h : r.takeDone? unconsumed = some (p, r')) : 1 ≤ r.passed.length := by
  rcases takeDone?_eq_some_iff.mp h with ⟨rest, passed, -⟩ | ⟨last, rest, passed, -⟩ <;>
    exact passed ▸ Nat.succ_pos rest.length

end TxRing

/-! ## What is known of any ring -/

namespace Strict

theorem freeSlots_eq (r : TxRing) : freeSlots r = .ok r.freeSlots := by
  rw [freeSlots, bind_eq (capacity_eq r.size)]
  exact sub_distance_eq r.size r.producer r.reclaim

theorem pending_eq (r : TxRing) : pending r = .ok r.pending := by
  have queued : r.queue.length = r.passed.length + r.waiting.length := by
    rw [TxRing.queue, List.length_append, List.length_map]
  have waiting : r.queue.length - r.passed.length = r.waiting.length := by
    rw [queued, Nat.add_sub_cancel_left]
  rw [pending, bind_eq (sub_eq (queued ▸ Nat.le_add_right _ _)), waiting]
  rfl

theorem walk_eq (size : RingSize) (reclaim : Counter) (ps : List Packet) (producer : Counter) :
    walk size reclaim ps producer = .ok (TxRing.walk size reclaim ps producer) := by
  induction ps generalizing producer with
  | nil => rfl
  | cons p rest ih =>
    unfold walk TxRing.walk
    split
    · rw [ih]
      rfl
    · rw [bind_eq (capacity_eq size), bind_eq (sub_distance_eq size producer reclaim)]
      dsimp only
      split
      · rfl
      · rw [ih]
        rfl

/-- **Descriptors are written into slots of the ring.** -/
theorem postTx_eq (m : Machine) : postTx m = .ok m.postTx := by
  unfold postTx
  split
  · next none =>
    rw [Machine.postTx, none]
  · next ring tx =>
    have inside (t : TxPost) (w : Nat × TxDescriptor) (hw : w ∈ t.writes ring.size) :
        index w.1 ring.size.slots = .ok () := by
      obtain ⟨i, here, rfl⟩ := List.mem_mapIdx.mp hw
      exact index_eq (Counter.slot_lt _ (Nat.lt_of_lt_of_le Nat.two_pos ring.size.two_le))
    rw [bind_eq (walk_eq ring.size ring.reclaim ring.waiting ring.producer),
      bind_eq (forM_eq fun t _ => forM_eq (inside t))]
    rfl

end Strict

namespace Machine.TxCounted

/-! ## What every request keeps -/

theorem congr (counted : m.TxCounted) (same : m'.tx = m.tx) : m'.TxCounted :=
  fun r tx => counted r (same.symm.trans tx)

theorem modifyTx (counted : m.TxCounted) {f : TxRing → TxRing}
    (keeps : ∀ r : TxRing, (f r).outstanding = r.outstanding ∧
      (f r).packets.length = r.packets.length) : (m.modifyTx f).TxCounted := by
  intro r tx
  obtain ⟨r₀, tx₀, rfl⟩ := Option.map_eq_some_iff.mp tx
  rw [(keeps r₀).1, (keeps r₀).2]
  exact counted r₀ tx₀

theorem collect (counted : m.TxCounted) : (m.modifyTx TxRing.collect).TxCounted :=
  counted.modifyTx fun r => ⟨rfl, congrArg List.length r.packets_collect⟩

theorem postTx (counted : m.TxCounted) : m.postTx.TxCounted := by
  cases tx : m.tx with
  | none =>
    rw [Machine.postTx, tx]
    exact counted
  | some r =>
    intro r' tx'
    obtain rfl := Option.some.inj ((tx_postTx tx).symm.trans tx')
    rw [TxRing.packets_afterWalk]
    exact counted r tx

theorem startTx (counted : m.TxCounted) : m.startTx.2.TxCounted := by
  unfold Machine.startTx
  split
  · exact counted
  · have looked : (m.readCounter .txConsumer).2.TxCounted :=
      counted.congr ((tx_record _ _).trans m.tx_turn)
    have begun := looked.modifyTx (f := fun r => r.begin (m.readCounter .txConsumer).1)
      fun r => ⟨rfl, rfl⟩
    exact begun.congr (((tx_give _ _).trans (tx_write _ _ _)).trans (tx_write _ _ _))

theorem cancelTx (counted : m.TxCounted) : m.cancelTx.TxCounted := by
  unfold Machine.cancelTx
  split
  · exact counted
  · have silenced := counted.congr (m.tx_write .txDmaControl DmaControl.off)
    have cancelled := silenced.modifyTx (f := TxRing.cancel) fun r => by
      refine ⟨rfl, ?_⟩
      rw [TxRing.packets, TxRing.queue_cancel, List.length_append, List.length_map,
        ← List.length_append]
      rfl
    exact cancelled.congr (tx_give _ _)

/-- A submission adds a packet, and counts it. -/
theorem meanwhile (counted : m.TxCounted) (h : TxMeanwhile permits m m') : m'.TxCounted := by
  cases h with
  | submit p =>
    unfold Machine.submit
    split
    · exact counted
    · intro r tx
      rw [tx_record] at tx
      obtain ⟨r₀, tx₀, rfl⟩ := Option.map_eq_some_iff.mp tx
      rw [TxRing.packets_accept, List.length_append, ← counted r₀ tx₀]
      rfl
  | turn => exact counted.congr m.tx_turn
  | move => exact counted.congr (tx_move m _)
  | plan => exact counted
  | elsewhere apart => exact counted.congr apart.tx
  | note => exact counted.congr (tx_record m _)

theorem run (counted : m.TxCounted) (run : ReflTransGen (TxMeanwhile permits) m m') :
    m'.TxCounted := by
  induction run with
  | refl => exact counted
  | tail _ act ih => exact ih.meanwhile act

/-! ## Handing packets back -/

/-- **A packet that was taken out can be settled**, since it is outstanding. -/
theorem settleTx (counted : s.machine.TxCounted) (abides : s.upper.Abides (TxMeanwhile permits))
    (tx : s.machine.tx = some r) (same : r'.outstanding = r.outstanding)
    (taken : r.packets = p :: r'.packets) (q : Packet) :
    Strict.settleTx (s.onMachine fun m => { m with tx := some r' }) q = .ok (s.settled r' q).reply ∧
      (s.settled r' q).reply.machine.TxCounted := by
  have left : r'.outstanding = r'.packets.length + 1 := by
    rw [same, counted r tx, taken, List.length_cons]
  have owed : 1 ≤ ((some r').map TxRing.outstanding).getD 0 := by
    rw [Option.map_some, Option.getD_some, left]
    exact Nat.succ_pos _
  refine ⟨Strict.bind_eq (Strict.sub_eq owed) _, ?_⟩
  have settled : (s.settled r' q).machine.TxCounted := by
    intro r₁ tx₁
    obtain rfl := Option.some.inj ((s.tx_settled r' q).symm.trans tx₁)
    show r'.outstanding - 1 = r'.packets.length
    rw [left, Nat.add_sub_cancel]
  exact settled.run (Served.run_reply (s := s.settled r' q) abides)

/-- What is known of a request that hands packets back. -/
structure Handing (permits : Move → Prop) (s : Served) : Prop where
  /-- The ring counts its packets. -/
  counted : s.machine.TxCounted
  /-- The upper layer submits packets, and does not call the ring. -/
  abides : s.upper.Abides (TxMeanwhile permits)

/-- A round passes its checks, and the next one can begin. -/
theorem completeDone (h : Handing permits s) (unconsumed : Nat) :
    Strict.completeDone unconsumed s = .ok (Machine.completeDone unconsumed s) ∧
      Handing permits (Machine.completeDone unconsumed s).2 := by
  cases tx : s.machine.tx with
  | none =>
    rw [Strict.completeDone, Machine.completeDone, tx]
    exact ⟨rfl, h⟩
  | some r =>
    cases next : r.takeDone? unconsumed with
    | none =>
      rw [Machine.completeDone_of_none tx next, Strict.completeDone, tx, Option.bind_some, next]
      exact ⟨rfl, h⟩
    | some taken =>
      obtain ⟨p, r'⟩ := taken
      obtain ⟨settles, counted⟩ := settleTx h.counted h.abides tx (TxRing.outstanding_of_takeDone? next)
        (TxRing.packets_of_takeDone? next) p
      rw [Machine.completeDone_of_some tx next, Strict.completeDone, tx, Option.bind_some, next]
      refine ⟨?_, counted, Served.abides_reply (s := s.settled r' p) h.abides⟩
      dsimp only
      have passed : 1 ≤ ((some r).map fun r => r.passed.length).getD 0 :=
        TxRing.passed_of_takeDone? next
      rw [Strict.bind_eq (Strict.sub_eq passed), Strict.bind_eq settles]
      rfl

theorem completeOldest (h : Handing permits s) :
    Strict.completeOldest s = .ok (Machine.completeOldest s) ∧
      Handing permits (Machine.completeOldest s).2 := by
  cases tx : s.machine.tx with
  | none =>
    rw [Strict.completeOldest, Machine.completeOldest, tx]
    exact ⟨rfl, h⟩
  | some r =>
    cases next : r.takeOldest? with
    | none =>
      rw [Machine.completeOldest_of_none tx next, Strict.completeOldest, tx, Option.bind_some, next]
      exact ⟨rfl, h⟩
    | some taken =>
      obtain ⟨p, r'⟩ := taken
      obtain ⟨settles, counted⟩ := settleTx h.counted h.abides tx
        (TxRing.outstanding_of_takeOldest? next) (TxRing.packets_of_takeOldest? next) p.ignore
      rw [Machine.completeOldest_of_some tx next, Strict.completeOldest, tx, Option.bind_some, next]
      refine ⟨?_, counted, Served.abides_reply (s := s.settled r' p.ignore) h.abides⟩
      dsimp only
      rw [Strict.bind_eq settles]
      rfl

theorem checkTxReading (counted : m.TxCounted) (c : Counter) : (m.checkTxReading c).TxCounted := by
  unfold Machine.checkTxReading
  split
  · exact counted
  · refine (counted.congr (tx_giveIf m _ _)).modifyTx fun r => ⟨?_, ?_⟩
    · unfold TxRing.noteReading
      split <;> rfl
    · rw [TxRing.packets_noteReading]

/-! ## A whole service -/

theorem rounds {strict : Served → Except Mishap (Bool × Served)} {round : Served → Bool × Served}
    (each : ∀ s, Handing permits s → strict s = .ok (round s) ∧ Handing permits (round s).2)
    (h : Handing permits s) (n : Nat) :
    Strict.loop strict n s = .ok (loop round n s) ∧ Handing permits (loop round n s) :=
  ⟨Strict.loop_eq (fun _ => Handing permits) (fun _ s h => ⟨(each s h).1, fun _ => (each s h).2⟩) h,
    loop_keeps (fun s h => (each s h).2) n h⟩

theorem reclaimTx (h : Handing permits s) :
    Strict.reclaimTx s = .ok (Machine.reclaimTx s) ∧ (Machine.reclaimTx s).machine.TxCounted := by
  set c := (s.machine.readCounter .txConsumer).1
  set k := (s.machine.readCounter .txConsumer).2
  have looked : k.TxCounted := h.counted.congr ((tx_record _ _).trans s.machine.tx_turn)
  have begun : Handing permits { s with machine := k.checkTxReading c } :=
    ⟨looked.checkTxReading c, h.abides⟩
  obtain ⟨passes, done⟩ := rounds
    (fun s h => completeDone h ((k.tx.map fun r => r.unconsumed c).getD 0)) begun
    ((k.tx.map fun r => r.passed.length).getD 0)
  exact ⟨Strict.bind_eq passes _, done.counted.congr (tx_giveIf _ _ _)⟩

theorem drainTx (h : Handing permits s) :
    Strict.drainTx s = .ok (Machine.drainTx s) ∧ (Machine.drainTx s).machine.TxCounted := by
  obtain ⟨passes, done⟩ := rounds (fun _ h => completeOldest h) h
    ((s.machine.tx.map fun r => r.queue.length).getD 0)
  exact ⟨Strict.bind_eq passes _, done.counted.modifyTx fun r => ⟨rfl, rfl⟩⟩

/-- **Serving the transmit ring passes every check**, and the ring still counts its packets. -/
theorem advanceTx (counted : m.TxCounted) {u : Upper} (abides : u.Abides (TxMeanwhile permits)) :
    Strict.advanceTx m u = .ok (m.advanceTx u) ∧ (m.advanceTx u).machine.TxCounted := by
  unfold Strict.advanceTx Machine.advanceTx
  cases m.tx with
  | none => exact ⟨rfl, counted⟩
  | some ring =>
    dsimp only
    cases ring.phase with
    | stopped => exact ⟨rfl, counted⟩
    | cancelled => exact drainTx (s := .start u _) ⟨counted.collect, abides⟩
    | running =>
      dsimp only
      rw [Strict.bind_eq (Strict.postTx_eq _)]
      exact reclaimTx (s := .start u _) ⟨counted.collect.postTx, abides⟩

end Machine.TxCounted

end DescriptorRings
