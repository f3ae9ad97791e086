import DescriptorRings.Machine.Transmission
import DescriptorRings.Proofs.Machine.Sides

/-!
# Transmission does not notice reception

Whatever is done with a transmit ring is done on the side of transmission: submitting, starting,
cancelling and serving it.  The ring is the only thing that decides what happens, next to the
adapter's counter, so two machines that agree in both stay in step, and each of them keeps the other
side as it was.

The callbacks of a service may do whatever keeps the machines in step themselves.
-/

namespace DescriptorRings

variable {n n' m m' : Machine}

namespace InStep

/-- Both machines have the same transmit ring. -/
theorem tx (h : InStep .tx n n' m m') : m'.tx = m.tx := congrArg (fun s => s.tx) h.own

/-! ## Submission -/

theorem submit (h : InStep .tx n n' m m') (p : Packet) :
    Matches .tx n n' (m.submit p) (m'.submit p) := by
  unfold Machine.submit
  rw [h.tx]
  cases m.tx.bind fun r => r.refusal? p with
  | some cause => exact ⟨rfl, h⟩
  | none => exact ⟨rfl, (h.modifyTx fun r => r.accept p).record (.accepted p)⟩

/-! ## Starting and cancelling -/

theorem startTx (h : InStep .tx n n' m m') : Matches .tx n n' m.startTx m'.startTx := by
  unfold Machine.startTx
  rw [h.tx]
  split
  · exact ⟨rfl, h⟩
  · obtain ⟨c, k, k', first, second, read⟩ := (h.readCounter (r := .txConsumer) rfl).split
    rw [first, second]
    have begun := read.modifyTx fun r => r.begin c
    have placed := begun.write (r := .txProducer) rfl c.toUInt32
    exact ⟨rfl, (placed.write (r := .txDmaControl) rfl DmaControl.enable).give (.txStarted c)⟩

theorem cancelTx (h : InStep .tx n n' m m') : InStep .tx n n' m.cancelTx m'.cancelTx := by
  unfold Machine.cancelTx
  rw [h.tx]
  split
  · exact h
  · have off := h.write (r := .txDmaControl) rfl DmaControl.off
    have cancelled := off.modifyTx TxRing.cancel
    dsimp only
    rw [cancelled.tx]
    exact cancelled.give _

/-! ## Posting -/

theorem postPacket (h : InStep .tx n n' m m') (size : RingSize) (t : TxPost) :
    InStep .tx n n' (Machine.postPacket size m t) (Machine.postPacket size m' t) :=
  (h.record (.posting t)).foldl (fun w _ _ hk => hk.writeTx w.1 w.2) _

theorem ringTx (h : InStep .tx n n' m m') (count : Nat) (producer : Counter) :
    InStep .tx n n' (m.ringTx count producer) (m'.ringTx count producer) := by
  unfold Machine.ringTx
  split
  · exact h
  · exact (h.write (r := .txProducer) rfl producer.toUInt32).give (.txPosted count producer)

/-- **The posting walk writes the same descriptors and rings the doorbell for the same counter.** -/
theorem postTx (h : InStep .tx n n' m m') : InStep .tx n n' m.postTx m'.postTx := by
  unfold Machine.postTx
  rw [h.tx]
  cases m.tx with
  | none => exact h
  | some ring =>
    have written := h.foldl (fun t _ _ hk => hk.postPacket ring.size t) ring.postingWalk.posts
    have walked := written.modifyTx fun r => r.afterWalk ring.postingWalk
    dsimp only
    cases ring.postingWalk.stopped with
    | none => exact walked.ringTx _ _
    | some stop => exact (walked.give _).ringTx _ _

theorem checkTxReading (h : InStep .tx n n' m m') (c : Counter) :
    InStep .tx n n' (m.checkTxReading c) (m'.checkTxReading c) := by
  unfold Machine.checkTxReading
  rw [h.tx]
  cases m.tx with
  | none => exact h
  | some ring => exact (h.giveIf _ _).modifyTx _

end InStep

/-! ## Serving -/

namespace ServedInStep

variable {s s' : Served}

theorem settleTx (h : ServedInStep .tx n n' s s') (p : Packet) :
    ServedInStep .tx n n' (Machine.settleTx s p) (Machine.settleTx s' p) := by
  have settled := h.onMachine fun _ _ hk => hk.modifyTx fun r => r.settle p
  have counted : ServedInStep .tx n n'
      { s.onMachine fun m => m.modifyTx fun r => r.settle p with count := s.count + 1 }
      { s'.onMachine fun m => m.modifyTx fun r => r.settle p with count := s'.count + 1 } :=
    ⟨congrArg (· + 1) h.count, h.upper, settled.machines⟩
  exact (counted.onMachine fun _ _ hk => hk.record (.completed p)).reply

/-- A packet that is taken out of the ring is handed back. -/
theorem takeTx (h : ServedInStep .tx n n' s s') (ring : TxRing) (p : Packet) :
    ServedInStep .tx n n' (Machine.settleTx (s.onMachine fun m => { m with tx := some ring }) p)
      (Machine.settleTx (s'.onMachine fun m => { m with tx := some ring }) p) := by
  have taken := h.onMachine fun _ _ hk =>
    hk.adjust (f := fun s => { s with tx := some ring }) {}
  exact taken.settleTx p

theorem completeDone (unconsumed : Nat) (s s' : Served) (h : ServedInStep .tx n n' s s') :
    (Machine.completeDone unconsumed s').1 = (Machine.completeDone unconsumed s).1 ∧
      ServedInStep .tx n n' (Machine.completeDone unconsumed s).2
        (Machine.completeDone unconsumed s').2 := by
  unfold Machine.completeDone
  rw [h.machines.tx]
  cases s.machine.tx.bind fun r => r.takeDone? unconsumed with
  | none => exact ⟨rfl, h⟩
  | some taken => exact ⟨rfl, h.takeTx taken.2 taken.1⟩

theorem completeOldest (s s' : Served) (h : ServedInStep .tx n n' s s') :
    (Machine.completeOldest s').1 = (Machine.completeOldest s).1 ∧
      ServedInStep .tx n n' (Machine.completeOldest s).2 (Machine.completeOldest s').2 := by
  unfold Machine.completeOldest
  rw [h.machines.tx]
  cases s.machine.tx.bind TxRing.takeOldest? with
  | none => exact ⟨rfl, h⟩
  | some taken => exact ⟨rfl, h.takeTx taken.2 taken.1.ignore⟩

/-- **Both find the adapter at the same counter, and hand the same packets back.** -/
theorem reclaimTx (h : ServedInStep .tx n n' s s') :
    ServedInStep .tx n n' (Machine.reclaimTx s) (Machine.reclaimTx s') := by
  obtain ⟨c, k, k', first, second, read⟩ := (h.machines.readCounter (r := .txConsumer) rfl).split
  unfold Machine.reclaimTx
  rw [first, second]
  dsimp only
  rw [read.tx]
  have checked := h.goOn (read.checkTxReading c)
  have looped := loop_keeps_both (completeDone ((k.tx.map fun r => r.unconsumed c).getD 0))
    ((k.tx.map fun r => r.passed.length).getD 0) checked
  rw [looped.count]
  exact looped.onMachine fun _ _ hk => hk.giveIf _ _

theorem drainTx (h : ServedInStep .tx n n' s s') :
    ServedInStep .tx n n' (Machine.drainTx s) (Machine.drainTx s') := by
  unfold Machine.drainTx
  rw [h.machines.tx]
  exact (loop_keeps_both completeOldest _ h).onMachine fun _ _ hk => hk.modifyTx TxRing.abandon

end ServedInStep

/-- **Serving the transmit ring comes to the same.** -/
theorem InStep.advanceTx (h : InStep .tx n n' m m') {u u' : Upper}
    (upper : UpperInStep .tx n n' u u') :
    ServedInStep .tx n n' (m.advanceTx u) (m'.advanceTx u') := by
  have collected := h.modifyTx TxRing.collect
  unfold Machine.advanceTx
  rw [h.tx]
  cases m.tx with
  | none => exact .start upper h
  | some ring =>
    dsimp only
    cases ring.phase with
    | stopped => exact .start upper h
    | cancelled => exact (ServedInStep.start upper collected).drainTx
    | running => exact (ServedInStep.start upper collected.postTx).reclaimTx

end DescriptorRings
