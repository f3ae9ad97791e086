import DescriptorRings.Proofs.Device.Law
import DescriptorRings.Proofs.Transmit.Course
import DescriptorRings.Proofs.Transmit.Window

/-!
# Where the doorbell stands

Software never reads the doorbell of the transmit direction; it goes by the producer of the ring.
The adapter goes by the doorbell.  Between two requests the two agree as long as the ring is running
(`TxRung.step`).

Within a request there are two places where they may not.  A start puts the ring at the adapter's
counter first and the doorbell afterwards.  And the ring takes a posting walk over before the
doorbell is rung for it, which is left out if the walk has written nothing: the producer of such a
walk has not moved (`producer_walk`).
-/

namespace DescriptorRings

open TxRing

variable {permits : Move → Prop} {m m' : Machine} {r r' : TxRing}

/-- A posting walk ends as many descriptors on as it has posted. -/
theorem TxRing.producer_walk (size : RingSize) (reclaim : Counter) (ps : List Packet)
    (producer : Counter) :
    (walk size reclaim ps producer).producer =
      producer.advance (walk size reclaim ps producer).written := by
  induction ps generalizing producer with
  | nil => exact (Counter.advance_zero producer).symm
  | cons p ps ih =>
    unfold walk
    split
    · exact ih producer
    · dsimp only
      split
      · exact (Counter.advance_zero producer).symm
      · exact (ih _).trans (Counter.advance_advance _ _ _)

/-- What the doorbell of a running ring says: where the producer of the ring is, except while the
ring is being placed and while it is ahead of the doorbell. -/
def TxPoint.Rung (v : UInt32) (r : TxRing) : TxPoint → Prop
  | .placed c => r.producer = c
  | .walked w => r.producer = w.producer ∧ (w.written = 0 → v = r.producer.toUInt32)
  | _ => v = r.producer.toUInt32

theorem TxPoint.Rung.congr {x : TxPoint} {v : UInt32} (h : x.Rung v r)
    (producer : r'.producer = r.producer) : x.Rung v r' := by
  cases x <;> (unfold TxPoint.Rung at h ⊢; rw [producer]; exact h)

/-- The doorbell of a machine whose ring is running. -/
def TxRung (c : TxPoint × Machine) : Prop :=
  ∃ r, c.2.tx = some r ∧ (r.phase = .running → c.1.Rung (c.2.adapter.read .txProducer) r)

namespace TxRung

variable {x x' : TxPoint}

/-- Neither the ring changes nor the doorbell. -/
theorem goto (h : TxRung (x, m)) (tx : m'.tx = m.tx)
    (doorbell : m'.adapter.read .txProducer = m.adapter.read .txProducer)
    (next : ∀ v r, x.Rung v r → x'.Rung v r) : TxRung (x', m') := by
  obtain ⟨r, hr, rung⟩ := h
  refine ⟨r, tx.trans hr, fun running => ?_⟩
  rw [doorbell]
  exact next _ r (rung running)

/-- The ring changes, but neither its producer nor its phase. -/
theorem adjust (h : TxRung (x, m)) (tx : m.tx = some r) (tx' : m'.tx = some r')
    (adapter : m'.adapter = m.adapter) (producer : r'.producer = r.producer)
    (phase : r'.phase = r.phase) : TxRung (x, m') := by
  obtain ⟨q, hq, rung⟩ := h
  obtain rfl := Option.some.inj (tx.symm.trans hq)
  refine ⟨r', tx', fun running => ?_⟩
  rw [adapter]
  exact (rung (phase.symm.trans running)).congr producer

/-- Another register is written. -/
theorem poked {reg : Register} {v : UInt32} (h : TxRung (x, m)) (other : .txProducer ≠ reg)
    (plain : reg ≠ .irqClear) (next : ∀ v r, x.Rung v r → x'.Rung v r) :
    TxRung (x', m.poke reg v) := by
  refine h.goto (Machine.tx_record _ _) ?_ next
  rw [Machine.toScene_poke]
  exact Adapter.read_write_of_ne _ other plain v

/-- A new ring is not running. -/
theorem new {slots depth : Nat} (new : m.NewTx slots depth) : TxRung (.idle, m) := by
  obtain ⟨r, made, tx⟩ := new.made
  obtain ⟨size, -, rfl⟩ := TxRing.create_eq_ok made
  exact ⟨_, tx, fun running => absurd running Phase.noConfusion⟩

/-- **Every step keeps the doorbell where the ring is**, if the adapter leaves it alone. -/
theorem step (spares : ∀ mv, permits mv → mv.Spares .txProducer) (c c' : TxPoint × Machine)
    (step : TxStep permits c c') (surveyed : Surveyed c) (h : TxRung c) : TxRung c' := by
  cases step
  case plan => exact h
  case move permitted =>
    refine h.goto (Machine.tx_move _ _) ?_ fun _ _ => id
    rw [Machine.toScene_move]
    exact spares _ permitted _
  case elsewhere apart => exact h.goto apart.tx apart.registers.producer fun _ _ => id
  case note | look | announce | read =>
    exact h.goto (Machine.tx_record _ _) (congrArg (Adapter.read · _) (Machine.adapter_record _ _))
      fun _ _ => id
  case survey | written | stop | drain => exact h.goto rfl rfl fun _ _ => id
  case quiet none => exact h.goto rfl rfl fun _ _ rung => rung.2 none
  case accept r p tx free =>
    exact h.adjust tx (Machine.tx_record _ _) (Machine.adapter_record _ _) rfl rfl
  case place r tx => exact ⟨_, rfl, fun _ => rfl⟩
  case align m c =>
    obtain ⟨r, tx, rung⟩ := h
    refine ⟨r, (Machine.tx_record _ _).trans tx, fun running => ?_⟩
    rw [Machine.toScene_poke]
    exact (Adapter.read_write_self _ _ _).trans (congrArg _ (rung running).symm)
  case switchOn => exact h.poked (by decide) (by decide) fun _ _ => id
  case switchOff => exact h.poked (by decide) (by decide) fun _ _ => id
  case mark r tx => exact ⟨_, rfl, fun running => absurd running Phase.noConfusion⟩
  case collect r tx => exact h.adjust tx rfl rfl rfl rfl
  case write =>
    refine h.goto (Machine.tx_record _ _) ?_ fun _ _ => id
    rw [Machine.toScene_pokeTx]
    rfl
  case adopt m w done r tx =>
    obtain rfl := surveyed w r rfl tx
    obtain ⟨q, hq, rung⟩ := h
    obtain rfl := Option.some.inj (tx.symm.trans hq)
    refine ⟨_, rfl, fun running => ⟨rfl, fun none => (rung running).trans ?_⟩⟩
    have ends : r.postingWalk.producer = r.producer.advance r.postingWalk.written :=
      producer_walk _ _ _ _
    rw [none, Counter.advance_zero] at ends
    exact congrArg _ ends.symm
  case ring m w =>
    obtain ⟨r, tx, rung⟩ := h
    refine ⟨r, (Machine.tx_record _ _).trans tx, fun running => ?_⟩
    rw [Machine.toScene_poke]
    exact (Adapter.read_write_self _ _ _).trans (congrArg _ (rung running).1.symm)
  case doubt c r tx =>
    obtain ⟨n, hn⟩ := exists_noteReading_eq r c
    exact h.adjust tx rfl rfl (by rw [hn]) (by rw [hn])
  case complete r r' tx next =>
    rcases takeDone?_eq_some_iff.mp next with ⟨rest, -, rfl⟩ | ⟨last, rest, -, -, rfl⟩ <;>
      exact h.adjust tx (Machine.tx_record _ _) (Machine.adapter_record _ _) rfl rfl
  case surrender r r' tx next =>
    rcases takeOldest?_eq_some_iff.mp next with ⟨e, rest, -, -, rfl⟩ | ⟨rest, -, -, rfl⟩ <;>
      exact h.adjust tx (Machine.tx_record _ _) (Machine.adapter_record _ _) rfl rfl
  case abandon r tx empty =>
    exact (h.goto rfl rfl fun _ _ => id).adjust (x := .idle) tx rfl rfl rfl rfl

end TxRung

end DescriptorRings
