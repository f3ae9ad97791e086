import DescriptorRings.Proofs.Machine.Entries
import DescriptorRings.Proofs.Transmit.Course
import DescriptorRings.Proofs.Transmit.Window

/-!
# What callbacks leave alone

While packets are handed back the upper layer may submit others.  A submission touches two fields of
the ring, the intake and the number of outstanding packets, and enters an event of its own; so the
loop that hands packets back finds everything else as it left it.  A callback may hold any number of
submissions, refused ones among them, moves of the adapter between them, and whatever has nothing to
do with the ring (`TxMeanwhile`).

A round of such a loop takes a packet out of the ring, counts it, and calls back.  What a round
comes to is written down here once, as the callback on a machine that is spelled out.
-/

namespace DescriptorRings

open Relation

variable {permits : Move → Prop} {m m' : Machine} {r : TxRing}

/-- Whether an event is one of those that a callback of the transmit ring enters. -/
def Event.isSending : Event → Bool
  | .accepted _ | .moved _ => true
  | e => e.isAside

namespace TxMeanwhile

theorem enters (h : TxMeanwhile permits m m') : m.Enters (fun e => e.isSending = true) m' := by
  cases h with
  | submit p =>
    unfold Machine.submit
    split
    · exact .refl _ m
    · have accepted : (Event.accepted p).isSending = true := rfl
      exact (Machine.Enters.modifyTx _ m _).trans (.of_journal_add (Machine.journal_record _ _) accepted)
  | turn => exact .turn (fun _ => rfl) m
  | move => exact .move (fun _ => rfl) m _
  | plan => exact .of_journal_eq _ rfl
  | elsewhere apart => exact .of_journal_eq _ apart.journal
  | @note e aside =>
    have sending : e.isSending = true := by
      cases e <;> first | exact aside | exact absurd aside Bool.false_ne_true
    exact .of_journal_add (Machine.journal_record m _) sending

/-- **A submission fills the intake and changes nothing else of the ring.** -/
theorem tx_eq (h : TxMeanwhile permits m m') (tx : m.tx = some r) :
    ∃ intake n, m'.tx = some { r with intake := intake, outstanding := n } := by
  cases h with
  | submit p =>
    rw [Machine.submit, tx, Option.bind_some]
    cases r.refusal? p with
    | some cause => exact ⟨r.intake, r.outstanding, tx⟩
    | none =>
      dsimp only
      rw [Machine.modifyTx_eq_setTx tx]
      exact ⟨_, _, Machine.tx_record (m.setTx (r.accept p)) (.accepted p)⟩
  | turn => exact ⟨r.intake, r.outstanding, m.tx_turn.trans tx⟩
  | move => exact ⟨r.intake, r.outstanding, (Machine.tx_move _ _).trans tx⟩
  | plan => exact ⟨r.intake, r.outstanding, tx⟩
  | elsewhere apart => exact ⟨r.intake, r.outstanding, apart.tx.trans tx⟩
  | note => exact ⟨r.intake, r.outstanding, (Machine.tx_record m _).trans tx⟩

end TxMeanwhile

namespace Served

variable {s : Served}

theorem tx_reply (abides : s.upper.Abides (TxMeanwhile permits)) (tx : s.machine.tx = some r) :
    ∃ intake n, s.reply.machine.tx = some { r with intake := intake, outstanding := n } := by
  have run := run_reply abides
  generalize s.reply.machine = m' at run ⊢
  induction run with
  | refl => exact ⟨r.intake, r.outstanding, tx⟩
  | tail _ act ih =>
    obtain ⟨intake, n, taken⟩ := ih
    obtain ⟨intake', n', taken'⟩ := act.tx_eq taken
    exact ⟨intake', n', taken'⟩

theorem enters_reply (abides : s.upper.Abides (TxMeanwhile permits)) :
    s.machine.Enters (fun e => e.isSending = true) s.reply.machine :=
  .of_run (fun _ _ => TxMeanwhile.enters) (run_reply abides)

theorem count_reply (s : Served) : s.reply.count = s.count := by
  unfold reply
  cases s.upper.replies <;> rfl

end Served

/-! ## Rounds -/

/-- A packet that was taken out is counted and handed back; its callback is to come. -/
def Served.settled (s : Served) (r : TxRing) (p : Packet) : Served :=
  ⟨s.count + 1, s.upper, (s.machine.setTx (r.settle p)).record (.completed p)⟩

namespace Served

variable {s : Served} {p : Packet}

theorem tx_settled (s : Served) (r : TxRing) (p : Packet) :
    (s.settled r p).machine.tx = some (r.settle p) :=
  Machine.tx_record _ _

theorem detail_settled (s : Served) (r : TxRing) (p : Packet) :
    (s.settled r p).machine.journal.detail = s.machine.journal.detail := by
  rw [settled, Machine.journal_record, Journal.detail_add]
  rfl

/-- **One packet is handed back**, and none by the callback. -/
theorem completed_reply_settled (abides : s.upper.Abides (TxMeanwhile permits))
    (complete : s.machine.journal.detail = .complete) (r : TxRing) (p : Packet) :
    (s.settled r p).reply.machine.journal.detail = .complete ∧
      (s.settled r p).reply.machine.journal.completed = s.machine.journal.completed ++ [p] := by
  have abides' : (s.settled r p).upper.Abides (TxMeanwhile permits) := abides
  have complete' := (detail_settled s r p).trans complete
  have entered := enters_reply abides'
  refine ⟨entered.detail.trans complete', ?_⟩
  rw [Journal.completed, entered.pick_eq complete' fun e he => ?_, settled, Machine.journal_record]
  · exact Journal.pick_add complete Event.completed? (.completed p)
  · cases e <;> first | rfl | exact absurd he Bool.false_ne_true

end Served

namespace Machine

variable {s : Served} {r' : TxRing} {p : Packet}

theorem completeDone_of_none {n : Nat} (tx : s.machine.tx = some r) (none : r.takeDone? n = none) :
    completeDone n s = (false, s) := by
  rw [completeDone, tx, Option.bind_some, none]

theorem completeDone_of_some {n : Nat} (tx : s.machine.tx = some r)
    (next : r.takeDone? n = some (p, r')) :
    completeDone n s = (true, (s.settled r' p).reply) := by
  rw [completeDone, tx, Option.bind_some, next]
  rfl

theorem completeOldest_of_none (tx : s.machine.tx = some r) (none : r.takeOldest? = none) :
    completeOldest s = (false, s) := by
  rw [completeOldest, tx, Option.bind_some, none]

theorem completeOldest_of_some (tx : s.machine.tx = some r)
    (next : r.takeOldest? = some (p, r')) :
    completeOldest s = (true, (s.settled r' p.ignore).reply) := by
  rw [completeOldest, tx, Option.bind_some, next]
  rfl

/-- **As many rounds as there are packets past the intake empty the ring**, and hand all of these
packets back, marked and in order. -/
theorem loop_completeOldest {rounds : Nat} (abides : s.upper.Abides (TxMeanwhile permits))
    (tx : s.machine.tx = some r) (enough : r.queue.length = rounds) :
    s.machine.Enters (fun e => e.isSending = true ∨ ∃ p, e = .completed (Packet.ignore p))
        (loop completeOldest rounds s).machine ∧
      (s.machine.journal.detail = .complete →
        (loop completeOldest rounds s).machine.journal.completed =
          s.machine.journal.completed ++ r.queue.map Packet.ignore) ∧
      ∃ q, (loop completeOldest rounds s).machine.tx = some q ∧ q.queue = [] ∧
        q.phase = r.phase := by
  induction rounds generalizing s r with
  | zero =>
    have empty : r.queue = [] := List.length_eq_zero_iff.mp enough
    refine ⟨.refl _ _, fun _ => ?_, r, tx, empty, rfl⟩
    rw [empty, List.map_nil, List.append_nil]
    rfl
  | succ rounds ih =>
    cases next : r.takeOldest? with
    | none =>
      rw [TxRing.queue_eq_nil_of_takeOldest? next] at enough
      exact absurd enough (Nat.succ_ne_zero rounds).symm
    | some taken =>
      obtain ⟨p, r'⟩ := taken
      have again := completeOldest_of_some tx next
      rw [loop_of_again (by rw [again]), again]
      have queue := TxRing.queue_of_takeOldest? next
      have phase : r'.phase = r.phase := by
        rcases TxRing.takeOldest?_eq_some_iff.mp next with
          ⟨e, rest, -, -, rfl⟩ | ⟨rest, -, -, rfl⟩ <;> rfl
      have abides' : (s.settled r' p.ignore).upper.Abides (TxMeanwhile permits) := abides
      obtain ⟨intake, n, tx'⟩ := Served.tx_reply abides' (s.tx_settled r' p.ignore)
      rw [queue, List.length_cons] at enough
      obtain ⟨entered, completed, q, tx'', empty, kept⟩ :=
        ih (Served.abides_reply abides') tx' (Nat.succ.inj enough)
      refine ⟨?_, fun complete => ?_, q, tx'', empty, kept.trans phase⟩
      · have handed : s.machine.Enters
            (fun e => e.isSending = true ∨ ∃ p, e = .completed (Packet.ignore p))
            (s.settled r' p.ignore).machine :=
          .of_journal_add (Machine.journal_record _ _) (Or.inr ⟨p, rfl⟩)
        have replied := (Served.enters_reply abides').mono (Q := fun e =>
          e.isSending = true ∨ ∃ p, e = .completed (Packet.ignore p)) fun e he => Or.inl he
        exact handed.trans (replied.trans entered)
      · obtain ⟨complete', first⟩ :=
          Served.completed_reply_settled abides complete r' p.ignore
        rw [completed complete', first, queue, List.map_cons, List.append_assoc]
        rfl

end Machine

end DescriptorRings
