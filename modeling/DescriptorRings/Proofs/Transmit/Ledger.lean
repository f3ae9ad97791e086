import DescriptorRings.Proofs.Machine.History
import DescriptorRings.Proofs.Transmit.Submission
import Mathlib.Data.List.Forall2

/-!
# Every packet comes back once, and in turn

A packet that was taken in is somewhere: it was handed back, it is past the intake, or it is in the
intake.  The *ledger* of a ring says so for all packets at once, by one equation of lists.  The
packets taken in, in the order in which that happened, are the packets handed back, in the order in
which *that* happened, and then the packets of the ring.  Nothing can be lost, doubled or overtaken
without breaking it.  The equation holds up to the mark of ignored packets, which is the one thing
about a packet that ever changes.

The other lines of the ledger are about numbers: `outstanding` is the number of packets in the ring
and stays within the depth, and what the statistics call completed or ignored is what was handed
back.  The last line is what makes it safe to submit in a callback: a packet that has just been
handed back has left room for another one.

The packets taken in are those of the journal.  Whoever submits knows them by the answers, and these
agree (`TxRun.gains`, `Machine.submission`).

Steps fall into three kinds.  Most enter something in the journal that the ledger does not look at
(`entered`), or rearrange packets inside the ring (`rearranged`).  One takes a packet in
(`accepted`) and two hand a packet back (`settled`).
-/

namespace DescriptorRings

open Relation

/-! ## What may become of a packet -/

namespace Packet

/-- The second packet is the first one, up to a mark that it may have been given. -/
structure Marked (p q : Packet) : Prop where
  /-- The cookie is kept. -/
  cookie : q.cookie = p.cookie
  /-- The fragments are kept. -/
  fragments : q.fragments = p.fragments
  /-- The mark is never taken away. -/
  ignored : p.ignored = true → q.ignored = true

theorem Marked.refl (p : Packet) : p.Marked p := ⟨rfl, rfl, id⟩

theorem Marked.trans {p q s : Packet} (h : p.Marked q) (h' : q.Marked s) : p.Marked s :=
  ⟨h'.cookie.trans h.cookie, h'.fragments.trans h.fragments, h'.ignored ∘ h.ignored⟩

theorem marked_ignore (p : Packet) : p.Marked p.ignore := ⟨rfl, rfl, fun _ => rfl⟩

theorem forall₂_marked_refl (ps : List Packet) : List.Forall₂ Marked ps ps :=
  List.forall₂_same.mpr fun p _ => Marked.refl p

theorem forall₂_marked_trans {ps qs ss : List Packet} (h : List.Forall₂ Marked ps qs)
    (h' : List.Forall₂ Marked qs ss) : List.Forall₂ Marked ps ss := by
  induction h generalizing ss with
  | nil => exact h'
  | cons head _ ih =>
    cases h' with
    | cons head' tail' => exact .cons (head.trans head') (ih tail')

theorem forall₂_marked_ignore (ps : List Packet) : List.Forall₂ Marked ps (ps.map ignore) :=
  List.forall₂_map_right_iff.mpr (List.forall₂_same.mpr fun p _ => marked_ignore p)

end Packet

/-! ## The ledger -/

/-- The journal accounts for the packets of the ring, and the ring for those of the journal. -/
structure TxLedger (j : Journal) (r : TxRing) : Prop where
  /-- **The packets taken in are those handed back, those past the intake and those in it.** -/
  order : List.Forall₂ Packet.Marked j.accepted (j.completed ++ (r.queue ++ r.intake.toList))
  /-- The counter of outstanding packets is right. -/
  outstanding : r.outstanding = r.queue.length + r.intake.size
  /-- There are never more of them than the depth of the ring. -/
  bounded : r.outstanding ≤ r.depth
  /-- The statistics count the packets handed back. -/
  counted : r.stats.completed + r.stats.ignored = j.completed.length
  /-- A packet handed back leaves room for another one. -/
  room : j.AfterCompletion → r.outstanding < r.depth

namespace TxLedger

variable {j : Journal} {r r' : TxRing}

theorem packets_length (r : TxRing) : r.packets.length = r.queue.length + r.intake.size := by
  rw [TxRing.packets, List.length_append]
  rfl

/-- Other events than those about packets are none of the ledger's business. -/
theorem entered (h : TxLedger j r) (complete : j.detail = .complete) {e : Event}
    (ha : e.accepted? = none) (hc : e.completed? = none) : TxLedger (j.add e) r := by
  have accepted : (j.add e).accepted = j.accepted := Journal.pick_add_of_none complete ha
  have completed : (j.add e).completed = j.completed := Journal.pick_add_of_none complete hc
  refine ⟨?_, h.outstanding, h.bounded, ?_, fun after => h.room (after.of_add complete hc)⟩
  · rw [accepted, completed]
    exact h.order
  · rw [completed]
    exact h.counted

/-- A ring may rearrange its packets, and mark them. -/
theorem rearranged (h : TxLedger j r) (packets : List.Forall₂ Packet.Marked r.packets r'.packets)
    (outstanding : r'.outstanding = r.outstanding) (depth : r'.depth = r.depth)
    (stats : r'.stats.completed + r'.stats.ignored = r.stats.completed + r.stats.ignored) :
    TxLedger j r' := by
  refine ⟨?_, ?_, ?_, stats.trans h.counted, ?_⟩
  · exact Packet.forall₂_marked_trans h.order
      (List.rel_append (Packet.forall₂_marked_refl _) packets)
  · rw [outstanding, h.outstanding, ← packets_length, ← packets_length, packets.length_eq]
  · rw [outstanding, depth]
    exact h.bounded
  · rw [outstanding, depth]
    exact h.room

/-- A packet that is taken in is the latest of all. -/
theorem accepted (h : TxLedger j r) (complete : j.detail = .complete) {p : Packet}
    (free : r.refusal? p = none) : TxLedger (j.add (.accepted p)) (r.accept p) := by
  have room : r.outstanding < r.depth := (TxRing.refusal?_eq_none_iff.mp free).2.2
  have accepted : (j.add (.accepted p)).accepted = j.accepted ++ [p] :=
    Journal.pick_add complete _ _
  have completed : (j.add (.accepted p)).completed = j.completed :=
    Journal.pick_add_of_none complete rfl
  refine ⟨?_, ?_, room, ?_, ?_⟩
  · have packets : (r.accept p).packets = r.packets ++ [p] := TxRing.packets_accept r p
    rw [accepted, completed, ← TxRing.packets, packets, ← List.append_assoc]
    exact List.rel_append h.order (Packet.forall₂_marked_refl [p])
  · have outstanding := h.outstanding
    simp only [TxRing.accept, TxRing.queue, Array.size_push] at outstanding ⊢
    omega
  · rw [completed]
    exact h.counted
  · exact fun after => absurd after (Journal.not_afterCompletion_add_accepted complete p)

/-- A packet that is handed back is the earliest of those in the ring. -/
theorem settled (h : TxLedger j r) (complete : j.detail = .complete) {p q : Packet}
    (mark : p.Marked q) (packets : r.packets = p :: r'.packets)
    (outstanding : r'.outstanding = r.outstanding) (depth : r'.depth = r.depth)
    (stats : r'.stats = r.stats) : TxLedger (j.add (.completed q)) (r'.settle q) := by
  have accepted : (j.add (.completed q)).accepted = j.accepted :=
    Journal.pick_add_of_none complete rfl
  have completed : (j.add (.completed q)).completed = j.completed ++ [q] :=
    Journal.pick_add complete _ _
  have taken : r.outstanding = r'.queue.length + r'.intake.size + 1 := by
    rw [h.outstanding, ← packets_length, packets, List.length_cons, packets_length]
  have settled : (r'.settle q).outstanding = r.outstanding - 1 := by
    rw [TxRing.settle, outstanding]
  have bounded := h.bounded
  have order : List.Forall₂ Packet.Marked (p :: r'.packets) (q :: r'.packets) :=
    .cons mark (Packet.forall₂_marked_refl _)
  refine ⟨?_, ?_, ?_, ?_, fun _ => ?_⟩
  · rw [accepted, completed, List.append_assoc, List.singleton_append]
    refine Packet.forall₂_marked_trans h.order
      (List.rel_append (Packet.forall₂_marked_refl j.completed) ?_)
    rw [← TxRing.packets, packets]
    exact order
  · rw [settled, taken]
    rfl
  · rw [settled, TxRing.settle, depth]
    omega
  · have counted : (r'.settle q).stats.completed + (r'.settle q).stats.ignored =
        r'.stats.completed + r'.stats.ignored + 1 := by
      unfold TxRing.settle
      cases q.ignored
      · exact Nat.succ_add _ _
      · rfl
    rw [counted, stats, h.counted, completed, List.length_append, List.length_singleton]
  · rw [settled, TxRing.settle, depth]
    omega

end TxLedger

/-! ## Every step keeps the ledger -/

/-- There is a transmit ring of the given size and depth, and its ledger is in order. -/
def Scene.TxBooked (slots depth : Nat) (s : Scene) : Prop :=
  ∃ r, s.tx = some r ∧ r.size.slots = slots ∧ r.depth = depth ∧ TxLedger s.journal r

/-- The books of a machine that keeps a complete journal. -/
structure TxKept (slots depth : Nat) (m : Machine) : Prop where
  /-- Every event is kept. -/
  complete : m.journal.detail = .complete
  /-- The ledger is in order. -/
  booked : m.toScene.TxBooked slots depth

namespace TxKept

variable {permits : Move → Prop} {slots depth : Nat} {m m' : Machine} {r r' : TxRing}

theorem ledger (h : TxKept slots depth m) (tx : m.tx = some r) :
    r.size.slots = slots ∧ r.depth = depth ∧ TxLedger m.journal r := by
  obtain ⟨q, hq, rest⟩ := h.booked
  obtain rfl := Option.some.inj (tx.symm.trans hq)
  exact rest

theorem entered (h : TxKept slots depth m) {e : Event} (tx : m'.tx = m.tx)
    (journal : m'.journal = m.journal.add e) (ha : e.accepted? = none) (hc : e.completed? = none) :
    TxKept slots depth m' := by
  obtain ⟨r, hr, hs, hd, ledger⟩ := h.booked
  refine ⟨?_, r, tx.trans hr, hs, hd, ?_⟩
  · rw [journal, Journal.detail_add]
    exact h.complete
  · rw [journal]
    exact ledger.entered h.complete ha hc

theorem apart (h : TxKept slots depth m) (apart : TxApart m m') : TxKept slots depth m' := by
  obtain ⟨r, hr, hs, hd, ledger⟩ := h.booked
  refine ⟨?_, r, apart.tx.trans hr, hs, hd, ?_⟩
  · rw [apart.journal]
    exact h.complete
  · rw [apart.journal]
    exact ledger

theorem rearranged (h : TxKept slots depth m) (tx : m.tx = some r) (size : r'.size = r.size)
    (packets : List.Forall₂ Packet.Marked r.packets r'.packets)
    (outstanding : r'.outstanding = r.outstanding) (depth_eq : r'.depth = r.depth)
    (stats : r'.stats.completed + r'.stats.ignored = r.stats.completed + r.stats.ignored) :
    TxKept slots depth (m.setTx r') := by
  obtain ⟨hs, hd, ledger⟩ := h.ledger tx
  refine ⟨h.complete, r', rfl, ?_, depth_eq.trans hd, ?_⟩
  · rw [size]
    exact hs
  · exact ledger.rearranged packets outstanding depth_eq stats

theorem accepted (h : TxKept slots depth m) (tx : m.tx = some r) {p : Packet}
    (free : r.refusal? p = none) :
    TxKept slots depth ((m.setTx (r.accept p)).record (.accepted p)) := by
  obtain ⟨hs, hd, ledger⟩ := h.ledger tx
  refine ⟨?_, r.accept p, Machine.tx_record _ _, hs, hd, ?_⟩
  · rw [Machine.toScene_record]
    exact (Journal.detail_add _ _).trans h.complete
  · rw [Machine.toScene_record]
    exact ledger.accepted h.complete free

theorem settled (h : TxKept slots depth m) (tx : m.tx = some r) {p q : Packet} (mark : p.Marked q)
    (packets : r.packets = p :: r'.packets) (size : r'.size = r.size)
    (outstanding : r'.outstanding = r.outstanding) (depth_eq : r'.depth = r.depth)
    (stats : r'.stats = r.stats) :
    TxKept slots depth ((m.setTx (r'.settle q)).record (.completed q)) := by
  obtain ⟨hs, hd, ledger⟩ := h.ledger tx
  refine ⟨?_, r'.settle q, Machine.tx_record _ _, ?_, depth_eq.trans hd, ?_⟩
  · rw [Machine.toScene_record]
    exact (Journal.detail_add _ _).trans h.complete
  · rw [TxRing.settle, size]
    exact hs
  · rw [Machine.toScene_record]
    exact ledger.settled h.complete mark packets outstanding depth_eq stats

/-- **No step loses, doubles or reorders a packet.** -/
theorem step (c c' : TxPoint × Machine) (step : TxStep permits c c') (surveyed : Surveyed c)
    (h : TxKept slots depth c.2) : TxKept slots depth c'.2 := by
  cases step
  case plan => exact ⟨h.complete, h.booked⟩
  case survey | written | quiet | stop | drain => exact h
  case move => exact h.entered (Machine.tx_move _ _) (Machine.journal_move _ _) rfl rfl
  case elsewhere apart => exact h.apart apart
  case note e aside =>
    refine h.entered (Machine.tx_record _ _) (Machine.journal_record _ _) ?_ ?_
    · cases e <;> first | rfl | exact absurd aside Bool.false_ne_true
    · cases e <;> first | rfl | exact absurd aside Bool.false_ne_true
  case look | announce | read | align | switchOn | switchOff | ring | write =>
    exact h.entered (Machine.tx_record _ _) (Machine.journal_record _ _) rfl rfl
  case accept tx free => exact h.accepted tx free
  case place tx | abandon tx _ =>
    exact h.rearranged tx rfl (Packet.forall₂_marked_refl _) rfl rfl rfl
  case mark r tx =>
    refine h.rearranged tx rfl ?_ rfl rfl rfl
    rw [TxRing.packets, TxRing.packets, TxRing.queue_cancel]
    exact List.rel_append (Packet.forall₂_marked_ignore _) (Packet.forall₂_marked_refl _)
  case collect r tx =>
    refine h.rearranged tx rfl ?_ rfl rfl rfl
    rw [TxRing.packets_collect]
    exact Packet.forall₂_marked_refl _
  case adopt m w done r tx =>
    obtain rfl := surveyed w r rfl tx
    refine h.rearranged tx rfl ?_ rfl rfl rfl
    rw [TxRing.packets_afterWalk]
    exact Packet.forall₂_marked_refl _
  case doubt c r tx =>
    obtain ⟨n, hn⟩ := TxRing.exists_noteReading_eq r c
    refine h.rearranged tx (by rw [hn]) ?_ (by rw [hn]) (by rw [hn]) (by rw [hn])
    rw [TxRing.packets_noteReading]
    exact Packet.forall₂_marked_refl _
  case complete tx next =>
    have packets := TxRing.packets_of_takeDone? next
    rcases TxRing.takeDone?_eq_some_iff.mp next with ⟨rest, -, rfl⟩ | ⟨last, rest, -, -, rfl⟩ <;>
      exact h.settled tx (Packet.Marked.refl _) packets rfl rfl rfl rfl
  case surrender tx next =>
    have packets := TxRing.packets_of_takeOldest? next
    rcases TxRing.takeOldest?_eq_some_iff.mp next with ⟨e, rest, -, -, rfl⟩ | ⟨rest, -, -, rfl⟩ <;>
      exact h.settled tx (Packet.marked_ignore _) packets rfl rfl rfl rfl

end TxKept

/-! ## Runs of requests -/

/-- The ledger of a new ring is in order, if no packet has come or gone so far. -/
theorem TxLedger.create {slots depth : Nat} {j : Journal} {r : TxRing} (accepted : j.accepted = [])
    (completed : j.completed = []) (made : TxRing.create slots depth = .ok r) :
    r.size.slots = slots ∧ r.depth = depth ∧ TxLedger j r := by
  obtain ⟨size, hs, rfl⟩ := TxRing.create_eq_ok made
  refine ⟨hs, rfl, ?_, rfl, Nat.zero_le depth, ?_, ?_⟩
  · rw [accepted, completed]
    exact .nil
  · rw [completed]
    rfl
  · rintro ⟨before, p, later, split, -⟩
    have handed : p ∈ j.completed := by
      rw [Journal.completed, Journal.pick, split, List.filterMap_append]
      exact List.mem_append_right _ List.mem_cons_self
    rw [completed] at handed
    exact absurd handed List.not_mem_nil

theorem Journal.pick_of_fresh {α : Type} {j : Journal} (fresh : j.events = #[])
    (f : Event → Option α) : j.pick f = [] := by
  rw [pick, fresh]
  rfl

/-- A new ring is ready, its books are in order, and no walk is being carried out. -/
theorem Machine.NewTx.begins {permits : Move → Prop} {slots depth : Nat} {m : Machine}
    (new : m.NewTx slots depth) (planned : Machine.Permitted permits m.agenda) :
    ∃ size : RingSize, size.slots = slots ∧ TxReady permits size depth m ∧ Surveyed (.idle, m) ∧
      TxKept slots depth m := by
  obtain ⟨r, made, tx⟩ := new.made
  obtain ⟨hs, hd, ledger⟩ := TxLedger.create (Journal.pick_of_fresh new.fresh _)
    (Journal.pick_of_fresh new.fresh _) made
  refine ⟨r.size, hs, ⟨⟨r, tx, rfl, hd⟩, planned⟩, ?_, new.complete, r, tx, hs, hd, ledger⟩
  exact fun w q h => absurd h (Option.some_ne_none w).symm

/-- **Exactly once, and in turn.**  However a new ring is used, the packets taken in are those whose
submission was answered well, in the same order; and a submission, whenever it is made, is answered
well just if the ring takes its packet in and the journal gains just that.  The ledger of the ring is
in order at every moment, in the callbacks as well, whatever the adapter answers.  In a callback on
the completion of a packet, the first packet submitted is taken in if it can be posted at all. -/
theorem packets_complete_once_in_order {slots depth : Nat} {m₀ m : Machine} {told : List Packet}
    (new : m₀.NewTx slots depth) (run : TxRun (fun _ => True) m₀ told m) :
    m.journal.accepted = told ∧
      (∀ (k : Machine) (r : TxRing) (p : Packet), k.tx = some r →
        k.journal.detail = .complete → k.Submission r p) ∧
      m.Throughout fun s =>
        s.TxBooked slots depth ∧
          (s.journal.AfterCompletion → ∀ p : Packet, 0 < p.fragmentCount →
            p.fragmentCount ≤ slots - 1 →
              ∀ k : Machine, k.toScene = s → (k.submit p).1 = .ok ()) := by
  refine ⟨?_, fun k r p tx complete => k.submission tx complete p, ?_⟩
  · rw [run.gains.accepted new.complete, Journal.accepted, Journal.pick_of_fresh new.fresh]
    rfl
  obtain ⟨r, made, tx⟩ := new.made
  obtain ⟨hs, hd, ledger⟩ := TxLedger.create (Journal.pick_of_fresh new.fresh _)
    (Journal.pick_of_fresh new.fresh _) made
  have ready : TxReady (fun _ => True) r.size depth m₀ :=
    ⟨⟨r, tx, rfl, hd⟩, fun _ _ _ _ => trivial⟩
  have start : Surveyed (.idle, m₀) ∧ TxKept slots depth m₀ :=
    ⟨fun w q h => absurd h (Option.some_ne_none w).symm, new.complete, r, tx, hs, hd, ledger⟩
  refine Machine.throughout_of_steps (fun c => Surveyed c ∧ TxKept slots depth c.2)
    (fun c c' step h => ⟨step.surveyed c c' h.1, TxKept.step c c' step h.1 h.2⟩) TxStep.remembers ?_
    (steps_of_requests run.requests ready) start new.moments
  rintro ⟨x, k⟩ ⟨-, kept⟩
  refine ⟨kept.booked, fun after p some fits k' same => ?_⟩
  obtain ⟨q, hq, hqs, hqd, ledger⟩ := kept.booked
  have tx' : k'.tx = Option.some q := by rw [same]; exact hq
  have room := ledger.room after
  have free : q.refusal? p = none := by
    refine TxRing.refusal?_eq_none_iff.mpr ⟨some, ?_, room⟩
    rw [TxRing.capacity, RingSize.capacity, hqs]
    exact fits
  rw [Machine.submit, tx', Option.bind_some, free]

/-- One packet may be outstanding, and a second one is refused.  The first one is answered by another
in its callback. -/
theorem packets_complete_once_in_order_echo :
    ∃ told m, TxRun (fun _ => True) (.withTx ⟨4, by decide⟩ 1) told m ∧
      told.map Packet.cookie = [1, 2] ∧
      m.journal.completed.map Packet.cookie = [1] ∧
      m.journal.accepted = told ∧
      (∀ (k : Machine) (r : TxRing) (p : Packet), k.tx = some r →
        k.journal.detail = .complete → k.Submission r p) ∧
      m.Throughout fun s =>
        s.TxBooked 4 1 ∧
          (s.journal.AfterCompletion → ∀ p : Packet, 0 < p.fragmentCount →
            p.fragmentCount ≤ 4 - 1 → ∀ k : Machine, k.toScene = s → (k.submit p).1 = .ok ()) := by
  let p : Packet := .single 1 ⟨.ofNat 0x1000, 64⟩
  let q : Packet := .single 2 ⟨.ofNat 0x2000, 64⟩
  let echo : Upper := { replies := [fun m => (m.submit q).2] }
  have abides : echo.Abides (Sending fun _ => True) := by
    intro reply h m
    obtain rfl := List.mem_singleton.mp h
    exact .single (.submit m q)
  have requests : ReflTransGen (TxRequest fun _ => True) (.withTx ⟨4, by decide⟩ 1) _ :=
    ReflTransGen.refl
      |>.tail (.sending (.submit _ p))
      |>.tail (.sending (.submit _ q))
      |>.tail (.start _)
      |>.tail (.advance _ (Upper.abides_silent _))
      |>.tail (.sending (@Sending.move _ _ (.consume 1) trivial))
      |>.tail (.advance _ abides)
  obtain ⟨told, run⟩ := exists_txRun requests
  have claim := packets_complete_once_in_order (Machine.newTx_withTx ⟨4, by decide⟩ 1) run
  exact ⟨told, _, run, claim.1 ▸ by decide, by decide, claim⟩

end DescriptorRings
