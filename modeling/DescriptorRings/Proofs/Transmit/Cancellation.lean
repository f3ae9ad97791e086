import DescriptorRings.Proofs.Transmit.Guard

/-!
# What cancellation reaches

Cancelling a ring switches its direction off and marks the packets past the intake.  A packet that
still lies in the intake is not marked then.  It is when a cancelled ring is served: the intake is
collected, and everything is handed back marked.  But a cancelled ring may also be started, and what
the intake holds at that moment runs on as if nothing had been cancelled
(`intake_survives_cancellation`).

So cancellation reaches a packet that leaves the intake before the next start, and this file proves
that it reaches it for good (`cancelled_packets_are_withdrawn`): whatever is done with the ring
afterwards, the packet is never announced for posting again, none of its descriptors is written, and
if it is handed back it is marked.

## Two phases

While the ring stays cancelled no step of a posting walk is made, and the argument is about requests
as wholes (`Paused`).  From the next start on everything may happen, and the argument is about steps
(`Withdrawn`).  Packets have numbers, their places among those taken in; the packets up to some
number are withdrawn, and those posted later are among the ones after it.  To see that, one follows
the *prospects*: the packets in the ring that may still be posted, which are the unmarked ones that
no walk has announced.
-/

namespace DescriptorRings

open Relation List TxRing

variable {permits : Move → Prop} {m m' : Machine} {r r' : TxRing}

/-! ## A cancelled ring that is not started -/

/-- A request to the transmit ring other than a start, or something between two of them. -/
inductive TxPause (permits : Move → Prop) : Machine → Machine → Prop
  /-- The ring is cancelled once more. -/
  | cancel (m : Machine) : TxPause permits m m.cancelTx
  /-- The ring is served. -/
  | advance (m : Machine) {u : Upper} (h : u.Abides (Sending permits)) :
      TxPause permits m (m.advanceTx u).machine
  /-- Something of the things that may also happen in a callback. -/
  | sending {m m' : Machine} (h : Sending permits m m') : TxPause permits m m'
  /-- The adapter changes its plans. -/
  | plan (m : Machine) {agenda : List (List Move)} (h : Machine.Permitted permits agenda) :
      TxPause permits m { m with agenda := agenda }

theorem TxPause.request (h : TxPause permits m m') : TxRequest permits m m' := by
  cases h with
  | cancel => exact .cancel m
  | advance h => exact .advance m h
  | sending h => exact .sending h
  | plan h => exact .plan m h

/-- An event that neither transmits a packet nor hands one back unmarked. -/
structure Event.Void (e : Event) : Prop where
  /-- No packet is announced. -/
  posting : e.posting? = none
  /-- No descriptor is written. -/
  wroteTx : e.wroteTx? = none
  /-- A packet that is handed back is marked. -/
  completed : ∀ p, e.completed? = some p → p.ignored = true

theorem Event.void_of_isSending {e : Event} (h : e.isSending = true) : e.Void := by
  cases e <;> first
    | exact ⟨rfl, rfl, fun p hp => absurd hp (Option.some_ne_none p).symm⟩
    | exact absurd h Bool.false_ne_true

theorem Event.void_completed (p : Packet) : (Event.completed p.ignore).Void := by
  refine ⟨rfl, rfl, fun q hq => ?_⟩
  obtain rfl := Option.some.inj hq
  rfl

/-- The ring of a machine is cancelled, and nothing was transmitted since an earlier machine. -/
structure Paused (k m : Machine) : Prop where
  /-- Nothing was transmitted, and nothing handed back unmarked. -/
  entered : k.Enters Event.Void m
  /-- The ring is cancelled. -/
  ring : ∃ r, m.tx = some r ∧ r.phase = .cancelled ∧ ∀ p ∈ r.queue, p.ignored = true

theorem void_moved (mv : Move) : (Event.moved mv).Void :=
  ⟨rfl, rfl, fun p hp => absurd hp (Option.some_ne_none p).symm⟩

theorem void_noticed (n : Notice) : (Event.noticed n).Void :=
  ⟨rfl, rfl, fun p hp => absurd hp (Option.some_ne_none p).symm⟩

/-- Cancelling a ring pauses it. -/
theorem Paused.begin (tx : m.tx = some r) (live : r.phase ≠ .cancelled) : Paused m m.cancelTx := by
  have idle : ¬(m.tx.any isCancelled) = true := by
    rw [tx]
    exact fun cancelled => live (eq_of_beq cancelled)
  have off : Event.Void (.wrote .txDmaControl DmaControl.off) :=
    ⟨rfl, rfl, fun p hp => absurd hp (Option.some_ne_none p).symm⟩
  have tx' : (m.write .txDmaControl DmaControl.off).tx = some r := (Machine.tx_write _ _ _).trans tx
  unfold Machine.cancelTx
  rw [if_neg idle]
  dsimp only
  rw [Machine.modifyTx_eq_setTx tx']
  refine ⟨?_, r.cancel, (Machine.tx_give _ _).trans rfl, rfl, fun p hp => ?_⟩
  · have silenced : m.Enters Event.Void (m.write .txDmaControl DmaControl.off) :=
      .write void_moved off m
    exact silenced.trans ((Machine.Enters.setTx _ _ _).trans (.give void_noticed _ _))
  · rw [queue_cancel] at hp
    obtain ⟨q, -, rfl⟩ := mem_map.mp hp
    rfl

/-- A ring that is cancelled is not cancelled again. -/
theorem cancelTx_of_cancelled (tx : m.tx = some r) (cancelled : r.phase = .cancelled) :
    m.cancelTx = m := by
  unfold Machine.cancelTx
  rw [tx, if_pos]
  show (r.phase == .cancelled) = true
  rw [cancelled]
  rfl

/-- **Serving a cancelled ring hands everything back**, marked and in order, and does nothing
else. -/
theorem advanceTx_of_cancelled {u : Upper} (abides : u.Abides (TxMeanwhile permits))
    (tx : m.tx = some r) (cancelled : r.phase = .cancelled) :
    m.Enters (fun e => e.isSending = true ∨ ∃ p, e = .completed (Packet.ignore p))
        (m.advanceTx u).machine ∧
      (m.journal.detail = .complete →
        (m.advanceTx u).machine.journal.completed =
          m.journal.completed ++ r.packets.map Packet.ignore) ∧
      ∃ q, (m.advanceTx u).machine.tx = some q ∧ q.queue = [] ∧ q.phase = .cancelled ∧
        q.inFlight = 0 := by
  set s : Served := .start u (m.modifyTx collect) with hs
  have tx' : s.machine.tx = some r.collect := by
    show (m.modifyTx collect).tx = _
    rw [Machine.modifyTx_eq_setTx tx]
    rfl
  obtain ⟨entered, completed, q, tx'', empty, phase⟩ :=
    Machine.loop_completeOldest (s := s) abides tx' rfl
  have served : (m.advanceTx u).machine =
      (loop Machine.completeOldest r.collect.queue.length s).machine.modifyTx abandon := by
    unfold Machine.advanceTx
    rw [tx]
    dsimp only
    rw [cancelled]
    dsimp only
    unfold Machine.drainTx
    rw [← hs, tx']
    rfl
  rw [served]
  have clear : q.abandon.inFlight = 0 := by
    have none := Counter.distance_advance q.producer q.size q.size.pos
    rwa [Counter.advance_zero] at none
  refine ⟨?_, fun complete => ?_, q.abandon, ?_, empty, phase.trans cancelled, clear⟩
  · have collected := Machine.Enters.modifyTx
      (fun e => e.isSending = true ∨ ∃ p, e = .completed (Packet.ignore p)) m collect
    exact collected.trans (entered.trans (.modifyTx _ _ _))
  · have all : r.collect.queue = r.packets := by
      rw [queue, packets, queue, collect, append_assoc]
    rw [← all]
    exact completed complete
  · rw [Machine.modifyTx_eq_setTx tx'']
    rfl

theorem Paused.step {k : Machine} (h : Paused k m) (step : TxPause permits m m') :
    Paused k m' := by
  obtain ⟨r, tx, cancelled, marked⟩ := h.ring
  cases step with
  | cancel =>
    rw [cancelTx_of_cancelled tx cancelled]
    exact h
  | advance abides =>
    obtain ⟨handed, -, q, tx', empty, phase, -⟩ := advanceTx_of_cancelled abides.meanwhile tx cancelled
    have void := handed.mono (Q := Event.Void) fun e he => by
      rcases he with sending | ⟨p, rfl⟩
      · exact Event.void_of_isSending sending
      · exact Event.void_completed p
    refine ⟨h.entered.trans void, q, tx', phase, fun p hp => ?_⟩
    rw [empty] at hp
    exact absurd hp not_mem_nil
  | sending act =>
    obtain ⟨intake, n, tx'⟩ := act.meanwhile.tx_eq tx
    exact ⟨h.entered.trans (act.meanwhile.enters.mono fun e => Event.void_of_isSending), _, tx', cancelled,
      marked⟩
  | plan => exact ⟨h.entered.trans (.of_journal_eq _ rfl), r, tx, cancelled, marked⟩

theorem Paused.run {k : Machine} (h : Paused k m) (run : ReflTransGen (TxPause permits) m m') :
    Paused k m' := by
  induction run with
  | refl => exact h
  | tail _ step ih => exact ih.step step

/-! ## What may still be posted -/

/-- The packets that may still be posted: those of a walk that are not announced yet, and the
unmarked ones that no walk has reached. -/
def TxPoint.prospects (x : TxPoint) (r : TxRing) : List Packet :=
  x.todo.map TxPost.packet ++
    ((((x.walk?.map Walk.waiting).getD r.waiting) ++ r.intake.toList).filter fun p => !p.ignored)

theorem TxPoint.prospects_of_no_walk {x : TxPoint} (h : x.walk? = none) (r : TxRing) :
    x.prospects r = (r.waiting ++ r.intake.toList).filter fun p => !p.ignored := by
  cases x <;> first | rfl | exact absurd h (Option.some_ne_none _)

/-- A posting walk posts the unmarked packets that it passes. -/
theorem filter_walk (size : RingSize) (reclaim : Counter) (ps : List Packet) (producer : Counter) :
    ps.filter (fun p => !p.ignored) =
      (walk size reclaim ps producer).posts.map TxPost.packet ++
        (walk size reclaim ps producer).waiting.filter fun p => !p.ignored := by
  induction ps generalizing producer with
  | nil => rfl
  | cons p ps ih =>
    unfold walk
    by_cases ignored : p.ignored = true
    · rw [if_pos ignored, filter_cons_of_neg (by rw [ignored]; decide)]
      exact ih producer
    · rw [if_neg ignored]
      have unmarked : (!p.ignored) = true := by rw [Bool.eq_false_iff.mpr ignored]; rfl
      dsimp only
      split
      · rfl
      · rw [filter_cons, if_pos unmarked]
        exact congrArg (p :: ·) (ih _)

/-- A posting walk that begins leaves the prospects as they are. -/
theorem TxPoint.prospects_postingWalk (r : TxRing) :
    TxPoint.prospects (.walking r.postingWalk [] r.postingWalk.posts) r =
      TxPoint.prospects .idle r := by
  rw [prospects_of_no_walk (x := .idle) rfl, filter_append,
    filter_walk r.size r.reclaim r.waiting r.producer, append_assoc, ← filter_append]
  rfl

/-- After a cancellation only the intake may still be posted. -/
theorem TxPoint.prospects_cancel (r : TxRing) {x y : TxPoint} (hx : x.walk? = none)
    (hy : y.walk? = none) : y.prospects r.cancel <+ x.prospects r := by
  rw [prospects_of_no_walk hx, prospects_of_no_walk hy, filter_append, filter_append]
  have none : (r.cancel.waiting.filter fun p => !p.ignored) = [] := by
    refine filter_eq_nil_iff.mpr fun p hp => ?_
    obtain ⟨p', -, rfl⟩ := mem_map.mp hp
    exact Bool.false_ne_true
  rw [none]
  exact sublist_append_right _ _

/-- Among packets that were marked or not, those without a mark are as they were. -/
theorem filter_sublist_of_marked {ps qs : List Packet} (h : Forall₂ Packet.Marked ps qs) :
    (qs.filter fun q => !q.ignored) <+ ps := by
  induction h with
  | nil => exact .slnil
  | @cons p q ps qs marked _ ih =>
    by_cases ignored : q.ignored = true
    · rw [filter_cons_of_neg (by rw [ignored]; decide)]
      exact ih.cons p
    · have same : p = q := by
        have unmarked : p.ignored = q.ignored := by
          rw [Bool.eq_false_iff.mpr ignored]
          exact Bool.eq_false_iff.mpr fun h => ignored (marked.ignored h)
        cases p
        cases q
        exact congr (congr (congrArg Packet.mk marked.cookie.symm) marked.fragments.symm) unmarked
      rw [filter_cons_of_pos (by rw [Bool.eq_false_iff.mpr ignored]; rfl), same]
      exact ih.cons_cons q

/-- A packet keeps its number when it is marked. -/
theorem getElem?_of_marked {ps qs : List Packet} (h : Forall₂ Packet.Marked ps qs) {k : Nat}
    {p : Packet} (hp : ps[k]? = some p) : ∃ q, qs[k]? = some q ∧ p.Marked q := by
  induction h generalizing k with
  | nil => exact absurd hp (Option.some_ne_none p).symm
  | @cons p' q ps qs marked _ ih =>
    cases k with
    | zero =>
      obtain rfl := Option.some.inj hp
      exact ⟨q, rfl, marked⟩
    | succ k => exact ih hp

/-! ## Withdrawn packets -/

/-- The packets with numbers from `first` up to `past` are withdrawn.  The posts `old` were announced
before that. -/
structure Withdrawn (first past : Nat) (old : List TxPost) (x : TxPoint) (m : Machine) (r : TxRing) :
    Prop where
  /-- The ring in question. -/
  tx : m.tx = some r
  /-- Every event is kept. -/
  complete : m.journal.detail = .complete
  /-- They are marked, wherever they are. -/
  marked : ∀ k, first ≤ k → k < past →
    ∃ p, (m.journal.completed ++ r.packets)[k]? = some p ∧ p.ignored = true
  /-- They were taken in. -/
  within : past ≤ m.journal.accepted.length
  /-- What was announced since, and what may still be, was taken in after them. -/
  later : ∃ new, m.journal.announced = old ++ new ∧
    new.map TxPost.packet ++ x.prospects r <+ m.journal.accepted.drop past

namespace Withdrawn

variable {first past : Nat} {old : List TxPost} {x x' : TxPoint}

/-- Something happens that is no concern of packets. -/
theorem entered (h : Withdrawn first past old x m r) (tx : m'.tx = m.tx) {e : Event}
    (journal : m'.journal = m.journal.add e) (ha : e.accepted? = none) (hc : e.completed? = none)
    (hp : e.posting? = none) (fewer : x'.prospects r <+ x.prospects r) :
    Withdrawn first past old x' m' r := by
  have accepted : m'.journal.accepted = m.journal.accepted := by
    rw [journal]
    exact Journal.pick_add_of_none h.complete ha
  have completed : m'.journal.completed = m.journal.completed := by
    rw [journal]
    exact Journal.pick_add_of_none h.complete hc
  have announced : m'.journal.announced = m.journal.announced := by
    rw [journal]
    exact Journal.pick_add_of_none h.complete hp
  obtain ⟨new, hnew, later⟩ := h.later
  refine ⟨tx.trans h.tx, ?_, ?_, ?_, new, announced.trans hnew, ?_⟩
  · rw [journal, Journal.detail_add]
    exact h.complete
  · rw [completed]
    exact h.marked
  · rw [accepted]
    exact h.within
  · rw [accepted]
    exact (fewer.append_left _).trans later

theorem apart (h : Withdrawn first past old x m r) (apart : TxApart m m') :
    Withdrawn first past old x m' r := by
  refine ⟨apart.tx.trans h.tx, ?_, ?_, ?_, ?_⟩
  all_goals rw [apart.journal]
  · exact h.complete
  · exact h.marked
  · exact h.within
  · exact h.later

/-- The ring rearranges its packets, or marks them. -/
theorem rearranged (h : Withdrawn first past old x m r)
    (packets : Forall₂ Packet.Marked r.packets r'.packets)
    (fewer : x'.prospects r' <+ x.prospects r) :
    Withdrawn first past old x' (m.setTx r') r' := by
  obtain ⟨new, hnew, later⟩ := h.later
  refine ⟨rfl, h.complete, fun k lower upper => ?_, h.within, new, hnew,
    (fewer.append_left _).trans later⟩
  obtain ⟨p, hp, ignored⟩ := h.marked k lower upper
  have all := rel_append (Packet.forall₂_marked_refl m.journal.completed) packets
  obtain ⟨q, hq, marked⟩ := getElem?_of_marked all hp
  exact ⟨q, hq, marked.ignored ignored⟩

/-- A packet that is taken in now comes after the withdrawn ones. -/
theorem accepted (h : Withdrawn first past old x m r) (p : Packet) :
    Withdrawn first past old x ((m.setTx (r.accept p)).record (.accepted p)) (r.accept p) := by
  obtain ⟨new, hnew, later⟩ := h.later
  have accepted : ((m.setTx (r.accept p)).record (.accepted p)).journal.accepted =
      m.journal.accepted ++ [p] := by
    rw [Machine.journal_record]
    exact Journal.pick_add h.complete Event.accepted? _
  have completed : ((m.setTx (r.accept p)).record (.accepted p)).journal.completed =
      m.journal.completed := by
    rw [Machine.journal_record]
    exact Journal.pick_add_of_none h.complete rfl
  have announced : ((m.setTx (r.accept p)).record (.accepted p)).journal.announced =
      m.journal.announced := by
    rw [Machine.journal_record]
    exact Journal.pick_add_of_none h.complete rfl
  refine ⟨Machine.tx_record _ _, ?_, fun k lower upper => ?_, ?_, new, announced.trans hnew, ?_⟩
  · rw [Machine.journal_record, Journal.detail_add]
    exact h.complete
  · obtain ⟨q, hq, ignored⟩ := h.marked k lower upper
    refine ⟨q, ?_, ignored⟩
    rw [completed, packets_accept, ← append_assoc,
      getElem?_append_left (List.getElem?_eq_some_iff.mp hq).1]
    exact hq
  · rw [accepted, length_append]
    exact Nat.le_trans h.within (Nat.le_add_right _ _)
  · have prospects : x.prospects (r.accept p) <+ x.prospects r ++ [p] := by
      unfold TxPoint.prospects
      rw [accept, Array.toList_push, ← append_assoc, filter_append, ← append_assoc]
      exact filter_sublist.append_left _
    rw [accepted, drop_append_of_le_length h.within]
    calc new.map TxPost.packet ++ x.prospects (r.accept p)
        <+ new.map TxPost.packet ++ (x.prospects r ++ [p]) := prospects.append_left _
      _ = new.map TxPost.packet ++ x.prospects r ++ [p] := (append_assoc _ _ _).symm
      _ <+ m.journal.accepted.drop past ++ [p] := later.append_right _

/-- The next post of a walk is announced. -/
theorem announced {w : Walk} {done todo : List TxPost} {t : TxPost}
    (h : Withdrawn first past old (.walking w done (t :: todo)) m r) :
    Withdrawn first past old (.writing w done t todo 0) (m.record (.posting t)) r := by
  obtain ⟨new, hnew, later⟩ := h.later
  have accepted : (m.record (.posting t)).journal.accepted = m.journal.accepted := by
    rw [Machine.journal_record]
    exact Journal.pick_add_of_none h.complete rfl
  have completed : (m.record (.posting t)).journal.completed = m.journal.completed := by
    rw [Machine.journal_record]
    exact Journal.pick_add_of_none h.complete rfl
  have announced : (m.record (.posting t)).journal.announced = m.journal.announced ++ [t] := by
    rw [Machine.journal_record]
    exact Journal.pick_add h.complete Event.posting? _
  refine ⟨(Machine.tx_record _ _).trans h.tx, ?_, ?_, ?_, new ++ [t], ?_, ?_⟩
  · rw [Machine.journal_record, Journal.detail_add]
    exact h.complete
  · rw [completed]
    exact h.marked
  · rw [accepted]
    exact h.within
  · rw [announced, hnew, append_assoc]
  · rw [accepted, map_append, append_assoc]
    exact later

/-- A packet is handed back, marked or as it is. -/
theorem settled (h : Withdrawn first past old x m r) {p q : Packet} (mark : p.Marked q)
    (packets : r.packets = p :: r'.packets) (fewer : x.prospects r' <+ x.prospects r) :
    Withdrawn first past old x ((m.setTx (r'.settle q)).record (.completed q)) (r'.settle q) := by
  obtain ⟨new, hnew, later⟩ := h.later
  have accepted : ((m.setTx (r'.settle q)).record (.completed q)).journal.accepted =
      m.journal.accepted := by
    rw [Machine.journal_record]
    exact Journal.pick_add_of_none h.complete rfl
  have completed : ((m.setTx (r'.settle q)).record (.completed q)).journal.completed =
      m.journal.completed ++ [q] := by
    rw [Machine.journal_record]
    exact Journal.pick_add h.complete Event.completed? _
  have announced : ((m.setTx (r'.settle q)).record (.completed q)).journal.announced =
      m.journal.announced := by
    rw [Machine.journal_record]
    exact Journal.pick_add_of_none h.complete rfl
  refine ⟨Machine.tx_record _ _, ?_, fun k lower upper => ?_, ?_, new, announced.trans hnew, ?_⟩
  · rw [Machine.journal_record, Journal.detail_add]
    exact h.complete
  · obtain ⟨p', hp', ignored⟩ := h.marked k lower upper
    have same : Forall₂ Packet.Marked (p :: r'.packets) (q :: r'.packets) :=
      .cons mark (Packet.forall₂_marked_refl _)
    have all := rel_append (Packet.forall₂_marked_refl m.journal.completed) same
    rw [packets] at hp'
    obtain ⟨q', hq', marked⟩ := getElem?_of_marked all hp'
    refine ⟨q', ?_, marked.ignored ignored⟩
    rw [completed, packets_settle, append_assoc]
    exact hq'
  · rw [accepted]
    exact h.within
  · rw [accepted]
    exact (fewer.append_left _).trans later

end Withdrawn

/-- The withdrawn packets of a machine, whatever its ring is. -/
def WithdrawnIn (first past : Nat) (old : List TxPost) (c : TxPoint × Machine) : Prop :=
  ∃ r, Withdrawn first past old c.1 c.2 r

/-- **No step brings a withdrawn packet back.** -/
theorem WithdrawnIn.step {first past : Nat} {old : List TxPost} (c c' : TxPoint × Machine)
    (step : TxStep permits c c') (surveyed : Surveyed c) (h : WithdrawnIn first past old c) :
    WithdrawnIn first past old c' := by
  obtain ⟨r, h⟩ := h
  have ring {q : TxRing} (tx : c.2.tx = some q) : q = r := Option.some.inj (tx.symm.trans h.tx)
  cases step
  case plan => exact ⟨r, h.tx, h.complete, h.marked, h.within, h.later⟩
  case move =>
    exact ⟨r, h.entered (Machine.tx_move _ _) (Machine.journal_move _ _) rfl rfl rfl (.refl _)⟩
  case elsewhere apart => exact ⟨r, h.apart apart⟩
  case note e aside =>
    refine ⟨r, h.entered (Machine.tx_record _ _) (Machine.journal_record _ _) ?_ ?_ ?_ (.refl _)⟩
    all_goals cases e <;> first | rfl | exact absurd aside Bool.false_ne_true
  case accept q p tx free =>
    obtain rfl := ring tx
    exact ⟨_, h.accepted p⟩
  case look | align | switchOn | switchOff | ring | read | write =>
    exact ⟨r, h.entered (Machine.tx_record _ _) (Machine.journal_record _ _) rfl rfl rfl (.refl _)⟩
  case stop | drain | quiet | written =>
    exact ⟨r, h.tx, h.complete, h.marked, h.within, h.later⟩
  case place q tx | abandon q tx empty =>
    obtain rfl := ring tx
    exact ⟨_, h.rearranged (Packet.forall₂_marked_refl _) (.refl _)⟩
  case mark q tx =>
    obtain rfl := ring tx
    refine ⟨_, h.rearranged ?_ (TxPoint.prospects_cancel q rfl rfl)⟩
    rw [packets, packets, queue_cancel]
    exact rel_append (Packet.forall₂_marked_ignore _) (Packet.forall₂_marked_refl _)
  case collect q tx =>
    obtain rfl := ring tx
    refine ⟨_, h.rearranged ?_ ?_⟩
    · rw [packets_collect]
      exact Packet.forall₂_marked_refl _
    · rw [TxPoint.prospects_of_no_walk rfl, TxPoint.prospects_of_no_walk rfl]
      have same : q.collect.waiting ++ q.collect.intake.toList = q.waiting ++ q.intake.toList :=
        append_nil _
      rw [same]
  case survey q tx running =>
    obtain rfl := ring tx
    obtain ⟨new, hnew, later⟩ := h.later
    refine ⟨q, h.tx, h.complete, h.marked, h.within, new, hnew, ?_⟩
    rw [TxPoint.prospects_postingWalk]
    exact later
  case announce => exact ⟨r, h.announced⟩
  case adopt m w done q tx =>
    obtain rfl := ring tx
    obtain rfl := surveyed w q rfl tx
    refine ⟨_, h.rearranged ?_ (.refl _)⟩
    rw [packets_afterWalk]
    exact Packet.forall₂_marked_refl _
  case doubt c q tx =>
    obtain rfl := ring tx
    obtain ⟨n, hn⟩ := exists_noteReading_eq q c
    rw [hn]
    exact ⟨_, h.rearranged (Packet.forall₂_marked_refl _) (.refl _)⟩
  case complete q q' tx next =>
    obtain rfl := ring tx
    have packets := packets_of_takeDone? next
    refine ⟨_, h.settled (Packet.Marked.refl _) packets ?_⟩
    rcases takeDone?_eq_some_iff.mp next with ⟨rest, -, rfl⟩ | ⟨last, rest, -, -, rfl⟩ <;>
      exact .refl _
  case surrender q q' tx next =>
    obtain rfl := ring tx
    have packets := packets_of_takeOldest? next
    refine ⟨_, h.settled (Packet.marked_ignore _) packets ?_⟩
    rcases takeOldest?_eq_some_iff.mp next with ⟨e, rest, -, -, rfl⟩ | ⟨rest, -, waiting, rfl⟩
    · exact .refl _
    · rw [TxPoint.prospects_of_no_walk rfl, TxPoint.prospects_of_no_walk rfl, waiting]
      exact ((sublist_cons_self _ _).append_right _).filter _

/-! ## What is written -/

/-- The descriptors that posts come to, with their slots. -/
def writesOf (size : RingSize) (ts : List TxPost) : List (Nat × TxDescriptor) :=
  ts.flatMap fun t => t.writes size

/-- What was written, apart from a post that is being written just now. -/
def TxPoint.Wrote (size : RingSize) (j : Journal) : TxPoint → Prop
  | .writing _ _ t _ k => ∃ ts, j.announced = ts ++ [t] ∧
      j.written = writesOf size ts ++ (t.writes size).take k
  | _ => j.written = writesOf size j.announced

/-- All that is ever written are the descriptors of announced packets. -/
structure TxWrote (size : RingSize) (c : TxPoint × Machine) : Prop where
  /-- Every event is kept. -/
  complete : c.2.journal.detail = .complete
  /-- What was written is accounted for. -/
  wrote : c.1.Wrote size c.2.journal

namespace TxWrote

variable {size : RingSize} {depth : Nat} {x x' : TxPoint}

/-- A step that neither announces nor writes. -/
theorem entered (h : TxWrote size (x, m)) {e : Event} (journal : m'.journal = m.journal.add e)
    (posting : e.posting? = none) (wrote : e.wroteTx? = none)
    (same : ∀ j, x.Wrote size j → x'.Wrote size j) : TxWrote size (x', m') := by
  have announced : m'.journal.announced = m.journal.announced := by
    rw [journal]
    exact Journal.pick_add_of_none h.complete posting
  have written : m'.journal.written = m.journal.written := by
    rw [journal]
    exact Journal.pick_add_of_none h.complete wrote
  refine ⟨?_, same _ ?_⟩
  · rw [journal, Journal.detail_add]
    exact h.complete
  · have before := h.wrote
    cases x <;>
      (unfold TxPoint.Wrote at before ⊢
       rw [announced, written]
       exact before)

theorem apart (h : TxWrote size (x, m)) (apart : TxApart m m') : TxWrote size (x, m') := by
  refine ⟨?_, ?_⟩
  all_goals dsimp only
  all_goals rw [apart.journal]
  · exact h.complete
  · exact h.wrote

/-- The next post is announced, and nothing of it is written yet. -/
theorem announce {w : Walk} {done todo : List TxPost} {t : TxPost}
    (h : TxWrote size (.walking w done (t :: todo), m)) :
    TxWrote size (.writing w done t todo 0, m.record (.posting t)) := by
  refine ⟨?_, m.journal.announced, ?_, ?_⟩
  · rw [Machine.journal_record, Journal.detail_add]
    exact h.complete
  · rw [Machine.journal_record]
    exact Journal.pick_add h.complete Event.posting? _
  · rw [take_zero, append_nil, Machine.journal_record]
    exact (Journal.pick_add_of_none h.complete rfl).trans h.wrote

/-- The next descriptor of a post is written. -/
theorem write {w : Walk} {done todo : List TxPost} {t : TxPost} {k slot : Nat} {d : TxDescriptor}
    (h : TxWrote size (.writing w done t todo k, m))
    (next : (t.writes size)[k]? = some (slot, d)) :
    TxWrote size (.writing w done t todo (k + 1), m.pokeTx slot d) := by
  obtain ⟨ts, announced, written⟩ := h.wrote
  refine ⟨?_, ts, ?_, ?_⟩
  · rw [Machine.toScene_pokeTx, Journal.detail_add]
    exact h.complete
  · rw [Machine.toScene_pokeTx]
    exact (Journal.pick_add_of_none h.complete rfl).trans announced
  · have more : (m.journal.add (.wroteTx slot d)).written = m.journal.written ++ [(slot, d)] :=
      Journal.pick_add h.complete Event.wroteTx? _
    rw [Machine.toScene_pokeTx, more, written, take_add_one, next, append_assoc]
    rfl

/-- A post is written once all of its descriptors are. -/
theorem written {w : Walk} {done todo : List TxPost} {t : TxPost}
    (h : TxWrote size (.writing w done t todo t.packet.fragmentCount, m)) :
    TxWrote size (.walking w (done ++ [t]) todo, m) := by
  obtain ⟨ts, announced, written⟩ := h.wrote
  refine ⟨h.complete, ?_⟩
  have whole : (t.writes size).take t.packet.fragmentCount = t.writes size := by
    rw [← TxPost.length_writes t size, take_length]
  show m.journal.written = writesOf size m.journal.announced
  rw [announced, written, whole, writesOf, writesOf, flatMap_append, flatMap_singleton]

theorem step (c c' : TxPoint × Machine) (step : TxStep permits c c')
    (ready : TxReady permits size depth c.2) (h : TxWrote size c) : TxWrote size c' := by
  cases step
  case plan => exact ⟨h.complete, h.wrote⟩
  case move => exact h.entered (Machine.journal_move _ _) rfl rfl fun _ h => h
  case elsewhere apart => exact h.apart apart
  case note e aside =>
    refine h.entered (Machine.journal_record _ _) ?_ ?_ fun _ h => h
    all_goals cases e <;> first | rfl | exact absurd aside Bool.false_ne_true
  case look | read | align | switchOn | switchOff | ring | accept | complete | surrender =>
    exact h.entered (Machine.journal_record _ _) rfl rfl fun _ h => h
  case place | mark | collect | adopt | doubt | abandon | survey | quiet | stop | drain =>
    exact ⟨h.complete, h.wrote⟩
  case announce => exact h.announce
  case write q tx next =>
    obtain ⟨r, hr, size_eq, -⟩ := ready.ring
    obtain rfl := Option.some.inj (tx.symm.trans hr)
    rw [size_eq] at next
    exact h.write next
  case written => exact h.written

end TxWrote

/-! ## Cancellation -/

/-- How many packets have left the intake. -/
def Machine.collected (m : Machine) : Nat :=
  m.journal.completed.length + ((m.tx.map fun r => r.queue.length).getD 0)

theorem Machine.collected_eq (tx : m.tx = some r) :
    m.collected = m.journal.completed.length + r.queue.length := by
  rw [Machine.collected, tx, Option.map_some, Option.getD_some]

/-- A paused ring has withdrawn what has left its intake. -/
theorem Paused.withdrawn {k : Machine} (h : Paused k m) (complete : k.journal.detail = .complete)
    (tx : m.tx = some r) (ledger : TxLedger m.journal r) :
    Withdrawn k.journal.completed.length m.collected k.journal.announced .idle m r := by
  obtain ⟨q, hq, -, queued⟩ := h.ring
  obtain rfl := Option.some.inj (tx.symm.trans hq)
  obtain ⟨ps, hps, handed⟩ := h.entered.pick_append complete (f := Event.completed?)
    fun e p void => void.completed p
  have completed : m.journal.completed = k.journal.completed ++ ps := hps
  have announced : m.journal.announced = k.journal.announced :=
    h.entered.pick_eq complete fun e void => void.posting
  have order := ledger.order
  rw [← append_assoc] at order
  refine ⟨tx, h.entered.detail.trans complete, fun i lower upper => ?_, ?_, [], ?_, ?_⟩
  · have all : ∀ p ∈ ps ++ r.queue, p.ignored = true := by
      intro p hp
      rcases mem_append.mp hp with hp | hp
      · exact handed p hp
      · exact queued p hp
    have parts : m.journal.completed ++ r.packets =
        k.journal.completed ++ (ps ++ r.queue) ++ r.intake.toList := by
      rw [completed, packets, append_assoc, append_assoc, append_assoc]
    have inside : i - k.journal.completed.length < (ps ++ r.queue).length := by
      rw [Machine.collected_eq tx, completed, length_append] at upper
      rw [length_append]
      omega
    refine ⟨_, ?_, all _ (getElem_mem inside)⟩
    rw [parts, getElem?_append_left, getElem?_append_right lower, getElem?_eq_getElem inside]
    rw [length_append]
    omega
  · rw [Machine.collected_eq tx, order.length_eq, length_append, length_append]
    exact Nat.le_add_right _ _
  · rw [announced, append_nil]
  · have waiting : (r.waiting.filter fun p => !p.ignored) = [] := by
      refine filter_eq_nil_iff.mpr fun p hp => ?_
      rw [queued p (mem_append_right _ hp)]
      exact Bool.false_ne_true
    have rest := forall₂_drop m.collected order
    rw [Machine.collected_eq tx, ← length_append, drop_left] at rest
    rw [TxPoint.prospects_of_no_walk rfl, filter_append, waiting, Machine.collected_eq tx,
      ← length_append]
    exact filter_sublist_of_marked rest

/-- **What cancellation reaches, it reaches for good.**  A ring in use is cancelled, and used in any
way without being started; then it is used in any way at all.  The packets that had left the intake
by the next start, those handed back before the cancellation apart, come back marked if they come
back, and none of them is written into a descriptor after the cancellation: whatever is announced
after it, and all that is written belongs to that, is a packet taken in after them. -/
theorem cancelled_packets_are_withdrawn {slots depth : Nat} {m₀ m m₁ m' : Machine}
    (new : m₀.NewTx slots depth) (before : ReflTransGen (TxRequest fun _ => True) m₀ m)
    (live : m.tx.map TxRing.phase ≠ some .cancelled)
    (pause : ReflTransGen (TxPause fun _ => True) m.cancelTx m₁)
    (after : ReflTransGen (TxRequest fun _ => True) m₁ m') :
    (∀ k p, m.journal.completed.length ≤ k → k < m₁.collected →
      m'.journal.completed[k]? = some p → p.ignored = true) ∧
    ∃ size later, size.slots = slots ∧ m'.journal.announced = m.journal.announced ++ later ∧
      m'.journal.written = m.journal.written ++ writesOf size later ∧
      later.map TxPost.packet <+ m'.journal.accepted.drop m₁.collected := by
  obtain ⟨size, hs, ready, surveyed₀, kept₀⟩ := new.begins fun _ _ _ _ => trivial
  -- what every run from the new ring keeps
  let Inv (c : TxPoint × Machine) : Prop := Surveyed c ∧ TxReady (fun _ => True) size depth c.2 ∧
    TxKept slots depth c.2 ∧ TxWrote size c
  have start : Inv (.idle, m₀) := by
    refine ⟨surveyed₀, ready, kept₀, new.complete, ?_⟩
    show m₀.journal.written = writesOf _ m₀.journal.announced
    rw [Journal.written, Journal.announced, Journal.pick, Journal.pick, new.fresh]
    rfl
  have keeps (c c' : TxPoint × Machine) (step : TxStep (fun _ => True) c c') (h : Inv c) : Inv c' :=
    ⟨step.surveyed c c' h.1, h.2.1.step step, TxKept.step c c' step h.1 h.2.2.1,
      TxWrote.step c c' step h.2.1 h.2.2.2⟩
  have run {k : Machine} (reqs : ReflTransGen (TxRequest fun _ => True) m₀ k) : Inv (.idle, k) :=
    Machine.inv_of_steps Inv keeps (steps_of_requests reqs ready) start
  have paused := (before.tail (.cancel m)).trans (pause.lift id fun _ _ => TxPause.request)
  obtain ⟨-, ready_m, kept, wrote⟩ := run before
  obtain ⟨surveyed, ready_m₁, kept₁, -⟩ := run paused
  obtain ⟨-, -, -, wrote'⟩ := run (paused.trans after)
  -- what the cancellation has withdrawn stays withdrawn
  obtain ⟨r, tx, -, -⟩ := ready_m.ring
  obtain ⟨r₁, tx₁, -, -⟩ := ready_m₁.ring
  rw [tx, Option.map_some] at live
  have withdrawn := ((Paused.begin tx fun h => live (congrArg some h)).run pause).withdrawn
    kept.complete tx₁ (kept₁.ledger tx₁).2.2
  obtain ⟨-, r', held⟩ := Machine.inv_of_steps
    (fun c => Surveyed c ∧ WithdrawnIn m.journal.completed.length m₁.collected m.journal.announced c)
    (fun c c' step h => ⟨step.surveyed c c' h.1, WithdrawnIn.step c c' step h.1 h.2⟩)
    (steps_of_requests after ready_m₁) ⟨surveyed, r₁, withdrawn⟩
  obtain ⟨later, announced, among⟩ := held.later
  refine ⟨fun k p lower upper hp => ?_, size, later, hs, announced, ?_, ?_⟩
  · obtain ⟨q, hq, ignored⟩ := held.marked k lower upper
    rw [getElem?_append_left (List.getElem?_eq_some_iff.mp hp).1, hp] at hq
    obtain rfl := Option.some.inj hq
    exact ignored
  · have all : m'.journal.written = writesOf size m'.journal.announced := wrote'.wrote
    have old : m.journal.written = writesOf size m.journal.announced := wrote.wrote
    rw [all, announced, writesOf, flatMap_append, old]
    rfl
  · exact (sublist_append_left _ _).trans among

/-- One packet is posted and one is in the intake when the ring is cancelled.  The ring is served,
started and used again: both have come back marked, and only the third packet was posted since. -/
theorem cancelled_packets_are_withdrawn_served :
    ∃ m m₁ m', ReflTransGen (TxRequest fun _ => True) (.withTx ⟨4, by decide⟩ 4) m ∧
      m.journal.accepted.length = 2 ∧ m.journal.announced.length = 1 ∧
      ReflTransGen (TxPause fun _ => True) m.cancelTx m₁ ∧ m₁.collected = 2 ∧
      ReflTransGen (TxRequest fun _ => True) m₁ m' ∧ m'.journal.announced.length = 2 ∧
      (∀ k p, m.journal.completed.length ≤ k → k < m₁.collected →
        m'.journal.completed[k]? = some p → p.ignored = true) ∧
      ∃ size later, size.slots = 4 ∧ m'.journal.announced = m.journal.announced ++ later ∧
        m'.journal.written = m.journal.written ++ writesOf size later ∧
        later.map TxPost.packet <+ m'.journal.accepted.drop m₁.collected := by
  let p : Packet := .single 1 ⟨.ofNat 0x1000, 64⟩
  let q : Packet := .single 2 ⟨.ofNat 0x2000, 64⟩
  let t : Packet := .single 3 ⟨.ofNat 0x3000, 64⟩
  let started : Machine := (Machine.withTx ⟨4, by decide⟩ 4).startTx.2
  let m : Machine := (((started.submit p).2.advanceTx .silent).machine.submit q).2
  let m₁ : Machine := (m.cancelTx.advanceTx .silent).machine
  have before : ReflTransGen (TxRequest fun _ => True) (.withTx ⟨4, by decide⟩ 4) m :=
    ReflTransGen.refl
      |>.tail (.start _)
      |>.tail (.sending (.submit _ p))
      |>.tail (.advance _ (Upper.abides_silent _))
      |>.tail (.sending (.submit _ q))
  have pause : ReflTransGen (TxPause fun _ => True) m.cancelTx m₁ :=
    .single (.advance _ (Upper.abides_silent _))
  have after : ReflTransGen (TxRequest fun _ => True) m₁ _ :=
    ReflTransGen.refl
      |>.tail (.start _)
      |>.tail (.sending (.submit _ t))
      |>.tail (.advance _ (Upper.abides_silent _))
  exact ⟨m, m₁, _, before, by decide, by decide, pause, by decide, after, by decide,
    cancelled_packets_are_withdrawn (Machine.newTx_withTx ⟨4, by decide⟩ 4) before (by decide) pause
      after⟩

/-- **The intake survives cancellation** if the ring is started before it is served: a packet that
was taken in before the ring was cancelled is written into a descriptor after that, and comes back
unmarked. -/
theorem intake_survives_cancellation :
    ∃ m m' p, ReflTransGen (TxRequest fun _ => True) (.withTx ⟨4, by decide⟩ 4) m ∧
      m.tx.map TxRing.phase = some .running ∧ m.journal.accepted = [p] ∧ m.journal.completed = [] ∧
      ReflTransGen (TxRequest fun _ => True) m.cancelTx m' ∧
      m.journal.written = [] ∧ m'.journal.written = [(0, ⟨.ofNat 0x1000, 64, 7⟩)] ∧
      m'.journal.completed = [p] ∧ p.ignored = false := by
  let p : Packet := .single 1 ⟨.ofNat 0x1000, 64⟩
  have before : ReflTransGen (TxRequest fun _ => True) (.withTx ⟨4, by decide⟩ 4) _ :=
    ReflTransGen.refl
      |>.tail (.start _)
      |>.tail (.sending (.submit _ p))
  have after : ReflTransGen (TxRequest fun _ => True)
      ((Machine.withTx ⟨4, by decide⟩ 4).startTx.2.submit p).2.cancelTx _ :=
    ReflTransGen.refl
      |>.tail (.start _)
      |>.tail (.advance _ (Upper.abides_silent _))
      |>.tail (.sending (@Sending.move _ _ (.consume 1) trivial))
      |>.tail (.advance _ (Upper.abides_silent _))
  exact ⟨_, _, p, before, by decide, by decide, by decide, after, by decide, by decide, by decide,
    rfl⟩

end DescriptorRings
